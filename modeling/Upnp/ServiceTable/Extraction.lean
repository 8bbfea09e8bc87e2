import Upnp.ServiceTable.GetServiceTable

/-!
# What the service table holds

`getAllServiceList` joins the lists of the devices at an end that it keeps in a
pointer, and a device without services can leave it `NULL`.  The table is exactly
what the description offers when none does too early and no device lies in the
service list of another one.
-/

namespace Upnp.ServiceTable

open Upnp.Lib Upnp.Dom

variable {resolve_rel_url : Option CString → CString → Option CString} {URLBase : Option CString}
variable {device : Found} {devices : List Found} {head : List ServiceInfo}

/-! ## The end of the list -/

variable (resolve_rel_url URLBase) in
/-- A device that has both elements, but makes no entry. -/
def Emptied (device : Found) : Prop :=
  (offer device).isSome ∧ entries resolve_rel_url URLBase device = []

variable (resolve_rel_url URLBase) in
/-- After the first device with an entry, the next one has an entry too, and none of the others has
both elements without making an entry; the last device of the description may do as it likes. -/
def EndsKept : List Found → Prop
  | [] => True
  | device :: devices =>
    if entries resolve_rel_url URLBase device = [] then EndsKept devices
    else
      match devices.dropLast with
      | [] => True
      | next :: others =>
        entries resolve_rel_url URLBase next ≠ [] ∧
          ∀ other ∈ others, ¬ Emptied resolve_rel_url URLBase other

/-- One more device, behind a list with an end. -/
theorem allLoop_cons (hhead : head ≠ []) (next_end : Option Nat) :
    allLoop resolve_rel_url URLBase (device :: devices) head (endOf head) next_end =
      (let next_end := match offer device with
        | none => next_end
        | some _ => if entries resolve_rel_url URLBase device = [] then none
          else endOf (head ++ entries resolve_rel_url URLBase device)
      allLoop resolve_rel_url URLBase devices (head ++ entries resolve_rel_url URLBase device)
        next_end next_end) := by
  obtain ⟨e, hend, hlen⟩ := endOf_of_ne_nil hhead
  rw [allLoop, getServiceList_eq]
  dsimp only
  rw [if_pos hhead, hend]
  dsimp only
  rw [hlen, List.take_length]
  cases offer device with
  | none => rfl
  | some r =>
    rw [Option.map_some]
    dsimp only
    by_cases hnil : entries resolve_rel_url URLBase device = []
    · rw [if_pos hnil, hnil]
      rfl
    · obtain ⟨l, hlast, hlast'⟩ := endOf_of_ne_nil hnil
      have hjoin : endOf (head ++ entries resolve_rel_url URLBase device) = some (head.length + l) := by
        rw [endOf, if_neg (List.append_ne_nil_of_left_ne_nil hhead _), List.length_append, ← hlast']
        rfl
      rw [if_neg hnil, hjoin, hlast]
      rfl

/-- Through a `NULL` end only an empty rest of the devices is passed. -/
theorem allLoop_null (hhead : head ≠ []) (next_end : Option Nat) :
    allLoop resolve_rel_url URLBase devices head none next_end =
      if devices = [] then some head else none := by
  cases devices with
  | nil => rfl
  | cons device devices =>
    rw [allLoop, getServiceList_eq]
    dsimp only
    rw [if_pos hhead]
    rfl

theorem entries_of_offer_eq_none (h : offer device = none) :
    entries resolve_rel_url URLBase device = [] := by
  rw [entries, h]

theorem exists_offer (h : entries resolve_rel_url URLBase device ≠ []) :
    ∃ r, offer device = some r :=
  Option.ne_none_iff_exists'.mp fun hnone ↦ h (entries_of_offer_eq_none hnone)

/-- While `next_end` is the end of the list, only devices that are emptied do harm. -/
theorem allLoop_kept (hhead : head ≠ []) :
    allLoop resolve_rel_url URLBase devices head (endOf head) (endOf head) =
        some (head ++ devices.flatMap (entries resolve_rel_url URLBase)) ∧
        (∀ other ∈ devices.dropLast, ¬ Emptied resolve_rel_url URLBase other) ∨
      allLoop resolve_rel_url URLBase devices head (endOf head) (endOf head) = none ∧
        ∃ other ∈ devices.dropLast, Emptied resolve_rel_url URLBase other := by
  induction devices generalizing head with
  | nil =>
    refine .inl ⟨?_, nofun⟩
    rw [List.flatMap_nil, List.append_nil]
    rfl
  | cons device devices ih =>
    have hnext := List.append_ne_nil_of_left_ne_nil hhead (entries resolve_rel_url URLBase device)
    have hmore : devices ≠ [] → (device :: devices).dropLast = device :: devices.dropLast :=
      List.dropLast_cons_of_ne_nil
    rw [allLoop_cons hhead, List.flatMap_cons, ← List.append_assoc]
    by_cases hemptied : Emptied resolve_rel_url URLBase device
    · obtain ⟨hoffer, hnil⟩ := hemptied
      obtain ⟨r, hr⟩ := Option.isSome_iff_exists.mp hoffer
      rw [hr]
      dsimp only
      rw [if_pos hnil, allLoop_null hnext]
      by_cases hdevices : devices = []
      · subst hdevices
        rw [if_pos rfl, List.flatMap_nil, List.append_nil]
        exact .inl ⟨rfl, nofun⟩
      · rw [if_neg hdevices, hmore hdevices]
        exact .inr ⟨rfl, device, List.mem_cons_self, hoffer, hnil⟩
    · have hend : (match offer device with
          | none => endOf head
          | some _ => if entries resolve_rel_url URLBase device = [] then none
            else endOf (head ++ entries resolve_rel_url URLBase device)) =
          endOf (head ++ entries resolve_rel_url URLBase device) := by
        cases hoffer : offer device with
        | none => rw [entries_of_offer_eq_none hoffer, List.append_nil]
        | some r =>
          have hne : entries resolve_rel_url URLBase device ≠ [] := fun hnil ↦
            hemptied ⟨Option.isSome_iff_exists.mpr ⟨r, hoffer⟩, hnil⟩
          exact if_neg hne
      dsimp only
      rw [hend]
      rcases ih hnext with ⟨hloop, hkept⟩ | ⟨hloop, other, hother, hbad⟩
      · refine .inl ⟨hloop, ?_⟩
        cases devices with
        | nil => exact nofun
        | cons d ds =>
          rw [hmore (List.cons_ne_nil d ds)]
          exact List.forall_mem_cons.mpr ⟨hemptied, hkept⟩
      · refine .inr ⟨hloop, other, ?_, hbad⟩
        cases devices with
        | nil => cases hother
        | cons d ds =>
          rw [hmore (List.cons_ne_nil d ds)]
          exact List.mem_cons_of_mem _ hother

/-- The devices behind the first one with an entry. -/
theorem allLoop_first (hhead : head ≠ []) :
    allLoop resolve_rel_url URLBase devices head (endOf head) none =
        some (head ++ devices.flatMap (entries resolve_rel_url URLBase)) ∧
        (∀ next others, devices.dropLast = next :: others →
          entries resolve_rel_url URLBase next ≠ [] ∧
            ∀ other ∈ others, ¬ Emptied resolve_rel_url URLBase other) ∨
      allLoop resolve_rel_url URLBase devices head (endOf head) none = none ∧
        ∃ next others, devices.dropLast = next :: others ∧
          (entries resolve_rel_url URLBase next = [] ∨
            ∃ other ∈ others, Emptied resolve_rel_url URLBase other) := by
  cases devices with
  | nil =>
    refine .inl ⟨?_, nofun⟩
    rw [List.flatMap_nil, List.append_nil]
    rfl
  | cons device devices =>
    have hnext := List.append_ne_nil_of_left_ne_nil hhead (entries resolve_rel_url URLBase device)
    rw [allLoop_cons hhead, List.flatMap_cons, ← List.append_assoc]
    by_cases hnil : entries resolve_rel_url URLBase device = []
    · have hend : (match offer device with
          | none => none
          | some _ => if entries resolve_rel_url URLBase device = [] then none
            else endOf (head ++ entries resolve_rel_url URLBase device)) = (none : Option Nat) := by
        cases offer device with
        | none => rfl
        | some r => exact if_pos hnil
      dsimp only
      rw [hend, allLoop_null hnext]
      by_cases hdevices : devices = []
      · subst hdevices
        rw [if_pos rfl, List.flatMap_nil, List.append_nil]
        exact .inl ⟨rfl, nofun⟩
      · rw [if_neg hdevices]
        exact .inr ⟨rfl, device, devices.dropLast, List.dropLast_cons_of_ne_nil hdevices, .inl hnil⟩
    · obtain ⟨r, hr⟩ := exists_offer hnil
      rw [hr]
      dsimp only
      rw [if_neg hnil]
      rcases @allLoop_kept resolve_rel_url URLBase devices _ hnext with
        ⟨hloop, hkept⟩ | ⟨hloop, other, hother, hbad⟩
      · refine .inl ⟨hloop, fun next others hdrop ↦ ?_⟩
        cases devices with
        | nil => cases hdrop
        | cons d ds =>
          rw [List.dropLast_cons_of_ne_nil (List.cons_ne_nil d ds)] at hdrop
          cases hdrop
          exact ⟨hnil, hkept⟩
      · cases devices with
        | nil => cases hother
        | cons d ds =>
          exact .inr ⟨hloop, device, _, List.dropLast_cons_of_ne_nil (List.cons_ne_nil d ds),
            .inr ⟨other, hother, hbad⟩⟩

/-- The list is the entries of the devices in their order, or the end was `NULL` too early. -/
theorem allLoop_cases :
    allLoop resolve_rel_url URLBase devices [] none none =
        some (devices.flatMap (entries resolve_rel_url URLBase)) ∧
        EndsKept resolve_rel_url URLBase devices ∨
      allLoop resolve_rel_url URLBase devices [] none none = none ∧
        ¬ EndsKept resolve_rel_url URLBase devices := by
  induction devices with
  | nil => exact .inl ⟨rfl, trivial⟩
  | cons device devices ih =>
    rw [allLoop, getServiceList_eq, EndsKept]
    dsimp only
    rw [if_neg (not_not_intro rfl), List.flatMap_cons]
    by_cases hnil : entries resolve_rel_url URLBase device = []
    · have hend : ((offer device).map fun _ ↦ endOf (entries resolve_rel_url URLBase device)).getD
          none = none := by
        rw [hnil]
        cases offer device <;> rfl
      rw [hend, hnil, if_pos rfl, List.nil_append]
      exact ih
    · obtain ⟨r, hr⟩ := exists_offer hnil
      rw [if_neg hnil, hr, Option.map_some, Option.getD_some]
      rcases @allLoop_first resolve_rel_url URLBase devices _ hnil with
        ⟨hloop, hkept⟩ | ⟨hloop, next, others, hdrop, hbad⟩
      · refine .inl ⟨hloop, ?_⟩
        split
        · trivial
        · rename_i next others hdrop
          exact hkept next others hdrop
      · refine .inr ⟨hloop, ?_⟩
        rw [hdrop]
        rintro ⟨hne, hothers⟩
        rcases hbad with hnil' | ⟨other, hother, hemptied⟩
        · exact hne hnil'
        · exact hothers other hother hemptied

/-! ## Nested devices -/

/-- The devices of a description. -/
def devicesOf (root : Found) : List Found := root.getElementsByTagName "device".toList

/-- The services in the own list of a device, each with the UDN of the device. -/
def offers (device : Found) : List (Found × Found) :=
  match offer device with
  | none => []
  | some (UDN, services) => services.map fun service ↦ (UDN, service)

/-- A service that belongs to a device below the device. -/
def nested (root device service : Found) : Bool :=
  (devicesOf root).any fun inner ↦
    device.path.isPrefixOf inner.path && inner.path ≠ device.path &&
      inner.path.isPrefixOf service.path && inner.path ≠ service.path

/-- The services of a device, without those of a nested one. -/
def ownOffers (root device : Found) : List (Found × Found) :=
  (offers device).filter fun o ↦ !nested root device o.2

/-- The entry of a service. -/
def made (resolve_rel_url : Option CString → CString → Option CString)
    (URLBase : Option CString) (o : Found × Found) : Option ServiceInfo :=
  entry resolve_rel_url URLBase o.1 o.2

theorem entries_eq (device : Found) :
    entries resolve_rel_url URLBase device =
      (offers device).filterMap (made resolve_rel_url URLBase) := by
  rw [entries, offers]
  cases offer device with
  | none => rfl
  | some r =>
    dsimp only
    rw [List.filterMap_map]
    rfl

theorem mem_offers {o : Found × Found} (h : o ∈ offers device) :
    device.getSubElement "UDN".toList = some o.1 ∧
      ∃ serviceList, device.getSubElement "serviceList".toList = some serviceList ∧
        o.2 ∈ serviceList.getElementsByTagName "service".toList := by
  rw [offers, offer] at h
  cases hUDN : device.getSubElement "UDN".toList with
  | none =>
    rw [hUDN] at h
    cases h
  | some UDN =>
    cases hlist : device.getSubElement "serviceList".toList with
    | none =>
      rw [hUDN, hlist] at h
      cases h
    | some serviceList =>
      rw [hUDN, hlist] at h
      obtain ⟨service, hservice, rfl⟩ := List.mem_map.mp h
      exact ⟨rfl, serviceList, rfl, hservice⟩

/-- A service of a device lies behind it. -/
theorem path_of_mem_offers {o : Found × Found} (h : o ∈ offers device) :
    device.path <+: o.2.path ∧ o.2.path ≠ device.path := by
  obtain ⟨-, serviceList, hlist, hservice⟩ := mem_offers h
  obtain ⟨-, ⟨k, hk⟩, -⟩ := Found.getSubElement_some hlist
  obtain ⟨j, rest, hpath⟩ :=
    Found.path_of_mem_below (Found.mem_below_of_getElementsByTagName hservice)
  rw [hpath, hk, List.append_assoc]
  refine ⟨List.prefix_append _ _, fun heq ↦ ?_⟩
  have := congrArg List.length heq
  simp only [List.length_append, List.length_cons, List.length_nil] at this
  omega

theorem nodup_offers (device : Found) : ((offers device).map fun o ↦ o.2.path).Nodup := by
  rw [offers]
  cases hoffer : offer device with
  | none => exact List.nodup_nil
  | some r =>
    obtain ⟨UDN, services⟩ := r
    rw [offer, Option.bind_eq_some_iff] at hoffer
    obtain ⟨UDN', -, hoffer⟩ := hoffer
    obtain ⟨serviceList, -, hservices⟩ := Option.map_eq_some_iff.mp hoffer
    cases hservices
    dsimp only
    rw [List.map_map]
    exact serviceList.nodup_getElementsByTagName "service".toList

/-- Of two devices around a service, the one behind the other is nested in it. -/
theorem path_eq_of_behind {root d d' : Found} {o o' : Found × Found} (hd' : d' ∈ devicesOf root)
    (ho : o ∈ ownOffers root d) (ho' : o' ∈ offers d') (h : o.2.path = o'.2.path)
    (hbehind : d.path <+: d'.path) : d.path = d'.path := by
  by_contra hne
  obtain ⟨hlies, hdiff⟩ := path_of_mem_offers ho'
  have hnested : nested root d o.2 = true := by
    apply List.any_eq_true.mpr
    refine ⟨d', hd', ?_⟩
    rw [h, List.isPrefixOf_iff_prefix.mpr hbehind, List.isPrefixOf_iff_prefix.mpr hlies,
      decide_eq_true (Ne.symm hne), decide_eq_true (Ne.symm hdiff)]
    rfl
  have hown := (List.mem_filter.mp ho).2
  rw [hnested] at hown
  exact Bool.false_ne_true hown

/-- A service that is not of a nested device belongs to one device. -/
theorem device_unique {root d d' : Found} {o o' : Found × Found} (hd : d ∈ devicesOf root)
    (hd' : d' ∈ devicesOf root) (ho : o ∈ ownOffers root d) (ho' : o' ∈ ownOffers root d')
    (h : o.2.path = o'.2.path) : d.path = d'.path := by
  have hoffers := (List.mem_filter.mp ho).1
  have hoffers' := (List.mem_filter.mp ho').1
  have hlies := (path_of_mem_offers hoffers).1
  have hlies' := (path_of_mem_offers hoffers').1
  rw [← h] at hlies'
  rcases List.prefix_or_prefix_of_prefix hlies hlies' with hbehind | hbehind
  · exact path_eq_of_behind hd' ho hoffers' h hbehind
  · exact (path_eq_of_behind hd ho' hoffers h.symm hbehind).symm

/-- Every service of the document is offered once. -/
theorem nodup_ownOffers (root : Found) :
    ((devicesOf root).flatMap fun device ↦
      (ownOffers root device).map fun o ↦ o.2.path).Nodup := by
  apply List.nodup_flatMap.mpr
  constructor
  · intro device _
    exact (nodup_offers device).sublist (List.filter_sublist.map _)
  · have hdevices : (devicesOf root).Pairwise fun d d' ↦ d.path ≠ d'.path :=
      List.pairwise_map.mp (root.nodup_getElementsByTagName "device".toList)
    refine hdevices.imp_of_mem fun hd hd' hne ↦ ?_
    intro path hpath hpath'
    obtain ⟨o, ho, rfl⟩ := List.mem_map.mp hpath
    obtain ⟨o', ho', heq⟩ := List.mem_map.mp hpath'
    exact hne (device_unique hd hd' ho ho' heq.symm)

/-- Leaving elements out of a list changes nothing if and only if they give nothing. -/
theorem filterMap_filter_eq_iff {α β : Type*} (p : α → Bool) (f : α → Option β) (l : List α) :
    l.filterMap f = (l.filter p).filterMap f ↔ ∀ a ∈ l, p a = false → f a = none := by
  induction l with
  | nil => exact iff_of_true rfl nofun
  | cons a l ih =>
    have hlength : ((l.filter p).filterMap f).length ≤ (l.filterMap f).length :=
      (List.filter_sublist.filterMap f).length_le
    rw [List.forall_mem_cons, List.filter_cons, List.filterMap_cons]
    cases hp : p a with
    | true =>
      rw [if_pos rfl, List.filterMap_cons]
      cases f a with
      | none => exact ih.trans (and_iff_right fun _ ↦ rfl).symm
      | some b =>
        dsimp only
        rw [List.cons_inj_right]
        exact ih.trans (and_iff_right fun h ↦ absurd h Bool.true_eq_false.mp).symm
    | false =>
      rw [if_neg Bool.false_ne_true]
      cases f a with
      | none => exact ih.trans (and_iff_right fun _ ↦ rfl).symm
      | some b =>
        refine iff_of_false (fun heq ↦ ?_) fun h ↦ Option.some_ne_none b (h.1 rfl)
        have := congrArg List.length heq
        rw [List.length_cons] at this
        omega

/-! ## The table -/

/-- The list is what the description offers, each service is offered at most once, and with the UDN
of its device. -/
structure Extracts (resolve_rel_url : Option CString → CString → Option CString)
    (URLBase : Option CString) (root : Found) (head : List ServiceInfo) : Prop where
  list : head = (devicesOf root).flatMap fun device ↦
    (ownOffers root device).filterMap (made resolve_rel_url URLBase)
  once : ((devicesOf root).flatMap fun device ↦
    (ownOffers root device).map fun o ↦ o.2.path).Nodup
  udn : ∀ device ∈ devicesOf root, ∀ o ∈ ownOffers root device, ∀ e,
    made resolve_rel_url URLBase o = some e → e.UDN = valueOf "UDN".toList device

/-- An entry has the UDN that it is made with. -/
theorem made_UDN {o : Found × Found} {e : ServiceInfo}
    (h : made resolve_rel_url URLBase o = some e) : e.UDN = o.1.getElementValue := by
  rw [made, entry] at h
  cases hfail : (fillService resolve_rel_url URLBase o.1 o.2).2 with
  | true =>
    dsimp only at h
    rw [hfail, if_pos rfl] at h
    cases h
  | false =>
    dsimp only at h
    rw [hfail, if_neg Bool.false_ne_true] at h
    cases h
    rfl

theorem flatMap_entries_eq_iff (root : Found) :
    (devicesOf root).flatMap (entries resolve_rel_url URLBase) =
        ((devicesOf root).flatMap fun device ↦
          (ownOffers root device).filterMap (made resolve_rel_url URLBase)) ↔
      ∀ device ∈ devicesOf root, ∀ o ∈ offers device, nested root device o.2 →
        made resolve_rel_url URLBase o = none := by
  let pairs := (devicesOf root).flatMap fun device ↦ (offers device).map fun o ↦ (device, o)
  have hall : (devicesOf root).flatMap (entries resolve_rel_url URLBase) =
      pairs.filterMap fun q ↦ made resolve_rel_url URLBase q.2 := by
    rw [List.filterMap_flatMap]
    refine congrArg (List.flatMap · _) (funext fun device ↦ ?_)
    rw [entries_eq, List.filterMap_map]
    rfl
  have hown : ((devicesOf root).flatMap fun device ↦
      (ownOffers root device).filterMap (made resolve_rel_url URLBase)) =
      (pairs.filter fun q ↦ !nested root q.1 q.2.2).filterMap fun q ↦
        made resolve_rel_url URLBase q.2 := by
    rw [List.filter_flatMap, List.filterMap_flatMap]
    refine congrArg (List.flatMap · _) (funext fun device ↦ ?_)
    rw [ownOffers, List.filter_map, List.filterMap_map]
    rfl
  rw [hall, hown, filterMap_filter_eq_iff]
  constructor
  · intro h device hdevice o ho hnested
    refine h (device, o) ?_ (congrArg (!·) hnested)
    exact List.mem_flatMap.mpr ⟨device, hdevice, List.mem_map.mpr ⟨o, ho, rfl⟩⟩
  · intro h q hq hnot
    obtain ⟨device, hdevice, hmem⟩ := List.mem_flatMap.mp hq
    obtain ⟨o, ho, rfl⟩ := List.mem_map.mp hmem
    refine h device hdevice o ho ?_
    rw [← Bool.not_not (nested root device o.2)]
    exact congrArg (!·) hnot

/-- The table holds what the description offers if and only if no device without entries comes too
early, and no service of a nested device makes an entry. -/
theorem getServiceTable_extracts_iff
    (resolve_rel_url : Option CString → CString → Option CString) (node : Found)
    (DefaultURLBase : Option CString) :
    (∃ table, getServiceTable resolve_rel_url node DefaultURLBase = some table ∧
        ∀ root, node.getSubElement "root".toList = some root → ∃ head, table = some head ∧
          Extracts resolve_rel_url (urlBase root DefaultURLBase) root head) ↔
      ∀ root, node.getSubElement "root".toList = some root →
        EndsKept resolve_rel_url (urlBase root DefaultURLBase) (devicesOf root) ∧
          ∀ device ∈ devicesOf root, ∀ o ∈ offers device, nested root device o.2 →
            made resolve_rel_url (urlBase root DefaultURLBase) o = none := by
  rw [getServiceTable]
  cases hroot : node.getSubElement "root".toList with
  | none => exact iff_of_true ⟨none, rfl, nofun⟩ nofun
  | some root =>
    dsimp only
    rw [getAllServiceList]
    have hsome : ∀ {p : Found → Prop}, (∀ x, some root = some x → p x) ↔ p root :=
      ⟨fun h ↦ h root rfl, fun h x hx ↦ Option.some_inj.mp hx ▸ h⟩
    rw [hsome, ← flatMap_entries_eq_iff]
    rcases @allLoop_cases resolve_rel_url (urlBase root DefaultURLBase) (devicesOf root) with
      ⟨hloop, hkept⟩ | ⟨hloop, hkept⟩
    · rw [devicesOf] at hloop
      rw [hloop, Option.map_some]
      constructor
      · rintro ⟨table, htable, h⟩
        obtain ⟨head, rfl, hextracts⟩ := h root rfl
        cases htable
        exact ⟨hkept, hextracts.list⟩
      · rintro ⟨-, hlist⟩
        refine ⟨_, rfl, fun x hx ↦ ⟨_, rfl, ?_⟩⟩
        cases hx
        refine ⟨hlist, nodup_ownOffers root, fun device _ o ho e he ↦ ?_⟩
        rw [made_UDN he, valueOf, (mem_offers (List.mem_filter.mp ho).1).1]
        rfl
    · rw [devicesOf] at hloop
      rw [hloop, Option.map_none]
      refine iff_of_false ?_ fun h ↦ hkept h.1
      rintro ⟨table, htable, -⟩
      exact Option.some_ne_none table htable.symm

/-- An element with a text in it. -/
def textElement (name value : String) (nextSibling : Forest) : Forest :=
  .node (.element name.toList) (.node (.text value.toList) .null .null) nextSibling

/-- A lamp with a service, and two sensors in it that have none. -/
def lampWithSensors : Found :=
  ⟨[], .element "#document".toList,
    .node (.element "root".toList)
      (.node (.element "device".toList)
        (textElement "UDN" "uuid:lamp" <|
          .node (.element "serviceList".toList)
            (.node (.element "service".toList)
              (textElement "serviceType" "urn:s:SwitchPower:1" <|
                textElement "serviceId" "urn:i:SwitchPower" <|
                textElement "SCPDURL" "http://h/s" <|
                textElement "controlURL" "http://h/c" <|
                textElement "eventSubURL" "http://h/e" .null) .null) <|
          .node (.element "deviceList".toList)
            (.node (.element "device".toList) (textElement "UDN" "uuid:light" .null) <|
              .node (.element "device".toList) (textElement "UDN" "uuid:heat" .null) .null) .null)
        .null) .null⟩

/-- At the second sensor the end of the list is `NULL`. -/
theorem getServiceTable_null_end :
    ¬ ∃ table, getServiceTable (fun _ rel_url ↦ some rel_url) lampWithSensors none = some table ∧
      ∀ root, lampWithSensors.getSubElement "root".toList = some root →
        ∃ head, table = some head ∧
          Extracts (fun _ rel_url ↦ some rel_url) (urlBase root none) root head := by
  have hnull : getServiceTable (fun _ rel_url ↦ some rel_url) lampWithSensors none = none := by
    decide +kernel
  rintro ⟨table, htable, -⟩
  rw [hnull] at htable
  exact Option.some_ne_none table htable.symm

end Upnp.ServiceTable
