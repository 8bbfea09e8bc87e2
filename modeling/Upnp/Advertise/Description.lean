import Upnp.Advertise.AdvertiseAndReply

/-!
# Announcements and the description

An announcement is right when the elements it is made from belong to one device.
The code takes the first elements below a device, and pairs the devices of the
document with its service lists by their positions; this is right exactly when
the description lists them so.
-/

namespace Upnp.Advertise

open Upnp.Lib Upnp.Dom

variable {doc d d' x : Found} {r : Request}

/-- The innermost device around an element. -/
def BelongsTo (doc x d : Found) : Prop :=
  d ∈ DeviceList doc ∧ (d.path <+: x.path ∧ d.path ≠ x.path) ∧
    ∀ d' ∈ DeviceList doc, d'.path <+: x.path → d'.path ≠ x.path → d'.path <+: d.path

instance (doc x d : Found) : Decidable (BelongsTo doc x d) := inferInstanceAs (Decidable (_ ∧ _))

/-- Two elements belong to one device. -/
def OneDevice (doc x y : Found) : Prop := ∃ d, BelongsTo doc x d ∧ BelongsTo doc y d

/-- The children with a name. -/
def childrenNamed (tagname : CString) (x : Found) : List Found :=
  (x.firstChild.siblings x.path 0).filter (Found.hasTagName tagname)

/-- The services directly in the service list of a device. -/
def ownServices (d : Found) : List Found :=
  (childrenNamed "serviceList".toList d).flatMap (childrenNamed "service".toList)

namespace Announcement

/-- The UDN and the type that are named together. -/
def pair : Announcement → Option (Found × Found)
  | rootdevice _ => none
  | udn _ => none
  | device UDN deviceType => some (UDN, deviceType)
  | service UDN _ serviceType => some (UDN, serviceType)

def isRootdevice : Announcement → Bool
  | rootdevice _ => true
  | _ => false

/-- The device is named as the root device. -/
def isRootdeviceOf (doc d : Found) : Announcement → Bool
  | rootdevice UDN => BelongsTo doc UDN d
  | _ => false

/-- The UDN of the device is named. -/
def isUdnOf (doc d : Found) : Announcement → Bool
  | udn UDN => BelongsTo doc UDN d
  | _ => false

/-- The UDN of the device is named with a device type. -/
def isDeviceOf (doc d : Found) : Announcement → Bool
  | device UDN _ => BelongsTo doc UDN d
  | _ => false

/-- The service is named with the UDN of the device. -/
def isServiceOf (doc d current_service : Found) : Announcement → Bool
  | service UDN s _ => BelongsTo doc UDN d && s.path = current_service.path
  | _ => false

end Announcement

/-- The announcements match the description. -/
structure Matches (r : Request) (doc : Found) (names : List Announcement) : Prop where
  pairs : ∀ a ∈ names, ∀ q, a.pair = some q → OneDevice doc q.1 q.2
  devices : r.Complete → ∀ d ∈ DeviceList doc,
    names.countP (Announcement.isUdnOf doc d) = 1 ∧ names.countP (Announcement.isDeviceOf doc d) = 1
  services : r.Complete → ∀ d ∈ DeviceList doc, ∀ s ∈ ownServices d,
    names.countP (Announcement.isServiceOf doc d s) = 1
  root : r.Complete → ∀ d, (DeviceList doc).head? = some d →
    names.countP Announcement.isRootdevice = 1 ∧ names.countP (Announcement.isRootdeviceOf doc d) = 1

/-- The first type and the first UDN below each device are its own, the services below each service
list are those of the device at its position, and what a search finds belongs to one device. -/
structure Described (r : Request) (doc : Found) : Prop where
  fits : ∀ item ∈ (DeviceList doc).zipIdx, DeviceFits r doc item
  own : r.Complete → ∀ d ∈ DeviceList doc, ∃ devType UDN,
    headOf d = some (devType, UDN) ∧ BelongsTo doc devType d ∧ BelongsTo doc UDN d
  typed : r.Complete → ∀ item ∈ (DeviceList doc).zipIdx, ∀ s ∈ servicesAt doc item.2, ∀ servType,
    firstText "serviceType".toList s = some servType → BelongsTo doc servType item.1
  listed : r.Complete → ∀ item ∈ (DeviceList doc).zipIdx, ∀ s ∈ ownServices item.1,
    s ∈ servicesAt doc item.2 ∧ (firstText "serviceType".toList s).isSome
  searched : ¬ r.Complete → ∀ item ∈ (DeviceList doc).zipIdx, ∀ devType UDN,
    headOf item.1 = some (devType, UDN) →
      (r.SearchType = .DEVICE → r.DeviceUDN = [] →
        strcaseEq r.DeviceType (textOf devType) = true → OneDevice doc UDN devType) ∧
      (r.SearchType = .SERVICE → ∀ s ∈ servicesAt doc item.2, ∀ servType,
        firstText "serviceType".toList s = some servType →
          strcaseEq r.ServiceType (textOf servType) = true → OneDevice doc UDN servType)

/-! ## Places in the description -/

theorem mem_below_of_mem_DeviceList (h : d ∈ DeviceList doc) : d ∈ doc.below :=
  Found.mem_below_of_getElementsByTagName h

theorem nodup_DeviceList (doc : Found) : ((DeviceList doc).map Found.path).Nodup :=
  doc.nodup_getElementsByTagName _

/-- An element belongs to one device. -/
theorem BelongsTo.unique (h : BelongsTo doc x d) (h' : BelongsTo doc x d') : d = d' := by
  obtain ⟨hd, ⟨hbehind, hne⟩, hinner⟩ := h
  obtain ⟨hd', ⟨hbehind', hne'⟩, hinner'⟩ := h'
  have hle := hinner d' hd' hbehind' hne'
  have hge := hinner' d hd hbehind hne
  have hpath : d.path = d'.path := hge.eq_of_length_le hle.length_le
  exact Found.eq_of_path (mem_below_of_mem_DeviceList hd) (mem_below_of_mem_DeviceList hd') hpath

theorem OneDevice.belongsTo {y : Found} (h : OneDevice doc x y) (hx : BelongsTo doc x d) :
    BelongsTo doc y d := by
  obtain ⟨d', hx', hy⟩ := h
  rwa [hx'.unique hx] at hy

/-- A device before another one in the list is not inside it. -/
theorem index_le_of_behind {i k : Nat} (hi : (DeviceList doc)[i]? = some d)
    (hk : (DeviceList doc)[k]? = some d') (h : d.path <+: d'.path) : i ≤ k := by
  by_contra hlt
  obtain ⟨hik, rfl⟩ := List.getElem?_eq_some_iff.mp hi
  obtain ⟨hkk, rfl⟩ := List.getElem?_eq_some_iff.mp hk
  have horder := doc.pairwise_getElementsByTagName "device".toList
  exact List.pairwise_iff_getElem.mp horder k i hkk hik (Nat.lt_of_not_le hlt) h

theorem mem_below_of_mem_servicesAt {i : Nat} {s : Found} (h : s ∈ servicesAt doc i) :
    s ∈ doc.below := by
  rw [servicesAt] at h
  cases hlist : (ServiceList doc)[i]? with
  | none =>
    rw [hlist] at h
    cases h
  | some serviceList =>
    rw [hlist] at h
    have hmem := List.mem_of_getElem? hlist
    exact Found.mem_below_trans (Found.mem_below_of_getElementsByTagName hmem)
      (Found.mem_below_of_getElementsByTagName h)

theorem nodup_servicesAt (doc : Found) (i : Nat) : ((servicesAt doc i).map Found.path).Nodup := by
  rw [servicesAt]
  cases (ServiceList doc)[i]? with
  | none => exact List.nodup_nil
  | some serviceList => exact serviceList.nodup_getElementsByTagName _

theorem mem_below_of_mem_childrenNamed {tagname : CString} {y : Found}
    (h : y ∈ childrenNamed tagname x) : y ∈ x.below :=
  Forest.mem_nodes_of_mem_siblings (List.mem_filter.mp h).1

theorem mem_below_of_mem_ownServices {s : Found} (hd : d ∈ DeviceList doc)
    (h : s ∈ ownServices d) : s ∈ doc.below := by
  obtain ⟨serviceList, hlist, hs⟩ := List.mem_flatMap.mp h
  have hbelow := Found.mem_below_trans (mem_below_of_mem_DeviceList hd)
    (mem_below_of_mem_childrenNamed hlist)
  exact Found.mem_below_trans hbelow (mem_below_of_mem_childrenNamed hs)

/-- The elements that are taken for a device are below it. -/
theorem mem_below_of_headOf {devType UDN : Found} (h : headOf d = some (devType, UDN)) :
    UDN ∈ d.below := by
  obtain ⟨_, -, h⟩ := Option.bind_eq_some_iff.mp h
  obtain ⟨y, hy, heq⟩ := Option.map_eq_some_iff.mp h
  cases heq
  have hfirst := (Option.filter_eq_some_iff.mp hy).1
  exact Found.mem_below_of_getElementsByTagName (List.mem_of_head? hfirst)

/-- A device is at or behind the one below which its UDN is found. -/
theorem BelongsTo.index_le {devType UDN : Found} {i k : Nat} (hi : (DeviceList doc)[i]? = some d)
    (hk : (DeviceList doc)[k]? = some d') (hhead : headOf d = some (devType, UDN))
    (h : BelongsTo doc UDN d') : i ≤ k := by
  obtain ⟨j, rest, hpath⟩ := Found.path_of_mem_below (mem_below_of_headOf hhead)
  refine index_le_of_behind hi hk (h.2.2 d (List.mem_of_getElem? hi) ?_ fun heq ↦ ?_)
  · rw [hpath]
    exact List.prefix_append _ _
  · rw [hpath] at heq
    exact List.cons_ne_nil _ _ (List.self_eq_append_right.mp heq)

/-! ## Counting -/

/-- In each part there is one if it is asked for. -/
theorem countP_flatMap_eq {α β : Type*} {f : α → List β} {p : β → Bool} {q : α → Bool} {l : List α}
    (h : ∀ a ∈ l, (f a).countP p = if q a then 1 else 0) :
    (l.flatMap f).countP p = l.countP q := by
  induction l with
  | nil => rfl
  | cons a l ih =>
    rw [List.forall_mem_cons] at h
    rw [List.flatMap_cons, List.countP_append, ih h.2, h.1, List.countP_cons, Nat.add_comm]

theorem countP_path_eq_one {l : List Found} (hnodup : (l.map Found.path).Nodup) (h : x ∈ l) :
    l.countP (fun y ↦ y.path = x.path) = 1 := by
  have hcount := List.count_eq_one_of_mem hnodup (List.mem_map_of_mem h)
  rw [List.count, List.countP_map] at hcount
  rw [← hcount]
  exact List.countP_congr fun y _ ↦ by
    rw [Function.comp_apply, beq_iff_eq, decide_eq_true_iff]

theorem countP_zipIdx_path (hd : d ∈ DeviceList doc) :
    (DeviceList doc).zipIdx.countP (fun item ↦ item.1.path = d.path) = 1 := by
  have hcount := countP_path_eq_one (nodup_DeviceList doc) hd
  rw [← List.zipIdx_map_fst 0 (DeviceList doc), List.countP_map] at hcount
  exact hcount

/-! ## What is announced of an item -/

theorem mem_serviceAnnouncements {UDN s : Found} {a : Announcement}
    (h : a ∈ serviceAnnouncements r UDN s) :
    ∃ servType, firstText "serviceType".toList s = some servType ∧ a = .service UDN s servType ∧
      (r.Complete ∨ r.SearchType = .SERVICE ∧
        strcaseEq r.ServiceType (textOf servType) = true) := by
  rw [serviceAnnouncements] at h
  cases htype : firstText "serviceType".toList s with
  | none =>
    rw [htype] at h
    cases h
  | some servType =>
    rw [htype] at h
    dsimp only at h
    rw [namesOfService] at h
    split at h
    · rename_i hasked
      exact ⟨servType, rfl, List.mem_singleton.mp h, hasked⟩
    · cases h

/-- The type of a device is named with its UDN in a complete announcement, and when a search for
types finds it. -/
theorem mem_namesOfDevice {i : Nat} {devType UDN : Found} {a : Announcement}
    (h : a ∈ namesOfDevice r i devType UDN) :
    a = .rootdevice UDN ∨ a = .udn UDN ∨ a = .device UDN devType ∧
      (r.Complete ∨ r.SearchType = .DEVICE ∧ r.DeviceUDN = [] ∧
        strcaseEq r.DeviceType (textOf devType) = true) := by
  by_cases hcomplete : r.Complete
  · rw [namesOfDevice, if_pos hcomplete, deviceNames, List.mem_append, List.mem_cons,
      List.mem_singleton] at h
    rcases h with h | rfl | rfl
    · split at h
      · exact .inl (List.mem_singleton.mp h)
      · cases h
    · exact .inr (.inl rfl)
    · exact .inr (.inr ⟨rfl, .inl hcomplete⟩)
  · rw [namesOfDevice, if_neg hcomplete] at h
    split at h
    · split at h
      · exact .inl (List.mem_singleton.mp h)
      · cases h
    · rename_i hsearch
      by_cases hany : r.DeviceUDN = []
      · rw [if_neg (not_not_intro hany)] at h
        split at h
        · rename_i heq
          exact .inr (.inr ⟨List.mem_singleton.mp h, .inr ⟨hsearch, hany, heq⟩⟩)
        · cases h
      · rw [if_pos hany] at h
        split at h
        · exact .inr (.inl (List.mem_singleton.mp h))
        · cases h
    · cases h

theorem serviceAnnouncements_complete (hcomplete : r.Complete) {UDN s servType : Found}
    (h : firstText "serviceType".toList s = some servType) :
    serviceAnnouncements r UDN s = [.service UDN s servType] := by
  rw [serviceAnnouncements, h]
  exact if_pos (.inl hcomplete)

/-- What is announced of the services of an item counts for nothing else. -/
theorem countP_services {UDN : Found} {services : List Found} {p : Announcement → Bool}
    (hp : ∀ UDN s servType, p (.service UDN s servType) = false) :
    (services.flatMap (serviceAnnouncements r UDN)).countP p = 0 := by
  apply List.countP_eq_zero.mpr
  intro a ha
  obtain ⟨s, -, ha⟩ := List.mem_flatMap.mp ha
  obtain ⟨servType, -, rfl, -⟩ := mem_serviceAnnouncements ha
  rw [hp]
  exact Bool.false_ne_true

theorem deviceAnnouncements_complete (hcomplete : r.Complete) {item : Found × Nat}
    {devType UDN : Found} (h : headOf item.1 = some (devType, UDN)) :
    deviceAnnouncements r doc item = deviceNames devType (item.2 = 0) UDN ++
      (servicesAt doc item.2).flatMap (serviceAnnouncements r UDN) := by
  rw [deviceAnnouncements, h]
  dsimp only
  rw [namesOfDevice, if_pos hcomplete]

theorem mem_announcements {a : Announcement} (h : a ∈ announcements r doc) :
    ∃ d i devType UDN, (DeviceList doc)[i]? = some d ∧ headOf d = some (devType, UDN) ∧
      (a ∈ namesOfDevice r i devType UDN ∨
        ∃ s ∈ servicesAt doc i, a ∈ serviceAnnouncements r UDN s) := by
  obtain ⟨item, hitem, ha⟩ := List.mem_flatMap.mp h
  rw [deviceAnnouncements] at ha
  cases hhead : headOf item.1 with
  | none =>
    rw [hhead] at ha
    cases ha
  | some q =>
    rw [hhead] at ha
    refine ⟨item.1, item.2, q.1, q.2, List.mem_zipIdx_iff_getElem?.mp hitem, hhead, ?_⟩
    exact (List.mem_append.mp ha).imp_right List.mem_flatMap.mp

theorem mem_announcements_of_device {item : Found × Nat} {devType UDN : Found} {a : Announcement}
    (hitem : item ∈ (DeviceList doc).zipIdx) (hhead : headOf item.1 = some (devType, UDN))
    (ha : a ∈ namesOfDevice r item.2 devType UDN) : a ∈ announcements r doc := by
  apply List.mem_flatMap.mpr
  refine ⟨item, hitem, ?_⟩
  rw [deviceAnnouncements, hhead]
  exact List.mem_append_left _ ha

theorem mem_announcements_of_service {item : Found × Nat} {devType UDN s servType : Found}
    (hitem : item ∈ (DeviceList doc).zipIdx) (hhead : headOf item.1 = some (devType, UDN))
    (hs : s ∈ servicesAt doc item.2) (htype : firstText "serviceType".toList s = some servType)
    (hasked : r.Complete ∨ r.SearchType = .SERVICE ∧
      strcaseEq r.ServiceType (textOf servType) = true) :
    .service UDN s servType ∈ announcements r doc := by
  apply List.mem_flatMap.mpr
  refine ⟨item, hitem, ?_⟩
  rw [deviceAnnouncements, hhead]
  refine List.mem_append_right _ (List.mem_flatMap.mpr ⟨s, hs, ?_⟩)
  rw [serviceAnnouncements, htype]
  dsimp only
  rw [namesOfService, if_pos hasked]
  exact List.mem_singleton_self _

/-! ## From the announcements to the description -/

section Announced

variable (h : Matches r doc (announcements r doc))
include h

/-- The devices have their own elements, by induction on their positions: the first position from
which the UDN of a device is taken is the one of the device. -/
theorem own_of_matches (hcomplete : r.Complete) (k : Nat) :
    ∀ d, (DeviceList doc)[k]? = some d → ∃ devType UDN,
      headOf d = some (devType, UDN) ∧ BelongsTo doc devType d ∧ BelongsTo doc UDN d := by
  induction k using Nat.strong_induction_on with
  | _ k ih =>
    intro d hk
    have hcount := (h.devices hcomplete d (List.mem_of_getElem? hk)).2
    obtain ⟨a, ha, hof⟩ := List.countP_pos_iff.mp (hcount ▸ Nat.one_pos)
    obtain ⟨d', i, devType, UDN, hi, hhead, hmem⟩ := mem_announcements ha
    obtain ⟨rfl, hUDN⟩ : a = .device UDN devType ∧ BelongsTo doc UDN d := by
      rcases hmem with hmem | ⟨s, -, hmem⟩
      · rcases mem_namesOfDevice hmem with rfl | rfl | ⟨rfl, -⟩
        · exact absurd hof Bool.false_ne_true
        · exact absurd hof Bool.false_ne_true
        · exact ⟨rfl, of_decide_eq_true hof⟩
      · obtain ⟨servType, -, rfl, -⟩ := mem_serviceAnnouncements hmem
        exact absurd hof Bool.false_ne_true
    have hle := hUDN.index_le hi hk hhead
    have hsame : d' = d := by
      rcases Nat.lt_or_eq_of_le hle with hlt | rfl
      · obtain ⟨_, _, hhead', -, hUDN'⟩ := ih i hlt d' hi
        rw [hhead] at hhead'
        cases hhead'
        exact hUDN'.unique hUDN
      · exact Option.some_inj.mp (hi.symm.trans hk)
    subst hsame
    have hdevType := (h.pairs _ ha (UDN, devType) rfl).belongsTo hUDN
    exact ⟨devType, UDN, hhead, hdevType, hUDN⟩

theorem described_of_matches
    (hfits : ∀ item ∈ (DeviceList doc).zipIdx, DeviceFits r doc item) : Described r doc where
  fits := hfits
  own hcomplete d hd := by
    obtain ⟨k, hk⟩ := List.mem_iff_getElem?.mp hd
    exact own_of_matches h hcomplete k d hk
  typed hcomplete item hitem s hs servType htype := by
    obtain ⟨devType, UDN, hhead, -, hUDN⟩ :=
      own_of_matches h hcomplete item.2 item.1 (List.mem_zipIdx_iff_getElem?.mp hitem)
    have hmem := mem_announcements_of_service hitem hhead hs htype (.inl hcomplete)
    exact (h.pairs _ hmem (UDN, servType) rfl).belongsTo hUDN
  listed hcomplete item hitem s hs := by
    have hk := List.mem_zipIdx_iff_getElem?.mp hitem
    have hd := List.mem_of_getElem? hk
    have hcount := h.services hcomplete item.1 hd s hs
    obtain ⟨a, ha, hof⟩ := List.countP_pos_iff.mp (hcount ▸ Nat.one_pos)
    obtain ⟨d', i, devType, UDN, hi, hhead, hmem⟩ := mem_announcements ha
    rcases hmem with hmem | ⟨s', hs', hmem⟩
    · rcases mem_namesOfDevice hmem with rfl | rfl | ⟨rfl, -⟩
      all_goals exact absurd hof Bool.false_ne_true
    · obtain ⟨servType, htype, rfl, -⟩ := mem_serviceAnnouncements hmem
      obtain ⟨hUDN, hpath⟩ := (Bool.and_eq_true_iff.mp hof).imp of_decide_eq_true of_decide_eq_true
      -- the item from which the service is announced is the device itself
      obtain ⟨_, _, hhead', -, hUDN'⟩ := own_of_matches h hcomplete i d' hi
      rw [hhead] at hhead'
      cases hhead'
      obtain rfl := hUDN'.unique hUDN
      have hle := index_le_of_behind hi hk (List.prefix_refl _)
      have hge := index_le_of_behind hk hi (List.prefix_refl _)
      obtain rfl := Nat.le_antisymm hle hge
      obtain rfl := Found.eq_of_path (mem_below_of_mem_servicesAt hs')
        (mem_below_of_mem_ownServices hd hs) hpath
      exact ⟨hs', Option.isSome_iff_exists.mpr ⟨servType, htype⟩⟩
  searched hcomplete item hitem devType UDN hhead := by
    constructor
    · intro hsearch hany heq
      refine h.pairs (.device UDN devType) (mem_announcements_of_device hitem hhead ?_)
        (UDN, devType) rfl
      rw [namesOfDevice, if_neg hcomplete, hsearch]
      dsimp only
      rw [if_neg (not_not_intro hany), if_pos heq]
      exact List.mem_singleton_self _
    · intro hsearch s hs servType htype heq
      exact h.pairs (.service UDN s servType)
        (mem_announcements_of_service hitem hhead hs htype (.inr ⟨hsearch, heq⟩))
        (UDN, servType) rfl

end Announced

/-! ## From the description to the announcements -/

section Describes

variable (h : Described r doc)
include h

theorem Described.own_of_headOf (hcomplete : r.Complete) {i : Nat} {devType UDN : Found}
    (hi : (DeviceList doc)[i]? = some d) (hhead : headOf d = some (devType, UDN)) :
    BelongsTo doc devType d ∧ BelongsTo doc UDN d := by
  obtain ⟨_, _, hhead', hbelong⟩ := h.own hcomplete d (List.mem_of_getElem? hi)
  rw [hhead] at hhead'
  cases hhead'
  exact hbelong

theorem pairs_of_described {a : Announcement} (ha : a ∈ announcements r doc) {q : Found × Found}
    (hq : a.pair = some q) : OneDevice doc q.1 q.2 := by
  obtain ⟨d, i, devType, UDN, hi, hhead, hmem⟩ := mem_announcements ha
  have hitem : (d, i) ∈ (DeviceList doc).zipIdx := List.mem_zipIdx_iff_getElem?.mpr hi
  rcases hmem with hmem | ⟨s, hs, hmem⟩
  · rcases mem_namesOfDevice hmem with rfl | rfl | ⟨rfl, hasked⟩
    · cases hq
    · cases hq
    · cases hq
      by_cases hcomplete : r.Complete
      · obtain ⟨hdevType, hUDN⟩ := h.own_of_headOf hcomplete hi hhead
        exact ⟨d, hUDN, hdevType⟩
      · obtain ⟨hsearch, hany, heq⟩ := hasked.resolve_left hcomplete
        exact (h.searched hcomplete (d, i) hitem devType UDN hhead).1 hsearch hany heq
  · obtain ⟨servType, htype, rfl, hasked⟩ := mem_serviceAnnouncements hmem
    cases hq
    by_cases hcomplete : r.Complete
    · obtain ⟨-, hUDN⟩ := h.own_of_headOf hcomplete hi hhead
      exact ⟨d, hUDN, h.typed hcomplete (d, i) hitem s hs servType htype⟩
    · obtain ⟨hsearch, heq⟩ := hasked.resolve_left hcomplete
      exact (h.searched hcomplete (d, i) hitem devType UDN hhead).2 hsearch s hs servType htype heq

/-- What is announced of one item only is announced once. -/
theorem countP_announcements (hcomplete : r.Complete) (hd : d ∈ DeviceList doc)
    {p : Announcement → Bool}
    (hp : ∀ item ∈ (DeviceList doc).zipIdx, ∀ devType UDN, headOf item.1 = some (devType, UDN) →
      (BelongsTo doc UDN d ↔ item.1 = d) →
        (deviceNames devType (item.2 = 0) UDN).countP p +
          ((servicesAt doc item.2).flatMap (serviceAnnouncements r UDN)).countP p =
            if item.1 = d then 1 else 0) :
    (announcements r doc).countP p = 1 := by
  rw [← countP_zipIdx_path hd]
  refine countP_flatMap_eq fun item hitem ↦ ?_
  have hmem := List.mem_of_getElem? (List.mem_zipIdx_iff_getElem?.mp hitem)
  obtain ⟨devType, UDN, hhead, -, hUDN⟩ := h.own hcomplete item.1 hmem
  have hiff : BelongsTo doc UDN d ↔ item.1 = d := ⟨hUDN.unique, fun heq ↦ heq ▸ hUDN⟩
  rw [deviceAnnouncements_complete hcomplete hhead, List.countP_append,
    hp item hitem devType UDN hhead hiff]
  refine if_congr ⟨fun heq ↦ ?_, fun heq ↦ ?_⟩ rfl rfl
  · rw [heq]
    exact decide_eq_true rfl
  · exact Found.eq_of_path (mem_below_of_mem_DeviceList hmem) (mem_below_of_mem_DeviceList hd)
      (of_decide_eq_true heq)

theorem devices_of_described (hcomplete : r.Complete) (hd : d ∈ DeviceList doc) :
    (announcements r doc).countP (Announcement.isUdnOf doc d) = 1 ∧
      (announcements r doc).countP (Announcement.isDeviceOf doc d) = 1 := by
  constructor
  · refine countP_announcements h hcomplete hd fun item _ devType UDN _ hiff ↦ ?_
    rw [countP_services fun _ _ _ ↦ rfl, deviceNames]
    by_cases hroot : item.2 = 0 <;> by_cases heq : item.1 = d <;>
      simp [Announcement.isUdnOf, hroot, heq, hiff]
  · refine countP_announcements h hcomplete hd fun item _ devType UDN _ hiff ↦ ?_
    rw [countP_services fun _ _ _ ↦ rfl, deviceNames]
    by_cases hroot : item.2 = 0 <;> by_cases heq : item.1 = d <;>
      simp [Announcement.isDeviceOf, hroot, heq, hiff]

theorem root_of_described (hcomplete : r.Complete) (hd : (DeviceList doc).head? = some d) :
    (announcements r doc).countP Announcement.isRootdevice = 1 ∧
      (announcements r doc).countP (Announcement.isRootdeviceOf doc d) = 1 := by
  rw [List.head?_eq_getElem?] at hd
  have hmem := List.mem_of_getElem? hd
  -- the first item is the one of the first device
  have hfirst : ∀ item ∈ (DeviceList doc).zipIdx, (item.2 = 0 ↔ item.1 = d) := by
    intro item hitem
    have hk := List.mem_zipIdx_iff_getElem?.mp hitem
    constructor
    · intro hzero
      rw [hzero] at hk
      exact Option.some_inj.mp (hk.symm.trans hd)
    · intro heq
      rw [heq] at hk
      exact Nat.le_zero.mp (index_le_of_behind hk hd (List.prefix_refl _))
  constructor
  · refine countP_announcements h hcomplete hmem fun item hitem devType UDN _ _ ↦ ?_
    rw [countP_services fun _ _ _ ↦ rfl, deviceNames]
    by_cases heq : item.1 = d <;>
      simp [Announcement.isRootdevice, List.countP_cons, heq, hfirst item hitem]
  · refine countP_announcements h hcomplete hmem fun item hitem devType UDN _ hiff ↦ ?_
    rw [countP_services fun _ _ _ ↦ rfl, deviceNames]
    by_cases heq : item.1 = d <;>
      simp [Announcement.isRootdeviceOf, heq, hiff, hfirst item hitem]

theorem services_of_described (hcomplete : r.Complete) (hd : d ∈ DeviceList doc) {s : Found}
    (hs : s ∈ ownServices d) :
    (announcements r doc).countP (Announcement.isServiceOf doc d s) = 1 := by
  refine countP_announcements h hcomplete hd fun item hitem devType UDN _ hiff ↦ ?_
  have hnames : (deviceNames devType (item.2 = 0) UDN).countP
      (Announcement.isServiceOf doc d s) = 0 := by
    rw [deviceNames]
    by_cases hroot : item.2 = 0 <;> simp [Announcement.isServiceOf, hroot]
  rw [hnames, Nat.zero_add]
  by_cases heq : item.1 = d
  · rw [if_pos heq]
    obtain ⟨hlisted, htype⟩ := h.listed hcomplete item hitem s (heq ▸ hs)
    obtain ⟨servType, htype⟩ := Option.isSome_iff_exists.mp htype
    rw [← countP_path_eq_one (nodup_servicesAt doc item.2) hlisted]
    refine countP_flatMap_eq fun s' hs' ↦ ?_
    by_cases hpath : s'.path = s.path
    · obtain rfl := Found.eq_of_path (mem_below_of_mem_servicesAt hs')
        (mem_below_of_mem_servicesAt hlisted) hpath
      rw [serviceAnnouncements_complete hcomplete htype, List.countP_singleton,
        Announcement.isServiceOf, decide_eq_true (hiff.mpr heq)]
      rfl
    · rw [if_neg fun h ↦ hpath (of_decide_eq_true h)]
      apply List.countP_eq_zero.mpr
      intro a ha hof
      obtain ⟨_, -, rfl, -⟩ := mem_serviceAnnouncements ha
      exact hpath (of_decide_eq_true (Bool.and_eq_true_iff.mp hof).2)
  · rw [if_neg heq]
    apply List.countP_eq_zero.mpr
    intro a ha hof
    obtain ⟨s', -, ha⟩ := List.mem_flatMap.mp ha
    obtain ⟨_, -, rfl, -⟩ := mem_serviceAnnouncements ha
    exact heq (hiff.mp (of_decide_eq_true (Bool.and_eq_true_iff.mp hof).1))

theorem matches_of_described : Matches r doc (announcements r doc) where
  pairs _ ha _ hq := pairs_of_described h ha hq
  devices hcomplete _ hd := devices_of_described h hcomplete hd
  services hcomplete _ hd _ hs := services_of_described h hcomplete hd hs
  root hcomplete _ hd := root_of_described h hcomplete hd

end Describes

/-- Announcements match the description if and only if the description lists the elements so. -/
theorem AdvertiseAndReply_matches_iff (r : Request) (doc : Found) :
    (∃ sent, AdvertiseAndReply r doc = some sent ∧ Matches r doc (sent.map (·.names))) ↔
      Described r doc := by
  have hnames : ((announcements r doc).map (Packet.mk r.Notf)).map (·.names) =
      announcements r doc := by
    rw [List.map_map]
    exact List.map_id _
  constructor
  · rintro ⟨sent, hrun, hmatches⟩
    obtain ⟨hfits, rfl⟩ := AdvertiseAndReply_eq_some_iff.mp hrun
    rw [hnames] at hmatches
    exact described_of_matches hmatches hfits
  · intro h
    refine ⟨_, AdvertiseAndReply_eq_some_iff.mpr ⟨h.fits, rfl⟩, ?_⟩
    rw [hnames]
    exact matches_of_described h

/-- An element with a text. -/
def element (name value : String) (nextSibling : Forest) : Forest :=
  .node (.element name.toList) (.node (.text value.toList) .null .null) nextSibling

/-- A box without services, and a lamp in it that has one. -/
def boxWithLamp : Found :=
  ⟨[], .element "#document".toList,
    .node (.element "root".toList)
      (.node (.element "device".toList)
        (element "deviceType" "urn:d:Box:1" <| element "UDN" "uuid:box" <|
          .node (.element "deviceList".toList)
            (.node (.element "device".toList)
              (element "deviceType" "urn:d:Lamp:1" <| element "UDN" "uuid:lamp" <|
                .node (.element "serviceList".toList)
                  (.node (.element "service".toList)
                    (element "serviceType" "urn:s:Switch:1" .null) .null) .null) .null) .null)
        .null) .null⟩

/-- The service of the lamp is announced as one of the box. -/
theorem AdvertiseAndReply_box :
    ¬ ∃ sent, AdvertiseAndReply ⟨1, .SERROR, [], [], []⟩ boxWithLamp = some sent ∧
      Matches ⟨1, .SERROR, [], [], []⟩ boxWithLamp (sent.map (·.names)) := by
  rintro ⟨sent, hrun, hmatches⟩
  have hone : ∀ d ∈ DeviceList boxWithLamp, ∀ s ∈ ownServices d,
      ((announcements ⟨1, .SERROR, [], [], []⟩ boxWithLamp).countP
        (Announcement.isServiceOf boxWithLamp d s)) = 1 := by
    obtain ⟨-, rfl⟩ := AdvertiseAndReply_eq_some_iff.mp hrun
    rw [List.map_map] at hmatches
    have hservices := hmatches.services (.inl (by decide))
    rwa [show ((·.names) ∘ Packet.mk _) = (id : Announcement → Announcement) from rfl,
      List.map_id] at hservices
  revert hone
  decide +kernel

end Upnp.Advertise
