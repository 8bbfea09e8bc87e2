import Upnp.Dom.Tree

/-!
# Reading the service table from a description

`getServiceTable` of `service_table.c` and what it calls, where `malloc` and the DOM
interface do not run out of memory.  A list of services is a Lean list, and a
pointer into it is a position; `resolve_rel_url` is a parameter.
-/

namespace Upnp.ServiceTable

open Upnp.Lib Upnp.Dom

/-- `service_info`, without the link and the subscriptions. -/
structure ServiceInfo where
  serviceType : Option CString
  serviceId : Option CString
  SCPDURL : Option CString
  controlURL : Option CString
  eventURL : Option CString
  UDN : Option CString
  active : Bool
deriving DecidableEq, Repr

variable (resolve_rel_url : Option CString → CString → Option CString)

/-- The value of a child of a service. -/
def valueOf (element_name : CString) (service : Found) : Option CString :=
  (service.getSubElement element_name).bind Found.getElementValue

/-- The URL in a child of a service. -/
def urlOf (URLBase : Option CString) (element_name : CString) (service : Found) : Option CString :=
  (valueOf element_name service).bind (resolve_rel_url URLBase)

/-- The service that the loop of `getServiceList` fills in, and its `fail`: a missing URL for
control or events clears it. -/
def fillService (URLBase : Option CString) (UDN current_service : Found) : ServiceInfo × Bool :=
  let current : ServiceInfo :=
    { serviceType := valueOf "serviceType".toList current_service
      serviceId := valueOf "serviceId".toList current_service
      SCPDURL := urlOf resolve_rel_url URLBase "SCPDURL".toList current_service
      controlURL := urlOf resolve_rel_url URLBase "controlURL".toList current_service
      eventURL := urlOf resolve_rel_url URLBase "eventSubURL".toList current_service
      UDN := UDN.getElementValue
      active := true }
  let fail := current.UDN = none || current.serviceType = none || current.serviceId = none ||
    current.SCPDURL = none
  let fail := if current.controlURL = none then false else fail
  let fail := if current.eventURL = none then false else fail
  (current, fail)

/-- The pointers of the loop of `getServiceList`: the list that begins at `head`, and `current` and
`previous` in it. -/
structure Building where
  list : List ServiceInfo
  current : Option Nat
  previous : Option Nat

/-- The loop of `getServiceList` at one service. -/
def addService (URLBase : Option CString) (UDN : Found) (b : Building) (current_service : Found) :
    Building :=
  let (service, fail) := fillService resolve_rel_url URLBase UDN current_service
  let b : Building :=
    match b.current with
    | some c => ⟨b.list.take (c + 1) ++ [service], some (c + 1), some c⟩
    | none => ⟨[service], some 0, b.previous⟩
  if fail then
    match b.previous with
    | some p => ⟨b.list.take (p + 1), some p, some p⟩
    | none => ⟨[], none, none⟩
  else b

/-- `getServiceList`: the list, and what it stores in `*end`, if it does. -/
def getServiceList (URLBase : Option CString) (node : Found) :
    List ServiceInfo × Option (Option Nat) :=
  match node.getSubElement "UDN".toList, node.getSubElement "serviceList".toList with
  | some UDN, some serviceList =>
    let b := (serviceList.getElementsByTagName "service".toList).foldl
      (addService resolve_rel_url URLBase UDN) ⟨[], none, none⟩
    (b.list, some b.current)
  | _, _ => ([], none)

/-- The loop of `getAllServiceList` over the devices that are left; `none` is an access through
`end` when it is `NULL`. -/
def allLoop (URLBase : Option CString) :
    List Found → List ServiceInfo → Option Nat → Option Nat → Option (List ServiceInfo)
  | [], head, _, _ => some head
  | currentDevice :: devices, head, end_, next_end =>
    let (list, stored) := getServiceList resolve_rel_url URLBase currentDevice
    if head ≠ [] then
      match end_ with
      | none => none
      | some e =>
        let next_end := match stored with
          | some last => last.map (e + 1 + ·)
          | none => next_end
        allLoop URLBase devices (head.take (e + 1) ++ list) next_end next_end
    else allLoop URLBase devices list (stored.getD end_) next_end

/-- `getAllServiceList`. -/
def getAllServiceList (node : Found) (URLBase : Option CString) : Option (List ServiceInfo) :=
  allLoop resolve_rel_url URLBase (node.getElementsByTagName "device".toList) [] none none

/-- The `URLBase` of the table. -/
def urlBase (root : Found) (DefaultURLBase : Option CString) : Option CString :=
  match root.getSubElement "URLBase".toList with
  | some URLBase => URLBase.getElementValue
  | none => some (DefaultURLBase.getD [])

/-- `getServiceTable`: the `serviceList` of the table, when there is a root element. -/
def getServiceTable (node : Found) (DefaultURLBase : Option CString) :
    Option (Option (List ServiceInfo)) :=
  match node.getSubElement "root".toList with
  | none => some none
  | some root => (getAllServiceList resolve_rel_url root (urlBase root DefaultURLBase)).map some

/-! ## The services of one device -/

/-- The entry that a service makes, if it is kept. -/
def entry (URLBase : Option CString) (UDN current_service : Found) : Option ServiceInfo :=
  let (service, fail) := fillService resolve_rel_url URLBase UDN current_service
  if fail then none else some service

/-- The end of a list that begins at `head`. -/
def endOf {α : Type*} (list : List α) : Option Nat :=
  if list = [] then none else some (list.length - 1)

/-- The list is as said, `current` is its end, and there is nothing before the first service. -/
structure Building.Right (b : Building) (entries : List ServiceInfo) : Prop where
  list : b.list = entries
  current : b.current = endOf entries
  previous : entries = [] → b.previous = none

theorem endOf_concat {α : Type*} (list : List α) (a : α) :
    endOf (list ++ [a]) = some list.length := by
  rw [endOf, if_neg (List.concat_ne_nil a list), List.length_append]
  rfl

theorem endOf_of_ne_nil {α : Type*} {list : List α} (h : list ≠ []) :
    ∃ e, endOf list = some e ∧ e + 1 = list.length := by
  refine ⟨list.length - 1, if_neg h, ?_⟩
  exact Nat.sub_add_cancel (List.length_pos_iff.mpr h)

variable {resolve_rel_url} {URLBase : Option CString} {UDN : Found}

/-- A service is added to the end of the list, or the list is as before. -/
theorem addService_right {b : Building} {entries : List ServiceInfo} (h : b.Right entries)
    (service : Found) :
    (addService resolve_rel_url URLBase UDN b service).Right
      (entries ++ (entry resolve_rel_url URLBase UDN service).toList) := by
  obtain ⟨list, current, previous⟩ := b
  obtain ⟨rfl, hcurrent, hprevious⟩ := h
  dsimp only at hcurrent hprevious
  rw [addService, entry]
  generalize fillService resolve_rel_url URLBase UDN service = filled
  obtain ⟨filled, fail⟩ := filled
  dsimp only
  by_cases hnil : list = []
  · subst hnil
    rw [hcurrent, hprevious rfl]
    cases fail with
    | true => exact ⟨rfl, rfl, fun _ ↦ rfl⟩
    | false => exact ⟨rfl, rfl, fun h ↦ absurd h (List.cons_ne_nil _ _)⟩
  · obtain ⟨e, hend, hlen⟩ := endOf_of_ne_nil hnil
    rw [hcurrent, hend]
    dsimp only
    rw [hlen, List.take_length]
    cases fail with
    | true =>
      rw [if_pos rfl, if_pos rfl, Option.toList_none, List.append_nil]
      rw [List.take_left]
      exact ⟨rfl, hend.symm, fun h ↦ absurd h hnil⟩
    | false =>
      refine ⟨rfl, ?_, fun h ↦ absurd h (List.concat_ne_nil _ _)⟩
      exact (endOf_concat list filled).symm

theorem foldl_addService_right {b : Building} {entries : List ServiceInfo} (h : b.Right entries)
    (services : List Found) :
    (services.foldl (addService resolve_rel_url URLBase UDN) b).Right
      (entries ++ services.filterMap (entry resolve_rel_url URLBase UDN)) := by
  induction services generalizing b entries with
  | nil =>
    rw [List.filterMap_nil, List.append_nil]
    exact h
  | cons service services ih =>
    have hnext := ih (@addService_right resolve_rel_url URLBase UDN b entries h service)
    rw [List.append_assoc] at hnext
    rw [List.filterMap_cons]
    cases hentry : entry resolve_rel_url URLBase UDN service with
    | none =>
      rw [hentry] at hnext
      exact hnext
    | some e =>
      rw [hentry] at hnext
      exact hnext

/-- The UDN of a device and the services in its own list, when it has both elements. -/
def offer (device : Found) : Option (Found × List Found) :=
  (device.getSubElement "UDN".toList).bind fun UDN ↦
    (device.getSubElement "serviceList".toList).map fun serviceList ↦
      (UDN, serviceList.getElementsByTagName "service".toList)

/-- The entries of a device. -/
def entries (resolve_rel_url : Option CString → CString → Option CString)
    (URLBase : Option CString) (device : Found) : List ServiceInfo :=
  match offer device with
  | none => []
  | some (UDN, services) => services.filterMap (entry resolve_rel_url URLBase UDN)

/-- `getServiceList` makes the entries of the device, and stores their end if the device has the
elements. -/
theorem getServiceList_eq (device : Found) :
    getServiceList resolve_rel_url URLBase device =
      (entries resolve_rel_url URLBase device,
        (offer device).map fun _ ↦ endOf (entries resolve_rel_url URLBase device)) := by
  rw [getServiceList, entries, offer]
  cases device.getSubElement "UDN".toList with
  | none => rfl
  | some UDN =>
    cases device.getSubElement "serviceList".toList with
    | none => rfl
    | some serviceList =>
      have hright := @foldl_addService_right resolve_rel_url URLBase UDN ⟨[], none, none⟩ []
        ⟨rfl, rfl, fun _ ↦ rfl⟩ (serviceList.getElementsByTagName "service".toList)
      rw [List.nil_append] at hright
      exact Prod.ext hright.list (congrArg some hright.current)

end Upnp.ServiceTable
