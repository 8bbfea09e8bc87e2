import Upnp.ServiceTable.Extraction

/-!
# Which services are complete

`getServiceList` marks a service that misses a string to be left out, but the mark is taken back
when the URL for control or that for events is missing too.  `FindServiceId` then meets the
missing string.
-/

namespace Upnp.ServiceTable

open Upnp.Lib Upnp.Dom

/-- `FindServiceId` on the list of a table; `none` is an access through a null string. -/
def findServiceId (serviceId UDN : CString) : List ServiceInfo → Option (Option ServiceInfo)
  | [] => some none
  | finger :: next =>
    match finger.serviceId with
    | none => none
    | some id =>
      if serviceId = id then
        match finger.UDN with
        | none => none
        | some udn => if UDN = udn then some (some finger) else findServiceId serviceId UDN next
      else findServiceId serviceId UDN next

/-- The strings that a service cannot do without are there. -/
structure ServiceInfo.Complete (service : ServiceInfo) : Prop where
  UDN : service.UDN ≠ none
  serviceType : service.serviceType ≠ none
  serviceId : service.serviceId ≠ none
  SCPDURL : service.SCPDURL ≠ none

theorem findServiceId_isSome {table : List ServiceInfo} (h : ∀ service ∈ table, service.Complete)
    (serviceId UDN : CString) : (findServiceId serviceId UDN table).isSome := by
  induction table with
  | nil => rfl
  | cons finger next ih =>
    have hfinger := h finger List.mem_cons_self
    have hnext := ih fun service hmem ↦ h service (List.mem_cons_of_mem _ hmem)
    obtain ⟨id, hid⟩ := Option.ne_none_iff_exists'.mp hfinger.serviceId
    obtain ⟨udn, hudn⟩ := Option.ne_none_iff_exists'.mp hfinger.UDN
    rw [findServiceId, hid]
    dsimp only
    split
    · rw [hudn]
      dsimp only
      split
      · rfl
      · exact hnext
    · exact hnext

section Entries

variable (resolve_rel_url : Option CString → CString → Option CString) (URLBase : Option CString)

/-- The description of the service gives all four strings. -/
structure Described (UDN service : Found) : Prop where
  UDN : UDN.getElementValue ≠ none
  serviceType : valueOf "serviceType".toList service ≠ none
  serviceId : valueOf "serviceId".toList service ≠ none
  SCPDURL : urlOf resolve_rel_url URLBase "SCPDURL".toList service ≠ none

/-- Both URLs that may be missing are there. -/
structure HasURLs (service : Found) : Prop where
  controlURL : urlOf resolve_rel_url URLBase "controlURL".toList service ≠ none
  eventURL : urlOf resolve_rel_url URLBase "eventSubURL".toList service ≠ none

variable {resolve_rel_url URLBase} {UDN service : Found}

/-- The entry holds what the description gives. -/
theorem complete_fillService_iff :
    (fillService resolve_rel_url URLBase UDN service).1.Complete ↔
      Described resolve_rel_url URLBase UDN service := by
  constructor
  · rintro ⟨hudn, htype, hid, hscpd⟩
    exact ⟨hudn, htype, hid, hscpd⟩
  · rintro ⟨hudn, htype, hid, hscpd⟩
    exact ⟨hudn, htype, hid, hscpd⟩

/-- The mark that is left at the end. -/
theorem fail_fillService_iff :
    (fillService resolve_rel_url URLBase UDN service).2 = true ↔
      ¬ Described resolve_rel_url URLBase UDN service ∧
        HasURLs resolve_rel_url URLBase service := by
  have hdescribed : ¬ Described resolve_rel_url URLBase UDN service ↔
      UDN.getElementValue = none ∨ valueOf "serviceType".toList service = none ∨
        valueOf "serviceId".toList service = none ∨
          urlOf resolve_rel_url URLBase "SCPDURL".toList service = none := by
    constructor
    · intro h
      by_contra hnot
      rw [not_or, not_or, not_or] at hnot
      exact h ⟨hnot.1, hnot.2.1, hnot.2.2.1, hnot.2.2.2⟩
    · rintro (h | h | h | h) hall
      · exact hall.UDN h
      · exact hall.serviceType h
      · exact hall.serviceId h
      · exact hall.SCPDURL h
  rw [hdescribed, fillService]
  dsimp only
  by_cases hcontrol : urlOf resolve_rel_url URLBase "controlURL".toList service = none
  · rw [if_pos hcontrol, ite_self]
    refine iff_of_false Bool.false_ne_true ?_
    rintro ⟨-, hurls⟩
    exact hurls.controlURL hcontrol
  · by_cases hevent : urlOf resolve_rel_url URLBase "eventSubURL".toList service = none
    · rw [if_pos hevent]
      refine iff_of_false Bool.false_ne_true ?_
      rintro ⟨-, hurls⟩
      exact hurls.eventURL hevent
    · rw [if_neg hcontrol, if_neg hevent]
      simp only [Bool.or_eq_true, decide_eq_true_eq, or_assoc]
      exact ⟨fun h ↦ ⟨h, hcontrol, hevent⟩, fun h ↦ h.1⟩

/-- A service that is kept is complete if and only if it is described, or left out. -/
theorem entry_complete_iff :
    (∀ e, entry resolve_rel_url URLBase UDN service = some e → e.Complete) ↔
      (HasURLs resolve_rel_url URLBase service ∨ Described resolve_rel_url URLBase UDN service) := by
  have hfail := @fail_fillService_iff resolve_rel_url URLBase UDN service
  have hcomplete := @complete_fillService_iff resolve_rel_url URLBase UDN service
  rw [entry]
  generalize fillService resolve_rel_url URLBase UDN service = filled at hfail hcomplete ⊢
  obtain ⟨filled, fail⟩ := filled
  dsimp only at hfail hcomplete ⊢
  cases fail with
  | true =>
    obtain ⟨-, hurls⟩ := hfail.mp rfl
    refine iff_of_true ?_ (.inl hurls)
    rintro e he
    cases he
  | false =>
    have hnot : ¬ (¬ Described resolve_rel_url URLBase UDN service ∧
        HasURLs resolve_rel_url URLBase service) := fun h ↦ Bool.false_ne_true (hfail.mpr h)
    constructor
    · intro h
      exact .inr (hcomplete.mp (h filled rfl))
    · rintro h e he
      cases he
      refine hcomplete.mpr ?_
      rcases h with hurls | hdescribed
      · by_contra hd
        exact hnot ⟨hd, hurls⟩
      · exact hdescribed

end Entries

variable (resolve_rel_url : Option CString → CString → Option CString) (URLBase : Option CString)

/-- Every service in the list of the device is complete, and no look-up in it accesses a null
string. -/
def ListComplete (device : Found) : Prop :=
  (∀ service ∈ (getServiceList resolve_rel_url URLBase device).1, service.Complete) ∧
    ∀ serviceId UDN,
      (findServiceId serviceId UDN (getServiceList resolve_rel_url URLBase device).1).isSome

/-- The list is complete if and only if each service that lacks one of the two URLs has the four
strings. -/
theorem listComplete_iff (device : Found) :
    ListComplete resolve_rel_url URLBase device ↔
      ∀ UDN services, offer device = some (UDN, services) → ∀ service ∈ services,
        HasURLs resolve_rel_url URLBase service ∨
          Described resolve_rel_url URLBase UDN service := by
  have hlist : (getServiceList resolve_rel_url URLBase device).1 =
      entries resolve_rel_url URLBase device := congrArg Prod.fst (getServiceList_eq device)
  rw [ListComplete, hlist]
  constructor
  · rintro ⟨hall, -⟩ UDN services hoffer service hmem
    rw [entries, hoffer] at hall
    rw [← entry_complete_iff]
    intro e he
    exact hall e (List.mem_filterMap.mpr ⟨service, hmem, he⟩)
  · intro h
    suffices hall : ∀ service ∈ entries resolve_rel_url URLBase device, service.Complete from
      ⟨hall, findServiceId_isSome hall⟩
    rw [entries]
    cases hoffer : offer device with
    | none =>
      rintro service hmem
      cases hmem
    | some o =>
      obtain ⟨UDN, services⟩ := o
      intro e he
      obtain ⟨service, hmem, hentry⟩ := List.mem_filterMap.mp he
      exact entry_complete_iff.mpr (h UDN services hoffer service hmem) e hentry

/-- A device with a service that has a type and nothing else. -/
def bareService : Found :=
  ⟨[], .element "device".toList,
    textElement "UDN" "uuid:lamp" <|
      .node (.element "serviceList".toList)
        (.node (.element "service".toList) (textElement "serviceType" "urn:s:SwitchPower:1" .null)
          .null) .null⟩

/-- The service is linked without an identifier, and the first look-up accesses it. -/
theorem bareService_linked : ¬ ListComplete (fun _ rel_url ↦ some rel_url) none bareService := by
  rintro ⟨-, h⟩
  have hnull : findServiceId [] []
      (getServiceList (fun _ rel_url ↦ some rel_url) none bareService).1 = none := by
    decide +kernel
  have hsome := h [] []
  rw [hnull] at hsome
  cases hsome

end Upnp.ServiceTable
