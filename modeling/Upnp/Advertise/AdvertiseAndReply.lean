import Upnp.Dom.Tree
import Upnp.Ssdp.Parser

/-!
# Announcing a root device

`AdvertiseAndReply` of `upnpapi.c` and the functions of `ssdplib.c` that it calls.  An
announcement refers to the elements whose texts it is made from; what does not
fit into a buffer is written behind it, and has no result.
-/

namespace Upnp.Advertise

open Upnp.Lib Upnp.Dom

def NAME_SIZE : Nat := 100
def LINE_SIZE : Nat := 180

/-- What a packet names, by the elements of the description. -/
inductive Announcement where
  | rootdevice (UDN : Found)
  | udn (UDN : Found)
  | device (UDN deviceType : Found)
  | service (UDN current_service serviceType : Found)
deriving DecidableEq, Repr

/-- The text of an element that has one. -/
def textOf (x : Found) : CString := x.getElementValue.getD []

namespace Announcement

/-- `Mil_Nt`. -/
def Nt : Announcement → CString
  | rootdevice _ => "upnp:rootdevice".toList
  | udn UDN => textOf UDN
  | device _ deviceType => textOf deviceType
  | service _ _ serviceType => textOf serviceType

/-- `Mil_Usn`. -/
def Usn : Announcement → CString
  | rootdevice UDN => textOf UDN ++ "::upnp:rootdevice".toList
  | udn UDN => textOf UDN
  | device UDN deviceType => textOf UDN ++ "::".toList ++ textOf deviceType
  | service UDN _ serviceType => textOf UDN ++ "::".toList ++ textOf serviceType

end Announcement

/-- A packet: what `CreateServiceRequestPacket` is called with. -/
structure Packet where
  Notf : Nat
  names : Announcement
deriving DecidableEq, Repr

/-- The texts fit into `Mil_Nt` and `Mil_Usn`. -/
def Announcement.Fits (a : Announcement) : Prop :=
  a.Nt.length < LINE_SIZE ∧ a.Usn.length < LINE_SIZE

instance (a : Announcement) : Decidable a.Fits := inferInstanceAs (Decidable (_ ∧ _))

/-- The packets of one call. -/
def send (Notf : Nat) (names : List Announcement) : Option (List Packet) :=
  if ∀ a ∈ names, a.Fits then some (names.map (⟨Notf, ·⟩)) else none

/-- What is announced of a device. -/
def deviceNames (DevType : Found) (RootDev : Bool) (Udn : Found) : List Announcement :=
  (if RootDev then [.rootdevice Udn] else []) ++ [.udn Udn, .device Udn DevType]

def DeviceAdvertisement (DevType : Found) (RootDev : Bool) (Udn : Found) : Option (List Packet) :=
  send 1 (deviceNames DevType RootDev Udn)

def DeviceShutdown (DevType : Found) (RootDev : Bool) (Udn : Found) : Option (List Packet) :=
  send 0 (deviceNames DevType RootDev Udn)

def DeviceReply (DevType : Found) (RootDev : Bool) (Udn : Found) : Option (List Packet) :=
  send 2 (deviceNames DevType RootDev Udn)

def SendReply (DevType : Found) (RootDev : Bool) (Udn : Found) (ByType : Bool) :
    Option (List Packet) :=
  if RootDev then send 2 [.rootdevice Udn]
  else if ByType then send 2 [.device Udn DevType]
  else send 2 [.udn Udn]

/-- The service is the element of the type. -/
def ServiceAdvertisement (Udn service ServType : Found) : Option (List Packet) :=
  send 1 [.service Udn service ServType]

def ServiceShutdown (Udn service ServType : Found) : Option (List Packet) :=
  send 0 [.service Udn service ServType]

def ServiceReply (Udn service ServType : Found) : Option (List Packet) :=
  send 2 [.service Udn service ServType]

/-- The arguments that decide what is announced.  A search passes arrays, so the strings are never
`NULL`. -/
structure Request where
  AdFlag : Int
  SearchType : Ssdp.SearchType
  DeviceType : CString
  DeviceUDN : CString
  ServiceType : CString
deriving DecidableEq, Repr

/-- The packets for a device. -/
def sendDevice (r : Request) (i : Nat) (devType UDN : Found) : Option (List Packet) :=
  if r.AdFlag ≠ 0 then
    if r.AdFlag = 1 then DeviceAdvertisement devType (i = 0) UDN
    else DeviceShutdown devType (i = 0) UDN
  else match r.SearchType with
  | .ALL => DeviceReply devType (i = 0) UDN
  | .ROOTDEVICE => if i = 0 then SendReply devType true UDN false else some []
  | .DEVICE =>
    if r.DeviceUDN ≠ [] then
      if strcaseEq r.DeviceUDN (textOf UDN) then SendReply devType false UDN false else some []
    else if strcaseEq r.DeviceType (textOf devType) then SendReply devType false UDN true
    else some []
  | _ => some []

/-- The packets for a service. -/
def sendService (r : Request) (UDN service servType : Found) : Option (List Packet) :=
  if r.AdFlag ≠ 0 then
    if r.AdFlag = 1 then ServiceAdvertisement UDN service servType
    else ServiceShutdown UDN service servType
  else match r.SearchType with
  | .ALL => ServiceReply UDN service servType
  | .SERVICE =>
    if strcaseEq r.ServiceType (textOf servType) then ServiceReply UDN service servType
    else some []
  | _ => some []

/-- Item 0 of the elements of a name, when it has a text. -/
def firstText (tagname : CString) (x : Found) : Option Found :=
  (x.getElementsByTagName tagname).head?.filter fun y ↦ y.getElementValue.isSome

/-- What is sent step by step. -/
def collect {α β : Type*} (f : α → Option (List β)) : List α → Option (List β)
  | [] => some []
  | a :: l => (f a).bind fun sent ↦ (collect f l).map (sent ++ ·)

/-- The inner loop at one service. -/
def serviceLoop (r : Request) (UDN service : Found) : Option (List Packet) :=
  match firstText "serviceType".toList service with
  | none => some []
  | some servType =>
    if (textOf servType).length < NAME_SIZE then sendService r UDN service servType else none

def DeviceList (doc : Found) : List Found := doc.getElementsByTagName "device".toList

def ServiceList (doc : Found) : List Found := doc.getElementsByTagName "serviceList".toList

/-- The services below item `i` of `ServiceList`. -/
def servicesAt (doc : Found) (i : Nat) : List Found :=
  match (ServiceList doc)[i]? with
  | none => []
  | some serviceList => serviceList.getElementsByTagName "service".toList

/-- The outer loop at item `i` of `DeviceList`. -/
def deviceLoop (r : Request) (doc : Found) (item : Found × Nat) : Option (List Packet) :=
  match firstText "deviceType".toList item.1 with
  | none => some []
  | some devType =>
    if (textOf devType).length < NAME_SIZE then
      match firstText "UDN".toList item.1 with
      | none => some []
      | some UDN =>
        if (textOf UDN).length < NAME_SIZE then
          (sendDevice r item.2 devType UDN).bind fun sent ↦
            (collect (serviceLoop r UDN) (servicesAt doc item.2)).map (sent ++ ·)
        else none
    else none

/-- `AdvertiseAndReply`: the packets that are sent. -/
def AdvertiseAndReply (r : Request) (doc : Found) : Option (List Packet) :=
  collect (deviceLoop r doc) (DeviceList doc).zipIdx

/-! ## What is named -/

/-- The kind of the packets. -/
def Request.Notf (r : Request) : Nat := if r.AdFlag = 0 then 2 else if r.AdFlag = 1 then 1 else 0

/-- Alive, byebye, and the reply to `ssdp:all`. -/
def Request.Complete (r : Request) : Prop := r.AdFlag ≠ 0 ∨ r.SearchType = .ALL

instance (r : Request) : Decidable r.Complete := inferInstanceAs (Decidable (_ ∨ _))

/-- What is named of a device. -/
def namesOfDevice (r : Request) (i : Nat) (devType UDN : Found) : List Announcement :=
  if r.Complete then deviceNames devType (i = 0) UDN
  else match r.SearchType with
  | .ROOTDEVICE => if i = 0 then [.rootdevice UDN] else []
  | .DEVICE =>
    if r.DeviceUDN ≠ [] then if strcaseEq r.DeviceUDN (textOf UDN) then [.udn UDN] else []
    else if strcaseEq r.DeviceType (textOf devType) then [.device UDN devType] else []
  | _ => []

/-- What is named of a service. -/
def namesOfService (r : Request) (UDN service servType : Found) : List Announcement :=
  if r.Complete ∨ r.SearchType = .SERVICE ∧ strcaseEq r.ServiceType (textOf servType) then
    [.service UDN service servType]
  else []

theorem send_nil (Notf : Nat) : send Notf [] = some [] :=
  if_pos fun _ h ↦ absurd h List.not_mem_nil

theorem Request.not_complete {r : Request} (hflag : r.AdFlag = 0) (hsearch : r.SearchType ≠ .ALL) :
    ¬ r.Complete :=
  not_or.mpr ⟨not_not_intro hflag, hsearch⟩

theorem Request.notf_reply {r : Request} (hflag : r.AdFlag = 0) : r.Notf = 2 := if_pos hflag

theorem sendDevice_eq (r : Request) (i : Nat) (devType UDN : Found) :
    sendDevice r i devType UDN = send r.Notf (namesOfDevice r i devType UDN) := by
  rw [sendDevice, namesOfDevice]
  by_cases hflag : r.AdFlag = 0
  · rw [if_neg (not_not_intro hflag), Request.notf_reply hflag]
    by_cases hall : r.SearchType = .ALL
    · have hcomplete : r.Complete := .inr hall
      rw [if_pos hcomplete, hall]
      rfl
    · rw [if_neg (Request.not_complete hflag hall)]
      cases hsearch : r.SearchType with
      | ALL => exact absurd hsearch hall
      | ROOTDEVICE =>
        dsimp only
        by_cases hi : i = 0
        · rw [if_pos hi, if_pos hi, SendReply, if_pos rfl]
        · rw [if_neg hi, if_neg hi, send_nil]
      | DEVICE =>
        dsimp only
        by_cases hudn : r.DeviceUDN ≠ []
        · rw [if_pos hudn, if_pos hudn]
          cases strcaseEq r.DeviceUDN (textOf UDN) with
          | true => rfl
          | false => exact (send_nil 2).symm
        · rw [if_neg hudn, if_neg hudn]
          cases strcaseEq r.DeviceType (textOf devType) with
          | true => rfl
          | false => exact (send_nil 2).symm
      | SERROR => exact (send_nil 2).symm
      | DEVICETYPE => exact (send_nil 2).symm
      | SERVICE => exact (send_nil 2).symm
  · have hcomplete : r.Complete := .inl hflag
    rw [if_pos hflag, if_pos hcomplete, Request.Notf, if_neg hflag]
    by_cases halive : r.AdFlag = 1
    · rw [if_pos halive, if_pos halive, DeviceAdvertisement]
    · rw [if_neg halive, if_neg halive, DeviceShutdown]

theorem sendService_eq (r : Request) (UDN service servType : Found) :
    sendService r UDN service servType = send r.Notf (namesOfService r UDN service servType) := by
  rw [sendService, namesOfService]
  by_cases hflag : r.AdFlag = 0
  · rw [if_neg (not_not_intro hflag), Request.notf_reply hflag]
    by_cases hall : r.SearchType = .ALL
    · have hcomplete : r.Complete := .inr hall
      rw [if_pos (Or.inl hcomplete), hall]
      rfl
    · have hcomplete := Request.not_complete hflag hall
      cases hsearch : r.SearchType with
      | ALL => exact absurd hsearch hall
      | SERVICE =>
        dsimp only
        by_cases heq : strcaseEq r.ServiceType (textOf servType) = true
        · rw [if_pos heq, if_pos (Or.inr ⟨rfl, heq⟩), ServiceReply]
        · rw [if_neg heq, if_neg (not_or.mpr ⟨hcomplete, fun h ↦ heq h.2⟩), send_nil]
      | SERROR => rw [if_neg (not_or.mpr ⟨hcomplete, fun h ↦ nomatch h.1⟩), send_nil]
      | ROOTDEVICE => rw [if_neg (not_or.mpr ⟨hcomplete, fun h ↦ nomatch h.1⟩), send_nil]
      | DEVICE => rw [if_neg (not_or.mpr ⟨hcomplete, fun h ↦ nomatch h.1⟩), send_nil]
      | DEVICETYPE => rw [if_neg (not_or.mpr ⟨hcomplete, fun h ↦ nomatch h.1⟩), send_nil]
  · have hcomplete : r.Complete := .inl hflag
    rw [if_pos hflag, if_pos (Or.inl hcomplete), Request.Notf, if_neg hflag]
    by_cases halive : r.AdFlag = 1
    · rw [if_pos halive, if_pos halive, ServiceAdvertisement]
    · rw [if_neg halive, if_neg halive, ServiceShutdown]

/-! ## The loops -/

theorem send_eq_some_iff {Notf : Nat} {names : List Announcement} {sent : List Packet} :
    send Notf names = some sent ↔ (∀ a ∈ names, a.Fits) ∧ sent = names.map (⟨Notf, ·⟩) := by
  rw [send]
  by_cases h : ∀ a ∈ names, a.Fits
  · rw [if_pos h, Option.some_inj]
    exact ⟨fun heq ↦ ⟨h, heq.symm⟩, fun heq ↦ heq.2.symm⟩
  · rw [if_neg h]
    exact iff_of_false nofun fun heq ↦ h heq.1

/-- A loop whose steps send something when it fits. -/
theorem collect_eq_some_iff {α β : Type*} {f : α → Option (List β)} {fits : α → Prop}
    {g : α → List β} (hf : ∀ a sent, f a = some sent ↔ fits a ∧ sent = g a) {l : List α}
    {sent : List β} :
    collect f l = some sent ↔ (∀ a ∈ l, fits a) ∧ sent = l.flatMap g := by
  induction l generalizing sent with
  | nil =>
    rw [collect, Option.some_inj, List.flatMap_nil]
    exact ⟨fun h ↦ ⟨nofun, h.symm⟩, fun h ↦ h.2.symm⟩
  | cons a l ih =>
    rw [collect, Option.bind_eq_some_iff, List.forall_mem_cons, List.flatMap_cons]
    constructor
    · rintro ⟨first, hfirst, hsent⟩
      obtain ⟨rest, hrest, rfl⟩ := Option.map_eq_some_iff.mp hsent
      obtain ⟨hfits, rfl⟩ := (hf a first).mp hfirst
      obtain ⟨hall, rfl⟩ := ih.mp hrest
      exact ⟨⟨hfits, hall⟩, rfl⟩
    · rintro ⟨⟨hfits, hall⟩, rfl⟩
      refine ⟨g a, (hf a _).mpr ⟨hfits, rfl⟩, ?_⟩
      rw [ih.mpr ⟨hall, rfl⟩, Option.map_some]

/-- The texts of a service fit, when it has a type. -/
def ServiceFits (r : Request) (UDN service : Found) : Prop :=
  ∀ servType, firstText "serviceType".toList service = some servType →
    (textOf servType).length < NAME_SIZE ∧
      ∀ a ∈ namesOfService r UDN service servType, a.Fits

/-- What the inner loop names. -/
def serviceAnnouncements (r : Request) (UDN service : Found) : List Announcement :=
  match firstText "serviceType".toList service with
  | none => []
  | some servType => namesOfService r UDN service servType

theorem serviceLoop_eq_some_iff (r : Request) (UDN service : Found) (sent : List Packet) :
    serviceLoop r UDN service = some sent ↔ ServiceFits r UDN service ∧
      sent = (serviceAnnouncements r UDN service).map (⟨r.Notf, ·⟩) := by
  rw [serviceLoop, ServiceFits, serviceAnnouncements]
  cases firstText "serviceType".toList service with
  | none =>
    dsimp only
    rw [Option.some_inj]
    exact ⟨fun h ↦ ⟨nofun, h.symm⟩, fun h ↦ h.2.symm⟩
  | some servType =>
    dsimp only
    by_cases hlength : (textOf servType).length < NAME_SIZE
    · rw [if_pos hlength, sendService_eq, send_eq_some_iff]
      refine and_congr_left fun _ ↦ ⟨fun h servType' heq ↦ ?_, fun h ↦ (h servType rfl).2⟩
      cases heq
      exact ⟨hlength, h⟩
    · rw [if_neg hlength]
      exact iff_of_false nofun fun h ↦ hlength (h.1 servType rfl).1

/-- The elements that the outer loop takes for a device. -/
def headOf (device : Found) : Option (Found × Found) :=
  (firstText "deviceType".toList device).bind fun devType ↦
    (firstText "UDN".toList device).map fun UDN ↦ (devType, UDN)

/-- The texts of item `i` fit. -/
def DeviceFits (r : Request) (doc : Found) (item : Found × Nat) : Prop :=
  (∀ devType, firstText "deviceType".toList item.1 = some devType →
    (textOf devType).length < NAME_SIZE) ∧
  ∀ devType UDN, headOf item.1 = some (devType, UDN) →
    (textOf UDN).length < NAME_SIZE ∧ (∀ a ∈ namesOfDevice r item.2 devType UDN, a.Fits) ∧
      ∀ service ∈ servicesAt doc item.2, ServiceFits r UDN service

/-- What the outer loop names. -/
def deviceAnnouncements (r : Request) (doc : Found) (item : Found × Nat) : List Announcement :=
  match headOf item.1 with
  | none => []
  | some (devType, UDN) => namesOfDevice r item.2 devType UDN ++
      (servicesAt doc item.2).flatMap (serviceAnnouncements r UDN)

theorem deviceLoop_eq_some_iff (r : Request) (doc : Found) (item : Found × Nat)
    (sent : List Packet) :
    deviceLoop r doc item = some sent ↔ DeviceFits r doc item ∧
      sent = (deviceAnnouncements r doc item).map (⟨r.Notf, ·⟩) := by
  rw [deviceLoop, DeviceFits, deviceAnnouncements, headOf]
  cases firstText "deviceType".toList item.1 with
  | none =>
    dsimp only [Option.bind_none]
    rw [Option.some_inj]
    exact ⟨fun h ↦ ⟨⟨nofun, nofun⟩, h.symm⟩, fun h ↦ h.2.symm⟩
  | some devType =>
    dsimp only [Option.bind_some]
    by_cases hdevType : (textOf devType).length < NAME_SIZE
    · have hfirst : ∀ x, some devType = some x → (textOf x).length < NAME_SIZE := by
        rintro x ⟨⟩
        exact hdevType
      rw [if_pos hdevType]
      cases firstText "UDN".toList item.1 with
      | none =>
        dsimp only [Option.map_none]
        rw [Option.some_inj]
        exact ⟨fun h ↦ ⟨⟨hfirst, nofun⟩, h.symm⟩, fun h ↦ h.2.symm⟩
      | some UDN =>
        dsimp only [Option.map_some]
        by_cases hUDN : (textOf UDN).length < NAME_SIZE
        · rw [if_pos hUDN, sendDevice_eq, Option.bind_eq_some_iff]
          constructor
          · rintro ⟨first, hsend, hsent⟩
            obtain ⟨hfits, rfl⟩ := send_eq_some_iff.mp hsend
            obtain ⟨rest, hrest, rfl⟩ := Option.map_eq_some_iff.mp hsent
            obtain ⟨hall, rfl⟩ := (collect_eq_some_iff (serviceLoop_eq_some_iff r UDN)).mp hrest
            refine ⟨⟨hfirst, ?_⟩, ?_⟩
            · rintro x y ⟨⟩
              exact ⟨hUDN, hfits, hall⟩
            · rw [List.map_append, List.map_flatMap]
          · rintro ⟨⟨-, h⟩, rfl⟩
            obtain ⟨-, hfits, hall⟩ := h devType UDN rfl
            refine ⟨_, send_eq_some_iff.mpr ⟨hfits, rfl⟩, ?_⟩
            rw [(collect_eq_some_iff (serviceLoop_eq_some_iff r UDN)).mpr ⟨hall, rfl⟩,
              Option.map_some, List.map_append, List.map_flatMap]
        · rw [if_neg hUDN]
          exact iff_of_false nofun fun h ↦ hUDN (h.1.2 devType UDN rfl).1
    · rw [if_neg hdevType]
      exact iff_of_false nofun fun h ↦ hdevType (h.1.1 devType rfl)

/-- What a run names. -/
def announcements (r : Request) (doc : Found) : List Announcement :=
  (DeviceList doc).zipIdx.flatMap (deviceAnnouncements r doc)

/-- `AdvertiseAndReply` sends a packet for each of the names, if the texts fit. -/
theorem AdvertiseAndReply_eq_some_iff {r : Request} {doc : Found} {sent : List Packet} :
    AdvertiseAndReply r doc = some sent ↔
      (∀ item ∈ (DeviceList doc).zipIdx, DeviceFits r doc item) ∧
        sent = (announcements r doc).map (⟨r.Notf, ·⟩) := by
  rw [AdvertiseAndReply, announcements, collect_eq_some_iff (deviceLoop_eq_some_iff r doc),
    List.map_flatMap]

end Upnp.Advertise
