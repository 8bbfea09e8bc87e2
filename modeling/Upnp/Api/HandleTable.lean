import Mathlib.Data.List.Nodup
import Upnp.Lib.CString
import Upnp.Lib.Machine

/-!
# The handle table

Registrations of devices and clients, and their ends.  `GetFreeHandle` takes the last slot for the
end of the table: it is never used, and a registration fails while it is free.
-/

namespace Upnp.Api.Registration

open Upnp.Lib

/-! Codes of the source. -/

def NUM_HANDLE : Nat := 200
def UPNP_E_SUCCESS : Int := 0
def UPNP_E_INVALID_HANDLE : Int := -100
def UPNP_E_INVALID_PARAM : Int := -101
def UPNP_E_OUTOF_HANDLE : Int := -102
def UPNP_E_OUTOF_MEMORY : Int := -104
def UPNP_E_INVALID_DESC : Int := -107
def UPNP_E_FINISH : Int := -116

/-- `Upnp_Handle_Type`, of a handle that is valid. -/
inductive Upnp_Handle_Type where
  | HND_CLIENT
  | HND_DEVICE
deriving DecidableEq, Repr

/-- What a registration puts into `Handle_Info`; `Fun` and `Cookie` are addresses. -/
structure Handle_Info where
  HType : Upnp_Handle_Type
  Callback : Nat
  Cookie : Nat
deriving DecidableEq, Repr

/-- `HandleTable`. -/
abbrev HandleTable := Nat → Option Handle_Info

/-- The loop of `GetFreeHandle`: where `i` ends. -/
def scanHandles (table : HandleTable) (i : Nat) : Nat :=
  if i < NUM_HANDLE then
    if table i = none then i + 1 else scanHandles table (i + 1)
  else i
termination_by NUM_HANDLE - i

/-- `GetFreeHandle`. -/
def GetFreeHandle (table : HandleTable) : Int :=
  let i := scanHandles table 1
  if i = NUM_HANDLE then UPNP_E_OUTOF_HANDLE else (i : Int) - 1

/-- `GetHandleInfo`. -/
def GetHandleInfo (table : HandleTable) (Hnd : Int) : Except Int Handle_Info :=
  if Hnd < 1 ∨ Hnd ≥ NUM_HANDLE then .error UPNP_E_INVALID_HANDLE
  else
    match table Hnd.toNat with
    | some info => .ok info
    | none => .error UPNP_E_INVALID_HANDLE

/-- `FreeHandle`. -/
def FreeHandle (table : HandleTable) (Upnp_Handle : Int) : Int × HandleTable :=
  if Upnp_Handle < 1 ∨ Upnp_Handle ≥ NUM_HANDLE then (UPNP_E_INVALID_HANDLE, table)
  else if table Upnp_Handle.toNat = none then (UPNP_E_INVALID_HANDLE, table)
  else (UPNP_E_SUCCESS, Function.update table Upnp_Handle.toNat none)

/-! ## Registrations -/

/-- The outcome of a registration: the code, the handle where one was written, the table. -/
structure Registered where
  retVal : Int
  Hnd : Option Int
  table : HandleTable

/-- What the registrations have in common: a slot, the memory, and what is done with both. -/
def register (table : HandleTable) (malloc : Bool) (info : Handle_Info) (setup : Int) :
    Registered :=
  let Hnd := GetFreeHandle table
  if Hnd = UPNP_E_OUTOF_HANDLE then ⟨UPNP_E_OUTOF_MEMORY, some Hnd, table⟩
  else if !malloc then ⟨UPNP_E_OUTOF_MEMORY, some Hnd, table⟩
  else
    let table := Function.update table Hnd.toNat (some info)
    if setup ≠ UPNP_E_SUCCESS then ⟨setup, some Hnd, (FreeHandle table Hnd).2⟩
    else ⟨UPNP_E_SUCCESS, some Hnd, table⟩

/-- What a registration is given, `none` for a null pointer. -/
structure Registrant where
  UpnpSdkInit : Int
  Hnd : Option Unit
  Fun : Option Nat
  Cookie : Nat
  DescUrl : Option CString

/-- The codes for the elements that a description has to have. -/
def descriptionCode (deviceList serviceList : Bool) : Int :=
  if !deviceList then UPNP_E_INVALID_DESC
  else if !serviceList then UPNP_E_INVALID_DESC
  else UPNP_E_SUCCESS

/-- `UpnpRegisterRootDevice`, where `download` is the code of `UpnpDownloadXmlDoc`. -/
def UpnpRegisterRootDevice (table : HandleTable) (r : Registrant) (malloc : Bool) (download : Int)
    (deviceList serviceList : Bool) : Registered :=
  if r.UpnpSdkInit ≠ 1 then ⟨UPNP_E_FINISH, none, table⟩
  else
    match r.Hnd, r.Fun, r.DescUrl with
    | some (), some Fun, some (_ :: _) =>
      register table malloc ⟨.HND_DEVICE, Fun, r.Cookie⟩
        (if download ≠ UPNP_E_SUCCESS then download else descriptionCode deviceList serviceList)
    | _, _, _ => ⟨UPNP_E_INVALID_PARAM, none, table⟩

/-- `UpnpRegisterRootDevice2`, where `description` is the code of `GetDescDocumentAndURL`. -/
def UpnpRegisterRootDevice2 (table : HandleTable) (r : Registrant) (malloc : Bool)
    (description : Int) (deviceList serviceList : Bool) : Registered :=
  if r.UpnpSdkInit ≠ 1 then ⟨UPNP_E_FINISH, none, table⟩
  else
    match r.Hnd, r.Fun with
    | some (), some Fun =>
      register table malloc ⟨.HND_DEVICE, Fun, r.Cookie⟩
        (if description ≠ UPNP_E_SUCCESS then description
          else descriptionCode deviceList serviceList)
    | _, _ => ⟨UPNP_E_INVALID_PARAM, none, table⟩

/-- `UpnpRegisterClient`. -/
def UpnpRegisterClient (table : HandleTable) (r : Registrant) (malloc : Bool) : Registered :=
  if r.UpnpSdkInit ≠ 1 then ⟨UPNP_E_FINISH, none, table⟩
  else
    match r.Hnd, r.Fun with
    | some (), some Fun => register table malloc ⟨.HND_CLIENT, Fun, r.Cookie⟩ UPNP_E_SUCCESS
    | _, _ => ⟨UPNP_E_INVALID_PARAM, none, table⟩

/-- `UpnpUnRegisterRootDevice`, where `advertise` is the code of `AdvertiseAndReply`. -/
def UpnpUnRegisterRootDevice (table : HandleTable) (Hnd : Int) (advertise : Int) :
    Int × HandleTable :=
  -- `genaUnregisterDevice`
  match GetHandleInfo table Hnd with
  | .error _ => (UPNP_E_INVALID_HANDLE, table)
  | .ok info =>
    if info.HType ≠ .HND_DEVICE then (UPNP_E_INVALID_HANDLE, table)
    else (advertise, (FreeHandle table Hnd).2)

/-- `UpnpUnRegisterClient`, where `gena` is the code of `genaUnregisterClient` for a client. -/
def UpnpUnRegisterClient (table : HandleTable) (Hnd : Int) (gena : Int) : Int × HandleTable :=
  match GetHandleInfo table Hnd with
  | .error _ => (UPNP_E_INVALID_HANDLE, table)
  | .ok info =>
    if info.HType ≠ .HND_CLIENT ∨ gena ≠ UPNP_E_SUCCESS then (UPNP_E_INVALID_HANDLE, table)
    else (UPNP_E_SUCCESS, (FreeHandle table Hnd).2)

/-! ## Histories -/

/-- A call, with the answers of what it calls. -/
inductive HandleCall where
  | UpnpRegisterRootDevice (r : Registrant) (malloc : Bool) (download : Int)
      (deviceList serviceList : Bool)
  | UpnpRegisterRootDevice2 (r : Registrant) (malloc : Bool) (description : Int)
      (deviceList serviceList : Bool)
  | UpnpRegisterClient (r : Registrant) (malloc : Bool)
  | UpnpUnRegisterRootDevice (Hnd : Int) (advertise : Int)
  | UpnpUnRegisterClient (Hnd : Int) (gena : Int)

/-- The table, and the handles that were returned and not unregistered since. -/
structure Handles where
  table : HandleTable
  live : List (Int × Handle_Info)

/-- A registration that succeeds returns a handle that is live from then on. -/
def Handles.registered (s : Handles) (HType : Upnp_Handle_Type) (r : Registrant)
    (result : Registered) : Handles :=
  match result.Hnd, r.Fun with
  | some Hnd, some Fun =>
    if result.retVal = UPNP_E_SUCCESS then ⟨result.table, s.live ++ [(Hnd, ⟨HType, Fun, r.Cookie⟩)]⟩
    else ⟨result.table, s.live⟩
  | _, _ => ⟨result.table, s.live⟩

/-- A handle is not live any more. -/
def Handles.unregistered (s : Handles) (HType : Upnp_Handle_Type) (Hnd : Int)
    (table : HandleTable) : Handles :=
  ⟨table, s.live.filter fun x ↦ ¬ (x.1 = Hnd ∧ x.2.HType = HType)⟩

def Handles.call (s : Handles) : HandleCall → Handles
  | .UpnpRegisterRootDevice r malloc download deviceList serviceList =>
    s.registered .HND_DEVICE r
      (Registration.UpnpRegisterRootDevice s.table r malloc download deviceList serviceList)
  | .UpnpRegisterRootDevice2 r malloc description deviceList serviceList =>
    s.registered .HND_DEVICE r
      (Registration.UpnpRegisterRootDevice2 s.table r malloc description deviceList serviceList)
  | .UpnpRegisterClient r malloc =>
    s.registered .HND_CLIENT r (Registration.UpnpRegisterClient s.table r malloc)
  | .UpnpUnRegisterRootDevice Hnd advertise =>
    s.unregistered .HND_DEVICE Hnd (Registration.UpnpUnRegisterRootDevice s.table Hnd advertise).2
  | .UpnpUnRegisterClient Hnd gena =>
    let table := (Registration.UpnpUnRegisterClient s.table Hnd gena).2
    if gena = UPNP_E_SUCCESS then s.unregistered .HND_CLIENT Hnd table else ⟨table, s.live⟩

/-- Histories after `InitHandleList`. -/
def handles : Machine Handles HandleCall where
  init s := s = ⟨fun _ ↦ none, []⟩
  step s c := some (s.call c)

/-- `GetFreeHandle` fails only if every slot is occupied, and else returns one that is not. -/
structure Allocates (table : HandleTable) : Prop where
  full : GetFreeHandle table = UPNP_E_OUTOF_HANDLE →
    ∀ i, 1 ≤ i → i < NUM_HANDLE → table i ≠ none
  free : GetFreeHandle table ≠ UPNP_E_OUTOF_HANDLE →
    ∃ i : Nat, GetFreeHandle table = i ∧ 1 ≤ i ∧ i < NUM_HANDLE ∧ table i = none

/-- Live handles are found, and none was given twice. -/
structure Keeps (s : Handles) : Prop where
  found : ∀ x ∈ s.live, GetHandleInfo s.table x.1 = .ok x.2
  distinct : (s.live.map Prod.fst).Nodup

/-- A slot other than the last one is free. -/
def Roomy (table : HandleTable) : Prop := ∃ i, 1 ≤ i ∧ i + 1 < NUM_HANDLE ∧ table i = none

/-! ## The free slot -/

variable {table : HandleTable}

theorem scanHandles_cases (table : HandleTable) {i : Nat} (hi : i ≤ NUM_HANDLE) :
    (∃ k, i ≤ k ∧ k < NUM_HANDLE ∧ table k = none ∧ scanHandles table i = k + 1 ∧
      ∀ j, i ≤ j → j < k → table j ≠ none) ∨
    scanHandles table i = NUM_HANDLE ∧ ∀ j, i ≤ j → j < NUM_HANDLE → table j ≠ none := by
  fun_induction scanHandles table i with
  | case1 i hlt hnone =>
    exact .inl ⟨i, Nat.le_refl i, hlt, hnone, rfl, fun j hij hji ↦ absurd hij (Nat.not_le.mpr hji)⟩
  | case2 i hlt hsome ih =>
    -- what holds behind `i` holds from `i` on
    have hcons {n : Nat} (h : ∀ j, i + 1 ≤ j → j < n → table j ≠ none) :
        ∀ j, i ≤ j → j < n → table j ≠ none := by
      intro j hij hjn
      rcases Nat.eq_or_lt_of_le hij with rfl | hlt
      · exact hsome
      · exact h j hlt hjn
    rcases ih hlt with ⟨k, hik, hk, hnone, hscan, hall⟩ | ⟨hscan, hall⟩
    · exact .inl ⟨k, Nat.le_of_succ_le hik, hk, hnone, hscan, hcons hall⟩
    · exact .inr ⟨hscan, hcons hall⟩
  | case3 i hnot =>
    have heq : i = NUM_HANDLE := Nat.le_antisymm hi (Nat.not_lt.mp hnot)
    exact .inr ⟨heq, fun j hij hj ↦ absurd (heq ▸ hij) (Nat.not_le.mpr hj)⟩

/-- A slot is the first one that is free, and not the last one. -/
structure FirstFree (table : HandleTable) (i : Nat) : Prop where
  pos : 1 ≤ i
  lt : i + 1 < NUM_HANDLE
  free : table i = none
  first : ∀ j, 1 ≤ j → j < i → table j ≠ none

/-- The first slot is returned if it is not the last one, and else there is none. -/
theorem GetFreeHandle_cases (table : HandleTable) :
    (∃ i : Nat, GetFreeHandle table = i ∧ FirstFree table i) ∨
    GetFreeHandle table = UPNP_E_OUTOF_HANDLE ∧ ¬ Roomy table := by
  rcases scanHandles_cases table (i := 1) (by decide) with
    ⟨k, hk, hlt, hnone, hscan, hall⟩ | ⟨hscan, hall⟩
  · rcases Nat.eq_or_lt_of_le (Nat.succ_le_of_lt hlt) with heq | hlt
    · right
      constructor
      · rw [GetFreeHandle, hscan]
        exact if_pos heq
      · rintro ⟨i, hi, hilt, hnone⟩
        exact hall i hi (by omega) hnone
    · left
      refine ⟨k, ?_, hk, hlt, hnone, hall⟩
      rw [GetFreeHandle, hscan]
      rw [if_neg (Nat.ne_of_lt hlt), Nat.cast_succ, Int.add_sub_cancel]
  · right
    constructor
    · rw [GetFreeHandle, hscan]
      rfl
    · rintro ⟨i, hi, hilt, hnone⟩
      exact hall i hi (Nat.lt_of_succ_lt hilt) hnone

theorem natCast_ne_outOf (i : Nat) : (i : Int) ≠ UPNP_E_OUTOF_HANDLE := by
  exact ne_of_gt (Int.lt_of_lt_of_le (by decide) (Int.natCast_nonneg i))

/-- While the last slot is free, a slot is found exactly if another one is free. -/
theorem allocates_iff (hlast : table (NUM_HANDLE - 1) = none) : Allocates table ↔ Roomy table := by
  constructor
  · intro h
    rcases GetFreeHandle_cases table with ⟨i, -, hi⟩ | ⟨hfull, -⟩
    · exact ⟨i, hi.pos, hi.lt, hi.free⟩
    · exact absurd hlast (h.full hfull _ (by decide) (by decide))
  · intro hroomy
    rcases GetFreeHandle_cases table with ⟨i, hfree, hi⟩ | ⟨-, hnot⟩
    · refine ⟨fun hfull ↦ absurd (hfree.symm.trans hfull) (natCast_ne_outOf i), fun _ ↦ ?_⟩
      exact ⟨i, hfree, hi.pos, Nat.lt_of_succ_lt hi.lt, hi.free⟩
    · exact absurd hroomy hnot

/-! ## The table in a history -/

/-- The live handles are the occupied slots, and none of them is the last one. -/
structure Held (table : HandleTable) (live : List (Int × Handle_Info)) : Prop where
  occupied : ∀ h info, (h, info) ∈ live ↔
    ∃ i : Nat, h = i ∧ 1 ≤ i ∧ i + 1 < NUM_HANDLE ∧ table i = some info
  outside : ∀ i, ¬ (1 ≤ i ∧ i + 1 < NUM_HANDLE) → table i = none
  distinct : (live.map Prod.fst).Nodup

variable {live : List (Int × Handle_Info)} {info : Handle_Info}

theorem Held.found (h : Held table live) {x : Int × Handle_Info} (hx : x ∈ live) :
    GetHandleInfo table x.1 = .ok x.2 := by
  obtain ⟨i, hi, hpos, hlt, hinfo⟩ := (h.occupied x.1 x.2).mp hx
  have hrange : ¬ (x.1 < 1 ∨ x.1 ≥ NUM_HANDLE) := by
    rw [hi]
    omega
  rw [GetHandleInfo, if_neg hrange, hi, Int.toNat_natCast, hinfo]

theorem Held.keeps (h : Held table live) : Keeps ⟨table, live⟩ :=
  ⟨fun _ hx ↦ h.found hx, h.distinct⟩

/-- What `GetHandleInfo` finds is live. -/
theorem Held.live_of_found (h : Held table live) {Hnd : Int}
    (hfound : GetHandleInfo table Hnd = .ok info) : (Hnd, info) ∈ live := by
  rw [GetHandleInfo] at hfound
  split at hfound
  · cases hfound
  next hrange =>
  split at hfound
  next info' htable =>
    cases hfound
    have hin : 1 ≤ Hnd.toNat ∧ Hnd.toNat + 1 < NUM_HANDLE := by
      by_contra hnot
      rw [h.outside _ hnot] at htable
      cases htable
    exact (h.occupied Hnd info).mpr ⟨Hnd.toNat, by omega, hin.1, hin.2, htable⟩
  next => cases hfound

/-- A slot that was free is taken. -/
theorem Held.insert (h : Held table live) {i : Nat} (hi : 1 ≤ i) (hlt : i + 1 < NUM_HANDLE)
    (hnone : table i = none) (info : Handle_Info) :
    Held (Function.update table i (some info)) (live ++ [((i : Int), info)]) := by
  have hnew (info' : Handle_Info) : ((i : Int), info') ∉ live := by
    intro hmem
    obtain ⟨j, hj, -, -, hsome⟩ := (h.occupied _ _).mp hmem
    obtain rfl := Int.ofNat.inj hj
    rw [hnone] at hsome
    cases hsome
  refine ⟨fun Hnd info' ↦ ?_, fun j hj ↦ ?_, ?_⟩
  · rw [List.mem_append, List.mem_singleton, Prod.mk.injEq, h.occupied]
    constructor
    · rintro (⟨j, rfl, hj, hjlt, hsome⟩ | ⟨rfl, rfl⟩)
      · refine ⟨j, rfl, hj, hjlt, ?_⟩
        rw [Function.update_of_ne, hsome]
        rintro rfl
        rw [hnone] at hsome
        cases hsome
      · exact ⟨i, rfl, hi, hlt, Function.update_self ..⟩
    · rintro ⟨j, rfl, hj, hjlt, hsome⟩
      by_cases hji : j = i
      · subst hji
        rw [Function.update_self] at hsome
        exact .inr ⟨rfl, (Option.some.inj hsome).symm⟩
      · rw [Function.update_of_ne hji] at hsome
        exact .inl ⟨j, rfl, hj, hjlt, hsome⟩
  · rw [Function.update_of_ne, h.outside j hj]
    rintro rfl
    exact hj ⟨hi, hlt⟩
  · rw [List.map_append, List.nodup_append]
    refine ⟨h.distinct, List.nodup_singleton _, ?_⟩
    intro Hnd hmem Hnd' hmem' heq
    obtain ⟨x, hx, rfl⟩ := List.mem_map.mp hmem
    obtain rfl := List.mem_singleton.mp hmem'
    exact hnew x.2 (by rwa [← show x.1 = (i : Int) from heq])

/-- A live handle is freed. -/
theorem Held.remove (h : Held table live) {Hnd : Int} (hmem : (Hnd, info) ∈ live) :
    Held (FreeHandle table Hnd).2 (live.filter fun x ↦ ¬ x.1 = Hnd) := by
  obtain ⟨i, rfl, hi, hlt, hsome⟩ := (h.occupied _ _).mp hmem
  have hrange : ¬ ((i : Int) < 1 ∨ (i : Int) ≥ NUM_HANDLE) := by omega
  have hfree : (FreeHandle table i).2 = Function.update table i none := by
    rw [FreeHandle, if_neg hrange, Int.toNat_natCast, if_neg (by rw [hsome]; exact nofun)]
  rw [hfree]
  refine ⟨fun Hnd info' ↦ ?_, fun j hj ↦ ?_, ?_⟩
  · rw [List.mem_filter, h.occupied, decide_eq_true_iff]
    constructor
    · rintro ⟨⟨j, rfl, hj, hjlt, hsome⟩, hne⟩
      refine ⟨j, rfl, hj, hjlt, ?_⟩
      rw [Function.update_of_ne, hsome]
      rintro rfl
      exact hne rfl
    · rintro ⟨j, rfl, hj, hjlt, hsome⟩
      by_cases hji : j = i
      · subst hji
        rw [Function.update_self] at hsome
        cases hsome
      · rw [Function.update_of_ne hji] at hsome
        exact ⟨⟨j, rfl, hj, hjlt, hsome⟩, fun heq ↦ hji (Int.ofNat.inj heq)⟩
  · by_cases hji : j = i
    · subst hji
      exact Function.update_self ..
    · rw [Function.update_of_ne hji, h.outside j hj]
  · exact h.distinct.sublist (List.filter_sublist.map Prod.fst)

theorem FreeHandle_update (table : HandleTable) {i : Nat} (hi : 1 ≤ i) (hlt : i < NUM_HANDLE)
    (info : Handle_Info) :
    (FreeHandle (Function.update table i (some info)) i).2 = Function.update table i none := by
  have hrange : ¬ ((i : Int) < 1 ∨ (i : Int) ≥ NUM_HANDLE) := by omega
  have hsome : Function.update table i (some info) i ≠ none := by
    rw [Function.update_self]
    exact Option.some_ne_none info
  rw [FreeHandle, if_neg hrange, Int.toNat_natCast, if_neg hsome, Function.update_idem]

/-- A registration takes a free slot, or leaves the table as it was. -/
theorem register_cases (table : HandleTable) (malloc : Bool) (info : Handle_Info) (setup : Int) :
    (∃ i : Nat, FirstFree table i ∧ register table malloc info setup =
      ⟨UPNP_E_SUCCESS, some i, Function.update table i (some info)⟩) ∨
    (register table malloc info setup).retVal ≠ UPNP_E_SUCCESS ∧
      (register table malloc info setup).table = table := by
  rcases GetFreeHandle_cases table with ⟨i, hfree, hi⟩ | ⟨hfull, -⟩
  · rw [register, hfree]
    dsimp only
    rw [if_neg (natCast_ne_outOf i), Int.toNat_natCast]
    split
    · exact .inr ⟨(by decide : UPNP_E_OUTOF_MEMORY ≠ UPNP_E_SUCCESS), rfl⟩
    split
    next hsetup =>
      refine .inr ⟨hsetup, ?_⟩
      rw [FreeHandle_update table hi.pos (Nat.lt_of_succ_lt hi.lt), ← hi.free,
        Function.update_eq_self]
    next => exact .inl ⟨i, hi, rfl⟩
  · rw [register, hfull]
    exact .inr ⟨(by decide : UPNP_E_OUTOF_MEMORY ≠ UPNP_E_SUCCESS), rfl⟩

variable {s : Handles} {r : Registrant} {HType : Upnp_Handle_Type}

/-- A registration that fails leaves everything as it was. -/
theorem Handles.registered_of_ne {result : Registered} (hcode : result.retVal ≠ UPNP_E_SUCCESS)
    (htable : result.table = s.table) : s.registered HType r result = s := by
  unfold registered
  rw [htable]
  split
  · exact if_neg hcode
  · rfl

theorem Held.registered (h : Held s.table s.live) {Fun : Nat} (hFun : r.Fun = some Fun)
    (malloc : Bool) (setup : Int) :
    Held (s.registered HType r (register s.table malloc ⟨HType, Fun, r.Cookie⟩ setup)).table
      (s.registered HType r (register s.table malloc ⟨HType, Fun, r.Cookie⟩ setup)).live := by
  rcases register_cases s.table malloc ⟨HType, Fun, r.Cookie⟩ setup with
    ⟨i, hi, hregister⟩ | ⟨hcode, htable⟩
  · rw [hregister, Handles.registered, hFun]
    exact h.insert hi.pos hi.lt hi.free _
  · rw [Handles.registered_of_ne hcode htable]
    exact h

/-- A handle that is unregistered is freed. -/
theorem Held.unregistered (h : Held s.table s.live) {Hnd : Int} {info : Handle_Info}
    (hfound : GetHandleInfo s.table Hnd = .ok info) (htype : info.HType = HType) :
    Held (FreeHandle s.table Hnd).2 (s.unregistered HType Hnd (FreeHandle s.table Hnd).2).live := by
  have hmem := h.live_of_found hfound
  have hfilter : (s.unregistered HType Hnd (FreeHandle s.table Hnd).2).live =
      s.live.filter fun x ↦ ¬ x.1 = Hnd := by
    refine List.filter_congr fun x hx ↦ ?_
    rw [decide_eq_decide, not_iff_not, and_iff_left_iff_imp]
    rintro rfl
    have hinfo := (h.found hx).symm.trans hfound
    rw [Except.ok.inj hinfo, htype]
  rw [hfilter]
  exact h.remove hmem

/-- A handle that is not live with its type is not unregistered. -/
theorem Held.unregistered_of_ne (h : Held s.table s.live) {Hnd : Int}
    (hnot : ∀ info, GetHandleInfo s.table Hnd = .ok info → info.HType ≠ HType) :
    s.unregistered HType Hnd s.table = s := by
  have hfilter : (s.live.filter fun x ↦ ¬ (x.1 = Hnd ∧ x.2.HType = HType)) = s.live := by
    refine List.filter_eq_self.mpr fun x hx ↦ decide_eq_true ?_
    rintro ⟨rfl, htype⟩
    exact hnot x.2 (h.found hx) htype
  rw [Handles.unregistered, hfilter]

/-- Every call keeps the live handles the occupied slots. -/
theorem Held.call (h : Held s.table s.live) (c : HandleCall) :
    Held (s.call c).table (s.call c).live := by
  -- a registration that is refused before the table is looked at
  have hrefused (HType : Upnp_Handle_Type) (r : Registrant) (code : Int)
      (hcode : code ≠ UPNP_E_SUCCESS) :
      Held (s.registered HType r ⟨code, none, s.table⟩).table
        (s.registered HType r ⟨code, none, s.table⟩).live := by
    rw [Handles.registered_of_ne hcode rfl]
    exact h
  cases c with
  | UpnpRegisterRootDevice r malloc download deviceList serviceList =>
    rw [Handles.call, Registration.UpnpRegisterRootDevice]
    split
    · exact hrefused _ r _ (by decide)
    split
    next hFun _ => exact h.registered hFun malloc _
    next => exact hrefused _ r _ (by decide)
  | UpnpRegisterRootDevice2 r malloc description deviceList serviceList =>
    rw [Handles.call, Registration.UpnpRegisterRootDevice2]
    split
    · exact hrefused _ r _ (by decide)
    split
    next hFun => exact h.registered hFun malloc _
    next => exact hrefused _ r _ (by decide)
  | UpnpRegisterClient r malloc =>
    rw [Handles.call, Registration.UpnpRegisterClient]
    split
    · exact hrefused _ r _ (by decide)
    split
    next hFun => exact h.registered hFun malloc _
    next => exact hrefused _ r _ (by decide)
  | UpnpUnRegisterRootDevice Hnd advertise =>
    rw [Handles.call, Registration.UpnpUnRegisterRootDevice]
    split
    next e herror =>
      rw [h.unregistered_of_ne fun info hok ↦ by rw [herror] at hok; cases hok]
      exact h
    next info hfound =>
      split
      next htype =>
        rw [h.unregistered_of_ne fun info' hok ↦ by rwa [← Except.ok.inj (hfound.symm.trans hok)]]
        exact h
      next htype => exact h.unregistered hfound (not_not.mp htype)
  | UpnpUnRegisterClient Hnd gena =>
    rw [Handles.call, Registration.UpnpUnRegisterClient]
    cases hfound : GetHandleInfo s.table Hnd with
    | error e =>
      have hsame : s.unregistered .HND_CLIENT Hnd s.table = s :=
        h.unregistered_of_ne fun info hok ↦ by rw [hfound] at hok; cases hok
      dsimp only
      rw [hsame, ite_self]
      exact h
    | ok info =>
      by_cases hgena : gena = UPNP_E_SUCCESS
      · dsimp only
        rw [if_pos hgena]
        split
        next htype =>
          have htype := htype.resolve_right (not_not.mpr hgena)
          rw [h.unregistered_of_ne fun info' hok ↦ by rwa [← Except.ok.inj (hfound.symm.trans hok)]]
          exact h
        next htype => exact h.unregistered hfound (not_not.mp (not_or.mp htype).1)
      · dsimp only
        rw [if_neg hgena, if_pos (.inr hgena)]
        exact h

theorem held_inductive :
    handles.Inductive (fun _ _ ↦ True) fun s ↦ Held s.table s.live where
  init s hs := by
    cases hs
    refine ⟨fun Hnd info ↦ ?_, fun _ _ ↦ rfl, List.nodup_nil⟩
    constructor
    · exact fun hmem ↦ absurd hmem List.not_mem_nil
    · rintro ⟨i, -, -, -, hsome⟩
      cases hsome
  step s c s' h _ hs := by
    cases hs
    exact h.call c

/-- A client with the callback `n`. -/
def client (n : Nat) : Registrant := ⟨1, some (), some n, 0, none⟩

/-- While there is room, one more client can be registered. -/
theorem reachable_filled {n : Nat} (hn : n + 1 < NUM_HANDLE) :
    ∃ s, handles.Reachable s ∧ ∀ i, 1 ≤ i → i ≤ n → s.table i ≠ none := by
  induction n with
  | zero => exact ⟨_, .init rfl, fun i hi hi' ↦ absurd hi (by omega)⟩
  | succ n ih =>
    obtain ⟨s, hs, hfilled⟩ := ih (Nat.lt_of_succ_lt hn)
    by_cases hnext : s.table (n + 1) = none
    · refine ⟨_, hs.step (l := .UpnpRegisterClient (client n) true) trivial rfl, fun i hi hle ↦ ?_⟩
      rcases GetFreeHandle_cases s.table with ⟨k, hfree, hk⟩ | ⟨-, hfull⟩
      · have hkn : k = n + 1 := by
          rcases Nat.lt_trichotomy k (n + 1) with hlt | heq | hgt
          · exact absurd hk.free (hfilled k hk.pos (Nat.le_of_lt_succ hlt))
          · exact heq
          · exact absurd hnext (hk.first _ (Nat.succ_pos n) hgt)
        have htable : (s.call (.UpnpRegisterClient (client n) true)).table =
            Function.update s.table k (some ⟨.HND_CLIENT, n, 0⟩) := by
          show (s.registered .HND_CLIENT (client n)
            (register s.table true ⟨.HND_CLIENT, n, 0⟩ UPNP_E_SUCCESS)).table = _
          rw [register, hfree]
          dsimp only
          rw [if_neg (natCast_ne_outOf k), Int.toNat_natCast]
          rfl
        rw [htable, hkn]
        rcases Nat.eq_or_lt_of_le hle with rfl | hlt
        · rw [Function.update_self]
          exact Option.some_ne_none _
        · rw [Function.update_of_ne (Nat.ne_of_lt hlt)]
          exact hfilled i hi (Nat.le_of_lt_succ hlt)
      · exact absurd ⟨n + 1, Nat.succ_pos n, hn, hnext⟩ hfull
    · refine ⟨s, hs, fun i hi hle ↦ ?_⟩
      rcases Nat.eq_or_lt_of_le hle with rfl | hlt
      · exact hnext
      · exact hfilled i hi (Nat.le_of_lt_succ hlt)

end Upnp.Api.Registration
