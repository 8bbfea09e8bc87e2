import Mathlib.Tactic.Common
import Upnp.Gena.System

/-!
# Frame lemmas of the handle table

Reading a service after a write to one, and the look-up of a service by its id
and device, which a write to the subscription list of a service does not move.
-/

namespace Upnp.Gena

open Upnp.Lib

namespace State

variable {s s' : State} {l l' : Loc} {svc svc' : ServiceInfo}

/-- The subscriptions of the service at a location. -/
def subs (s : State) (l : Loc) : List Subscription :=
  ((s.service l).map (·.subscriptionList)).getD []

theorem subs_eq (h : s.service l = some svc) : s.subs l = svc.subscriptionList := by
  simp [subs, h]

/-- The table of a device with one service replaced. -/
def setInfo (info : HandleInfo) (i : Nat) (svc : ServiceInfo) : HandleInfo :=
  { info with serviceTable := info.serviceTable.set i svc }

theorem device_setService (s : State) (l : Loc) (svc : ServiceInfo) (h : Int) :
    (s.setService l svc).device h =
      if h = l.1 then (s.device h).map (setInfo · l.2 svc) else s.device h := by
  unfold device setService
  split
  · simp
  · split
    · rename_i hh
      subst hh
      cases ht : s.handleTable l.1 with
      | none => simp [ht]
      | some info =>
        by_cases hd : info.hType = .HND_DEVICE <;> simp [Option.filter, ht, hd, setInfo]
    · rename_i hh
      simp [hh]

/-- A write is read back at its place and nowhere else. -/
theorem service_setService (hs : s.service l = some svc) :
    (s.setService l svc').service l' = if l' = l then some svc' else s.service l' := by
  obtain ⟨h, i⟩ := l
  obtain ⟨h', i'⟩ := l'
  unfold service at hs ⊢
  rw [device_setService]
  by_cases hh : h' = h
  · subst hh
    cases hd : s.device h' with
    | none => simp [hd] at hs
    | some info =>
      simp only [hd, Option.bind_some] at hs ⊢
      obtain ⟨hlt, -⟩ := List.getElem?_eq_some_iff.mp hs
      by_cases hi : i' = i
      · subst hi
        simp [setInfo, hlt]
      · have hne : ¬ i = i' := fun hc ↦ hi hc.symm
        simp [setInfo, hi, hne]
  · simp [hh]

theorem subs_setService (hs : s.service l = some svc) :
    (s.setService l svc').subs l' = if l' = l then svc'.subscriptionList else s.subs l' := by
  unfold subs
  rw [service_setService hs]
  split <;> simp

/-- What a look-up found. -/
theorem lookup_some {h : Int} {servId udn : CString} (hl : s.lookup h servId udn = some (l, svc)) :
    l.1 = h ∧ s.service l = some svc := by
  unfold lookup at hl
  obtain ⟨info, hd, hl⟩ := Option.bind_eq_some_iff.mp hl
  obtain ⟨i, -, hl⟩ := Option.bind_eq_some_iff.mp hl
  obtain ⟨svc₀, hsvc, heq⟩ := Option.map_eq_some_iff.mp hl
  obtain ⟨rfl, rfl⟩ := Prod.mk.injEq .. ▸ heq
  exact ⟨rfl, by simp [service, hd, hsvc]⟩

/-- A service that the test of a search does not tell from the new one keeps the result. -/
theorem findIdx?_set {α : Type*} (p : α → Bool) (xs : List α) (i : Nat) (a b : α)
    (ha : xs[i]? = some a) (hp : p b = p a) : (xs.set i b).findIdx? p = xs.findIdx? p := by
  induction xs generalizing i with
  | nil => simp at ha
  | cons x xs ih =>
    cases i with
    | zero =>
      simp only [List.getElem?_cons_zero, Option.some.injEq] at ha
      subst ha
      simp [List.findIdx?_cons, hp]
    | succ i =>
      simp only [List.getElem?_cons_succ] at ha
      simp [List.findIdx?_cons, ih i ha]

/-- A look-up after a write that keeps the id and the device of the service. -/
theorem lookup_setService (hs : s.service l = some svc) (hid : svc'.serviceId = svc.serviceId)
    (hudn : svc'.udn = svc.udn) (h : Int) (servId udn : CString) :
    (s.setService l svc').lookup h servId udn =
      (s.lookup h servId udn).map fun r ↦ (r.1, if r.1 = l then svc' else r.2) := by
  obtain ⟨h₀, i₀⟩ := l
  unfold lookup
  rw [device_setService]
  by_cases hh : h = h₀
  · subst hh
    cases hd : s.device h with
    | none => simp [service, hd] at hs
    | some info =>
      have hget : info.serviceTable[i₀]? = some svc := by simpa [service, hd] using hs
      obtain ⟨hlt, -⟩ := List.getElem?_eq_some_iff.mp hget
      have hfind : findServiceId (setInfo info i₀ svc').serviceTable servId udn =
          findServiceId info.serviceTable servId udn :=
        findIdx?_set _ _ _ _ _ hget (by rw [hid, hudn])
      simp only [if_true, Option.map_some, Option.bind_some, hfind]
      cases findServiceId info.serviceTable servId udn with
      | none => simp
      | some i =>
        simp only [Option.bind_some, setInfo]
        by_cases hi : i = i₀
        · subst hi; simp [hlt]
        · have hne : ¬ i₀ = i := fun hc ↦ hi hc.symm
          cases hg : info.serviceTable[i]? <;> simp [hg, hi, hne]
  · simp only [hh, if_false]
    cases hd : s.device h with
    | none => simp
    | some info =>
      simp only [Option.bind_some]
      cases findServiceId info.serviceTable servId udn with
      | none => simp
      | some i => cases hg : info.serviceTable[i]? <;> simp [hg, hh]

/-- The service that a job's event belongs to is the one at `l`. -/
def Resolves (s : State) (t : NotifyThreadStruct) (l : Loc) : Prop :=
  ∃ svc, s.lookup t.deviceHandle t.servId t.udn = some (l, svc)

theorem Resolves.setService {t : NotifyThreadStruct} (hr : s.Resolves t l')
    (hs : s.service l = some svc) (hid : svc'.serviceId = svc.serviceId)
    (hudn : svc'.udn = svc.udn) : (s.setService l svc').Resolves t l' := by
  obtain ⟨v, hv⟩ := hr
  exact ⟨_, by rw [lookup_setService hs hid hudn, hv]; rfl⟩

@[simp] theorem setService_pool : (s.setService l svc).pool = s.pool := rfl
@[simp] theorem setService_sids : (s.setService l svc).sids = s.sids := rfl
@[simp] theorem setService_sends : (s.setService l svc).sends = s.sends := rfl

@[simp] theorem freeNotifyStruct_handleTable (t : NotifyThreadStruct) :
    (freeNotifyStruct s t).handleTable = s.handleTable := by
  unfold freeNotifyStruct; split <;> rfl

@[simp] theorem freeNotifyStruct_pool (t : NotifyThreadStruct) :
    (freeNotifyStruct s t).pool = s.pool := by
  unfold freeNotifyStruct; split <;> rfl

@[simp] theorem freeNotifyStruct_sids (t : NotifyThreadStruct) :
    (freeNotifyStruct s t).sids = s.sids := by
  unfold freeNotifyStruct; split <;> rfl

@[simp] theorem freeNotifyStruct_sends (t : NotifyThreadStruct) :
    (freeNotifyStruct s t).sends = s.sends := by
  unfold freeNotifyStruct; split <;> rfl

section Congr

variable (h : s'.handleTable = s.handleTable)
include h

theorem device_congr (k : Int) : s'.device k = s.device k := by simp [device, h]

theorem service_congr (l : Loc) : s'.service l = s.service l := by
  simp [service, device_congr h]

theorem subs_congr (l : Loc) : s'.subs l = s.subs l := by simp [subs, service_congr h]

theorem lookup_congr (k : Int) (servId udn : CString) :
    s'.lookup k servId udn = s.lookup k servId udn := by simp [lookup, device_congr h]

end Congr

end State

end Upnp.Gena
