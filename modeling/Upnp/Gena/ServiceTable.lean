import Mathlib.Data.List.Basic
import Upnp.Lib.CString

/-!
# The service table and its subscription lists

The part of `service_table.c` that the eventing code works on: a device's
services, each with the list of its subscriptions, and the look-ups that unlink
expired subscriptions on the way.  Here a subscription list is a Lean list; the
pointers behind it are the subject of `Upnp.Gena.Linked`.
-/

namespace Upnp.Gena

open Upnp.Lib

/-- `subscription`, without its link. -/
structure Subscription where
  sid : CString
  /-- The key of the next event. -/
  eventKey : Int
  /-- The key of the next event to send. -/
  toSendEventKey : Int
  /-- `0` for a subscription that never expires. -/
  expireTime : Int
  active : Bool
  deliveryURLs : List CString
deriving DecidableEq, Repr, Inhabited

/-- The test of the look-ups for a subscription whose time is over. -/
def Subscription.expired (now : Int) (s : Subscription) : Bool :=
  s.expireTime ≠ 0 && s.expireTime < now

/-- `service_info`: the fields that eventing reads. -/
structure ServiceInfo where
  serviceId : CString
  udn : CString
  eventURL : Option CString
  active : Bool
  totalSubscriptions : Int
  subscriptionList : List Subscription
deriving DecidableEq, Repr

/-- `FindServiceId`: the position of the first service with this id and device. -/
def findServiceId (table : List ServiceInfo) (serviceId udn : CString) : Option Nat :=
  table.findIdx? fun svc ↦ serviceId = svc.serviceId && udn = svc.udn

/-- `FindServiceEventURLPath`, over the comparison of a stored event URL with the path of a
request. -/
def findServiceEventURLPath (samePath : CString → CString → Bool) (table : List ServiceInfo)
    (eventURLPath : CString) : Option Nat :=
  table.findIdx? fun svc ↦ svc.eventURL.any (samePath · eventURLPath)

namespace ServiceInfo

/-- A write to the first element that satisfies a test. -/
def modifyFirst {α : Type*} (p : α → Bool) (f : α → α) : List α → List α
  | [] => []
  | a :: l => if p a then f a :: l else a :: modifyFirst p f l

/-- A write through the pointer that a look-up of `sid` returned. -/
def modifySID (sid : CString) (f : Subscription → Subscription) (svc : ServiceInfo) :
    ServiceInfo :=
  { svc with subscriptionList := modifyFirst (·.sid = sid) f svc.subscriptionList }

@[simp] theorem modifySID_serviceId (sid : CString) (f : Subscription → Subscription)
    (svc : ServiceInfo) : (svc.modifySID sid f).serviceId = svc.serviceId := rfl

@[simp] theorem modifySID_udn (sid : CString) (f : Subscription → Subscription)
    (svc : ServiceInfo) : (svc.modifySID sid f).udn = svc.udn := rfl

@[simp] theorem modifySID_active (sid : CString) (f : Subscription → Subscription)
    (svc : ServiceInfo) : (svc.modifySID sid f).active = svc.active := rfl

end ServiceInfo

/-- `RemoveSubscriptionSID`: unlinks and frees the first subscription with this SID. -/
def removeSubscriptionSID (sid : CString) (svc : ServiceInfo) : ServiceInfo :=
  if svc.subscriptionList.any (·.sid = sid) then
    { svc with
      subscriptionList := svc.subscriptionList.eraseP (·.sid = sid)
      totalSubscriptions := svc.totalSubscriptions - 1 }
  else svc

/-- `GetSubscriptionSID`: the subscription with this SID, which is unlinked instead when it has
expired. -/
def getSubscriptionSID (now : Int) (sid : CString) (svc : ServiceInfo) :
    ServiceInfo × Option Subscription :=
  match svc.subscriptionList.find? (·.sid = sid) with
  | none => (svc, none)
  | some found =>
    if found.expired now then (removeSubscriptionSID sid svc, none) else (svc, some found)

section Lemmas

variable (svc : ServiceInfo) (sid : CString) (now : Int)

@[simp] theorem removeSubscriptionSID_serviceId :
    (removeSubscriptionSID sid svc).serviceId = svc.serviceId := by
  unfold removeSubscriptionSID; split <;> rfl

@[simp] theorem removeSubscriptionSID_udn : (removeSubscriptionSID sid svc).udn = svc.udn := by
  unfold removeSubscriptionSID; split <;> rfl

@[simp] theorem removeSubscriptionSID_active :
    (removeSubscriptionSID sid svc).active = svc.active := by
  unfold removeSubscriptionSID; split <;> rfl

/-- Removal erases the first node with the SID, if there is one. -/
theorem removeSubscriptionSID_list :
    (removeSubscriptionSID sid svc).subscriptionList =
      svc.subscriptionList.eraseP (·.sid = sid) := by
  unfold removeSubscriptionSID
  split
  · rfl
  · rename_i h
    exact (List.eraseP_of_forall_not (by simpa using h)).symm

/-- What a look-up can do: find nothing, find and free an expired node, or find a live one. -/
theorem getSubscriptionSID_cases :
    (getSubscriptionSID now sid svc = (svc, none) ∧
      ∀ s ∈ svc.subscriptionList, s.sid ≠ sid) ∨
    (∃ s ∈ svc.subscriptionList, s.sid = sid ∧ s.expired now ∧
      getSubscriptionSID now sid svc = (removeSubscriptionSID sid svc, none)) ∨
    (∃ s ∈ svc.subscriptionList, s.sid = sid ∧ ¬ s.expired now ∧
      svc.subscriptionList.find? (·.sid = sid) = some s ∧
      getSubscriptionSID now sid svc = (svc, some s)) := by
  unfold getSubscriptionSID
  cases h : svc.subscriptionList.find? (·.sid = sid) with
  | none => exact .inl ⟨rfl, by simpa using h⟩
  | some s =>
    have hmem := List.mem_of_find?_eq_some h
    have hsid : s.sid = sid := by simpa using List.find?_some h
    by_cases he : s.expired now
    · exact .inr (.inl ⟨s, hmem, hsid, he, by simp [he]⟩)
    · exact .inr (.inr ⟨s, hmem, hsid, he, rfl, by simp [he]⟩)

/-- A write that keeps what `g` reads keeps it along the list. -/
theorem map_modifyFirst {α β : Type*} {p : α → Bool} {f : α → α} {g : α → β}
    (hg : ∀ a, g (f a) = g a) (l : List α) :
    (ServiceInfo.modifyFirst p f l).map g = l.map g := by
  induction l with
  | nil => rfl
  | cons c l ih => unfold ServiceInfo.modifyFirst; split <;> simp [hg, ih]

theorem modifyFirst_of_forall_not {α : Type*} {p : α → Bool} {f : α → α} {l : List α}
    (h : ∀ a ∈ l, ¬ p a) : ServiceInfo.modifyFirst p f l = l := by
  induction l with
  | nil => rfl
  | cons c l ih =>
    have hc : ¬ p c := h c (by simp)
    simp [ServiceInfo.modifyFirst, hc, ih fun a ha ↦ h a (by simp [ha])]

variable {svc sid}

/-- With distinct SIDs a write to the subscription `sid` changes it and no other. -/
theorem mem_modifySID {f : Subscription → Subscription}
    (hnd : (svc.subscriptionList.map (·.sid)).Nodup) {b : Subscription}
    (hb : b ∈ (svc.modifySID sid f).subscriptionList) :
    (b ∈ svc.subscriptionList ∧ b.sid ≠ sid) ∨
      ∃ a ∈ svc.subscriptionList, a.sid = sid ∧ b = f a := by
  change b ∈ ServiceInfo.modifyFirst _ f svc.subscriptionList at hb
  generalize svc.subscriptionList = l at hb hnd ⊢
  induction l with
  | nil => simp [ServiceInfo.modifyFirst] at hb
  | cons c l ih =>
    rw [List.map_cons, List.nodup_cons] at hnd
    unfold ServiceInfo.modifyFirst at hb
    split at hb
    · rename_i hc
      have hc : c.sid = sid := by simpa using hc
      rcases List.mem_cons.mp hb with rfl | hb
      · exact .inr ⟨c, by simp, hc, rfl⟩
      · refine .inl ⟨by simp [hb], fun heq ↦ hnd.1 ?_⟩
        rw [hc, ← heq]
        exact List.mem_map_of_mem hb
    · rename_i hc
      rcases List.mem_cons.mp hb with rfl | hb
      · exact .inl ⟨by simp, by simpa using hc⟩
      · exact (ih hb hnd.2).imp (fun h ↦ ⟨by simp [h.1], h.2⟩)
          fun ⟨a, ha, h⟩ ↦ ⟨a, by simp [ha], h⟩

theorem map_sid_modifySID {f : Subscription → Subscription} (hf : ∀ a, (f a).sid = a.sid) :
    (svc.modifySID sid f).subscriptionList.map (·.sid) = svc.subscriptionList.map (·.sid) :=
  map_modifyFirst hf _

theorem modifyFirst_any {α : Type*} {p : α → Bool} {f : α → α} (hp : ∀ a, p (f a) = p a)
    (l : List α) : (ServiceInfo.modifyFirst p f l).any p = l.any p := by
  induction l with
  | nil => rfl
  | cons c l ih => unfold ServiceInfo.modifyFirst; split <;> simp [hp, ih]

theorem eraseP_modifyFirst {α : Type*} {p : α → Bool} {f : α → α} (hp : ∀ a, p (f a) = p a)
    (l : List α) : (ServiceInfo.modifyFirst p f l).eraseP p = l.eraseP p := by
  induction l with
  | nil => rfl
  | cons c l ih =>
    unfold ServiceInfo.modifyFirst
    by_cases hc : p c
    · simp [hc, hp]
    · simp [hc, ih]

/-- A write before the removal of the node written to is lost with it. -/
theorem removeSubscriptionSID_modifySID {f : Subscription → Subscription}
    (hf : ∀ a, (f a).sid = a.sid) :
    removeSubscriptionSID sid (svc.modifySID sid f) = removeSubscriptionSID sid svc := by
  let p (a : Subscription) : Bool := a.sid = sid
  have hp : ∀ a, p (f a) = p a := by simp [p, hf]
  unfold removeSubscriptionSID ServiceInfo.modifySID
  change (if (ServiceInfo.modifyFirst p f svc.subscriptionList).any p then _ else _) =
    if svc.subscriptionList.any p then _ else _
  rw [modifyFirst_any hp]
  split
  · rw [eraseP_modifyFirst hp]
  · rename_i h
    rw [modifyFirst_of_forall_not fun a ha hp ↦ h (List.any_eq_true.mpr ⟨a, ha, hp⟩)]

theorem modifyFirst_modifyFirst {α : Type*} {p : α → Bool} {f g : α → α}
    (hp : ∀ a, p (f a) = p a) (l : List α) :
    ServiceInfo.modifyFirst p g (ServiceInfo.modifyFirst p f l) =
      ServiceInfo.modifyFirst p (g ∘ f) l := by
  induction l with
  | nil => rfl
  | cons c l ih =>
    by_cases hc : p c
    · simp [ServiceInfo.modifyFirst, hc, hp]
    · simp [ServiceInfo.modifyFirst, hc, ih]

/-- Two writes to one subscription. -/
theorem modifySID_modifySID {f g : Subscription → Subscription} (hf : ∀ a, (f a).sid = a.sid) :
    (svc.modifySID sid f).modifySID sid g = svc.modifySID sid (g ∘ f) := by
  let p (a : Subscription) : Bool := a.sid = sid
  have hp : ∀ a, p (f a) = p a := by simp [p, hf]
  exact congrArg (fun l ↦ { svc with subscriptionList := l })
    (modifyFirst_modifyFirst hp svc.subscriptionList)

/-- Distinct SIDs: after removal the SID is gone. -/
theorem sid_ne_of_mem_remove (hnd : (svc.subscriptionList.map (·.sid)).Nodup) {b : Subscription}
    (hb : b ∈ (removeSubscriptionSID sid svc).subscriptionList) : b.sid ≠ sid := by
  rw [removeSubscriptionSID_list] at hb
  generalize svc.subscriptionList = l at hb hnd
  induction l with
  | nil => simp at hb
  | cons c l ih =>
    rw [List.map_cons, List.nodup_cons] at hnd
    by_cases hc : c.sid = sid
    · rw [List.eraseP_cons_of_pos (by simpa using hc)] at hb
      rintro rfl
      exact hnd.1 (hc ▸ List.mem_map_of_mem hb)
    · rw [List.eraseP_cons_of_neg (by simpa using hc)] at hb
      rcases List.mem_cons.mp hb with rfl | hb
      · exact hc
      · exact ih hb hnd.2

theorem removeSubscriptionSID_sublist :
    (removeSubscriptionSID sid svc).subscriptionList.Sublist svc.subscriptionList := by
  rw [removeSubscriptionSID_list]
  exact List.eraseP_sublist

end Lemmas

end Upnp.Gena
