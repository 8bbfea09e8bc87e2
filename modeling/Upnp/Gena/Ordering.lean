import Upnp.Gena.RequestInvariant

/-!
# Event ordering

The invariant holds along every run in which `tpool_Schedule` and
`copy_subscription` succeed and no key is given out while a pending event still
carries it.  Then the jobs of a subscription carry exactly the keys that it has
given out and not yet sent, and they are sent in order.

Where `tpool_Schedule` fails the key has been consumed already, so no job
carries it, and every later event of that subscription waits for it.
-/

namespace Upnp.Gena

open Upnp.Lib

variable {samePath : CString → CString → Bool} {s s' : State} {l : Loc} {sub : Subscription}

/-- A worker takes a job. -/
theorem Inv.start (hI : Inv s) {t : NotifyThreadStruct} (hj : ⟨t, .queued⟩ ∈ s.pool) :
    Inv ((s.take ⟨t, .queued⟩).put t (some .running)) := by
  have hpool := (Multiset.cons_erase hj).symm
  refine hI.frame hI.active hI.nodup
    (fun l a ha ↦ ⟨a, ha, rfl⟩) rfl (fun _ _ _ hr ↦ hr) ?_ (fun e he ↦ .inl he) ?_
  · intro j hj'
    rcases Multiset.mem_cons.mp hj' with rfl | hj'
    · exact .inl ⟨_, hj, rfl⟩
    · exact .inl ⟨j, Multiset.mem_of_mem_erase hj', rfl⟩
  · intro l a ha
    obtain ⟨m, k, h⟩ := hI.stream l a ha
    refine ⟨m, k, ?_⟩
    by_cases heq : t.sid = a.sid
    · rw [← heq] at h ⊢
      rw [State.jobsOf_self (j := ⟨t, .queued⟩) hpool] at h
      rw [State.jobsOf_self (j := ⟨t, .running⟩) rfl]
      exact h.move rfl rfl rfl
    · have hjobs : ((s.take ⟨t, .queued⟩).put t (some .running)).jobsOf a.sid = s.jobsOf a.sid := by
        refine Eq.trans ?_ (s.jobsOf_erase (j := ⟨t, .queued⟩) heq)
        exact Multiset.filter_cons_of_neg _ (by simpa using heq)
      rw [hjobs]
      exact h

/-- The calls of an action to `tpool_Schedule` and `copy_subscription` succeed. -/
def Action.Schedules : Action → Prop
  | .check env _ => env.copyOk = true ∧ env.schedule = 0
  | .genaInitNotify env .. => env.schedule = 0
  | .genaInitNotifyExt env .. => env.schedule = 0
  | .genaNotifyAll env .. => ∀ i, env.schedule i = 0
  | .genaNotifyAllExt env .. => ∀ i, env.schedule i = 0
  | _ => True

/-- The keys that an action gives out are not on pending jobs of the subscription. -/
def Action.KeysFree (s : State) : Action → Prop
  | .genaNotifyAll _ _ h udn servId | .genaNotifyAllExt _ _ h udn servId =>
    ∀ l svc, s.lookup h servId udn = some (l, svc) →
      ∀ a ∈ svc.subscriptionList, a.active → s.KeyFree a
  | _ => True

/-- An action that neither fails to queue a job nor gives out a key that is still pending. -/
def Action.Safe (s : State) (a : Action) : Prop := a.Schedules ∧ a.KeysFree s

theorem inv_of_initial (h : s.Initial) : Inv s := by
  have hservice : ∀ l, s.service l = none := by
    intro l
    simp [State.service, State.device, h.1]
  have hsubs : ∀ l, s.subs l = [] := fun l ↦ by simp [State.subs, hservice]
  exact {
    active := by simp [hservice]
    nodup := by simp [hsubs]
    disjoint := by simp [hsubs]
    known := by simp [hsubs]
    poolKnown := by simp [h.2.1]
    sendsKnown := by simp [h.2.2.2]
    resolves := by simp [hsubs]
    stream := by simp [hsubs] }

/-- Every safe action keeps the invariant. -/
theorem Inv.step (hI : Inv s) {a : Action} (hsafe : a.Safe s)
    (h : step samePath s a = some s') : Inv s' := by
  obtain ⟨hsched, hfree⟩ := hsafe
  cases a with
  | register k info =>
    simp only [Gena.step] at h
    split at h
    · rename_i hk
      rw [← Option.some.inj h]
      exact hI.register hk.2.2.2
    · simp at h
  | genaUnregisterDevice k => exact Option.some.inj h ▸ hI.genaUnregisterDevice k
  | freeHandle k => exact Option.some.inj h ▸ hI.freeHandle k
  | setMaxSubscriptions k m => exact Option.some.inj h ▸ hI.setMaxSubscriptions k m
  | subscribe env request =>
    simp only [Gena.step] at h
    split at h
    · simp at h
    · rename_i hfresh
      rw [← Option.some.inj h]
      exact hI.genaSubscriptionRequest hfresh request
  | renew env request uninit => exact Option.some.inj h ▸ hI.genaRenewRequest env request uninit
  | unsubscribe env request uninit =>
    exact Option.some.inj h ▸ hI.genaUnsubscribeRequest env request uninit
  | genaInitNotify env vars k udn servId sid =>
    exact Option.some.inj h ▸ hI.initNotify hsched _ k udn servId sid
  | genaInitNotifyExt env printed k udn servId sid =>
    exact Option.some.inj h ▸ hI.initNotify hsched _ k udn servId sid
  | genaNotifyAll env vars k udn servId =>
    exact Option.some.inj h ▸ hI.notifyAll hsched _ k udn servId hfree
  | genaNotifyAllExt env printed k udn servId =>
    exact Option.some.inj h ▸ hI.notifyAll hsched _ k udn servId hfree
  | start t =>
    simp only [Gena.step] at h
    split at h
    · rename_i hj
      rw [← Option.some.inj h]
      exact hI.start hj
    · simp at h
  | check env t =>
    simp only [Gena.step] at h
    split at h
    · rename_i hj
      rw [← Option.some.inj h]
      exact hI.check hj hsched.1 hsched.2
    · simp at h
  | finish t sub_copy now return_code =>
    simp only [Gena.step] at h
    split at h
    · rename_i hj
      rw [← Option.some.inj h]
      exact hI.finish now return_code hj
    · simp at h

theorem inv_inductive : (machine samePath).Inductive (fun s a ↦ a.Safe s) Inv where
  init _ h := inv_of_initial h
  step _ _ _ hI hsafe h := hI.step hsafe h

/-! ## Results -/

/-- Fewer than `2^31 - 1` events are pending for each subscription. -/
def State.Bounded (s : State) : Prop := ∀ l, ∀ a ∈ s.subs l, (s.jobsOf a.sid).card < keyPeriod

/-- With bounded pending events the keys given out are free. -/
theorem Inv.keysFree (hI : Inv s) (hb : s.Bounded) (a : Action) : a.KeysFree s := by
  have : ∀ h udn servId l svc, s.lookup h servId udn = some (l, svc) →
      ∀ a ∈ svc.subscriptionList, a.active → s.KeyFree a := by
    intro h udn servId l svc hl a ha _
    have ha : a ∈ s.subs l := by rwa [State.subs_eq (State.lookup_some hl).2]
    obtain ⟨m, k, hs⟩ := hI.stream l a ha
    exact hs.eventKey_notMem (hs.card ▸ hb l a ha)
  cases a with
  | genaNotifyAll _ _ h udn servId => exact this h udn servId
  | genaNotifyAllExt _ _ h udn servId => exact this h udn servId
  | _ => trivial

/-- Bounded runs are safe. -/
theorem inv_of_bounded
    (h : (machine samePath).Reach (fun s a ↦ a.Schedules ∧ s.Bounded) s) : Inv s := by
  induction h with
  | init h => exact inv_of_initial h
  | step _ hok hs hI => exact hI.step ⟨hok.1, hI.keysFree hok.2 _⟩ hs

theorem bounded_of_card (h : s.pool.card < keyPeriod) : s.Bounded := fun _ _ _ ↦
  (Multiset.card_le_card (Multiset.filter_le _ _)).trans_lt h

/-! ### A device with one subscriber -/

/-- The state of a library that was just initialised. -/
def State.empty : State where
  handleTable _ := none
  pool := 0
  counters _ := none
  nextCounter := 0
  sids := []
  sends := []

theorem State.initial_empty : State.empty.Initial := ⟨fun _ ↦ rfl, rfl, rfl, rfl⟩

def lampDevice : HandleInfo where
  hType := .HND_DEVICE
  serviceTable := [⟨"power".toList, "uuid:lamp".toList, some "/power".toList, true, 0, []⟩]
  maxSubscriptions := -1
  maxSubscriptionTimeOut := -1

def lampRequest : HttpRequest where
  header name :=
    if name = "NT".toList then some ⟨"upnp:event".toList, []⟩
    else if name = "CALLBACK".toList then some ⟨"<http://control/>".toList, []⟩
    else none
  pathquery := "/power".toList

def lampSubscription : Subscription where
  sid := "uuid:1".toList
  eventKey := 1
  toSendEventKey := 0
  expireTime := 1801
  active := true
  deliveryURLs := ["<http://control/>".toList]

def lampRegister : Action := .register 1 lampDevice

def lampSubscribe : Action :=
  .subscribe ⟨0, 0, true, true, fun t ↦ some [t], true, "1".toList⟩ lampRequest

/-- The first event of the subscription, over the result of `tpool_Schedule`. -/
def lampNotify (schedule : Int) : Action :=
  .genaInitNotify ⟨0, true, true, true, true, schedule⟩ [] 1 "uuid:lamp".toList "power".toList
    "uuid:1".toList

/-- Runs with the one event satisfy a condition that its steps do. -/
theorem reach_lamp (ok : State → Action → Prop) (schedule : Int) {s₁ s₂ s₃ : State}
    (h₁ : step (· == ·) State.empty lampRegister = some s₁)
    (h₂ : step (· == ·) s₁ lampSubscribe = some s₂)
    (h₃ : step (· == ·) s₂ (lampNotify schedule) = some s₃) (hok₁ : ok State.empty lampRegister)
    (hok₂ : ok s₁ lampSubscribe) (hok₃ : ok s₂ (lampNotify schedule)) :
    (machine (· == ·)).Reach ok s₃ :=
  (((Machine.Reach.init State.initial_empty).step hok₁ h₁).step hok₂ h₂).step hok₃ h₃

/-! ### Order -/

/-- While fewer than `2^31 - 1` events are pending for each subscription and `tpool_Schedule`
succeeds, the jobs of a live subscription carry exactly the keys from `ToSendEventKey` up to
`eventKey`, each once; at most one of them is sending; and sends begin in the order of the
keys. -/
theorem event_ordering
    (h : (machine samePath).Reach (fun s a ↦ a.Schedules ∧ s.Bounded) s) (hb : s.Bounded)
    (hsub : sub ∈ s.subs l) :
    (∀ key, (∃ j ∈ s.jobsOf sub.sid, j.key = key) ↔
      key ∈ cyclicInterval sub.toSendEventKey sub.eventKey) ∧
    ((s.jobsOf sub.sid).map Job.key).Nodup ∧
    (s.jobsOf sub.sid).countP (·.isSending) ≤ 1 ∧
    ∃ n, s.sentKeys sub.sid = (List.range n).map keyAt := by
  obtain ⟨m, k, hs⟩ := (inv_of_bounded h).stream l sub hsub
  exact ⟨hs.mem_keys_iff (hs.card ▸ hb l sub hsub), hs.nodup, hs.countP_isSending_le, _, hs.order⟩

theorem event_ordering_lamp : ∃ s : State, lampSubscription ∈ s.subs (1, 0) ∧
    (s.jobsOf "uuid:1".toList).card = 1 ∧
    (∀ key, (∃ j ∈ s.jobsOf "uuid:1".toList, j.key = key) ↔ key ∈ cyclicInterval 0 1) ∧
    ((s.jobsOf "uuid:1".toList).map Job.key).Nodup ∧
    (s.jobsOf "uuid:1".toList).countP (·.isSending) ≤ 1 ∧
    ∃ n, s.sentKeys "uuid:1".toList = (List.range n).map keyAt := by
  have hreach := reach_lamp (fun s a ↦ a.Schedules ∧ s.Bounded) 0 rfl rfl rfl
    ⟨trivial, bounded_of_card (by decide)⟩ ⟨trivial, bounded_of_card (by decide)⟩
    ⟨rfl, bounded_of_card (by decide)⟩
  exact ⟨_, by decide +kernel, by decide +kernel,
    event_ordering hreach (bounded_of_card (by decide))
      (show lampSubscription ∈ State.subs _ (1, 0) by decide +kernel)⟩

/-! ### Loss -/

/-- Along safe runs every key that a live subscription has given out and not yet sent is on one
of its jobs, and `eventKey` is ahead of `ToSendEventKey` by the number of jobs. -/
theorem no_key_lost (h : (machine samePath).Reach (fun s a ↦ a.Safe s) s) (hsub : sub ∈ s.subs l) :
    (∀ key ∈ cyclicInterval sub.toSendEventKey sub.eventKey, ∃ j ∈ s.jobsOf sub.sid, j.key = key) ∧
    sub.eventKey = bumpKey^[(s.jobsOf sub.sid).card] sub.toSendEventKey := by
  obtain ⟨m, k, hs⟩ := (h.invariant inv_inductive).stream l sub hsub
  refine ⟨fun key ↦ hs.exists_job, ?_⟩
  rw [hs.next, hs.last, hs.card, iterate_bumpKey_keyAt]

theorem no_key_lost_lamp : ∃ s : State, lampSubscription ∈ s.subs (1, 0) ∧
    (∀ key ∈ cyclicInterval 0 1, ∃ j ∈ s.jobsOf "uuid:1".toList, j.key = key) ∧
    (1 : Int) = bumpKey^[(s.jobsOf "uuid:1".toList).card] 0 := by
  have hreach := reach_lamp (fun s a ↦ a.Safe s) 0 rfl rfl rfl ⟨trivial, trivial⟩
    ⟨trivial, trivial⟩ ⟨rfl, trivial⟩
  exact ⟨_, by decide +kernel,
    no_key_lost hreach (show lampSubscription ∈ State.subs _ (1, 0) by decide +kernel)⟩

/-- A first event that cannot be queued takes key `0` with it. -/
theorem key_lost_of_schedule_fails : ¬ ∀ s : State, (machine (· == ·)).Reachable s →
    ∀ l, ∀ sub ∈ s.subs l, ∀ key ∈ cyclicInterval sub.toSendEventKey sub.eventKey,
      ∃ j ∈ s.jobsOf sub.sid, j.key = key := by
  intro hall
  have hreach := reach_lamp (fun _ _ ↦ True) (-1) rfl rfl rfl trivial trivial trivial
  obtain ⟨j, hj, -⟩ := hall _ hreach (1, 0) lampSubscription (by decide +kernel) 0
    ⟨0, rfl, by decide⟩
  exact absurd (Multiset.card_pos_iff_exists_mem.mpr ⟨j, hj⟩) (by decide +kernel)

end Upnp.Gena
