import Upnp.Gena.Sections

/-!
# Issuing events keeps the invariant

`genaInitNotify` issues the first event of a subscription and marks it active;
`genaNotifyAll` issues one event to every active subscription of a service.
-/

namespace Upnp.Gena

open Upnp.Lib

variable {s s' : State} {l : Loc} {svc svc' : ServiceInfo}

/-! ## `genaInitNotify` -/

/-- The initial notification is on its way or has failed. -/
def Subscription.activate (sub : Subscription) : Subscription := { sub with active := true }

/-- The first event is issued. -/
def Subscription.issueFirst (sub : Subscription) : Subscription :=
  { sub with active := true, eventKey := wrap32 (sub.eventKey + 1) }

/-- The state after a thread was queued with a counter of its own. -/
def State.queue (s : State) (t : NotifyThreadStruct) : State :=
  { s with
    pool := ⟨t, .queued⟩ ::ₘ s.pool
    counters := Function.update s.counters s.nextCounter (some 1)
    nextCounter := s.nextCounter + 1 }

/-- What `genaInitNotify` can do when `tpool_Schedule` succeeds. -/
theorem initNotify_cases {env : InitEnv} (hsched : env.schedule = 0)
    (propertySet : Except Int CString) (h : Int) (udn servId sid : CString) :
    (initNotify env propertySet s h udn servId sid).1 = s ∨
    ∃ l svc, s.lookup h servId udn = some (l, svc) ∧
      ((initNotify env propertySet s h udn servId sid).1 =
        s.setService l (removeSubscriptionSID sid svc) ∨
      ∃ sub ∈ svc.subscriptionList, sub.sid = sid ∧
        ((initNotify env propertySet s h udn servId sid).1 =
          s.setService l (svc.modifySID sid Subscription.activate) ∨
        (sub.active = false ∧ ∃ t : NotifyThreadStruct, t.sid = sid ∧ t.eventKey = sub.eventKey ∧
          t.deviceHandle = h ∧ t.servId = servId ∧ t.udn = udn ∧
          (initNotify env propertySet s h udn servId sid).1 =
            (s.setService l (svc.modifySID sid Subscription.issueFirst)).queue t))) := by
  unfold initNotify
  split
  · exact .inl rfl
  split
  · exact .inl rfl
  split
  · exact .inl rfl
  rename_i l svc hl
  have hs := (State.lookup_some hl).2
  split
  · rename_i svc' hget
    rcases getSubscriptionSID_cases svc sid env.now with
      ⟨hg, -⟩ | ⟨_, -, -, -, hg⟩ | ⟨_, -, -, -, -, hg⟩ <;> rw [hg] at hget
    · obtain ⟨rfl, -⟩ := Prod.mk.injEq .. ▸ hget
      exact .inl (State.setService_self hs)
    · obtain ⟨rfl, -⟩ := Prod.mk.injEq .. ▸ hget
      exact .inr ⟨l, svc, hl, .inl rfl⟩
    · simp at hget
  · rename_i svc' sub hget
    rcases getSubscriptionSID_cases svc sid env.now with
      ⟨hg, -⟩ | ⟨_, -, -, -, hg⟩ | ⟨a, hsub, hsid, -, -, hg⟩ <;> rw [hg] at hget
    · simp at hget
    · simp at hget
    · simp only [Prod.mk.injEq, Option.some.injEq] at hget
      obtain ⟨rfl, rfl⟩ := hget
      split
      · exact .inl (State.setService_self hs)
      rename_i hact
      refine .inr ⟨l, svc, hl, .inr ⟨a, hsub, hsid, ?_⟩⟩
      dsimp only
      split
      · exact .inl rfl
      split
      · exact .inl rfl
      rename_i ps _
      refine .inr ⟨by simpa using hact, ⟨notifyHeaders ps, ps, servId, udn, sid, a.eventKey,
        s.nextCounter, h⟩, rfl, rfl, rfl, rfl, rfl, ?_⟩
      rw [if_neg (by simp [hsched])]
      have hmod : ServiceInfo.modifySID sid
          (fun sub ↦ { sub with eventKey := wrap32 (sub.eventKey + 1) })
          (svc.modifySID sid Subscription.activate) =
            svc.modifySID sid Subscription.issueFirst := modifySID_modifySID fun _ ↦ rfl
      exact congrArg (fun v ↦ (s.setService l v).queue _) hmod

/-- `genaInitNotify` and `genaInitNotifyExt`, when `tpool_Schedule` succeeds. -/
theorem Inv.initNotify {env : InitEnv} (hI : Inv s) (hsched : env.schedule = 0)
    (propertySet : Except Int CString) (h : Int) (udn servId sid : CString) :
    Inv (Gena.initNotify env propertySet s h udn servId sid).1 := by
  rcases initNotify_cases (s := s) hsched propertySet h udn servId sid with
    heq | ⟨l, svc, hl, heq | ⟨sub, hsub, rfl, heq | ⟨hact, t, hsid, hkey, rfl, rfl, rfl, heq⟩⟩⟩ <;>
    rw [heq]
  · exact hI
  · exact hI.remove (State.lookup_some hl).2 sid
  · refine hI.modify (f := Subscription.activate) (State.lookup_some hl).2 hsub (fun _ ↦ rfl) rfl
      rfl (fun j hj ↦ .inl ⟨j, hj, rfl⟩) (fun e he ↦ .inl he) (fun _ _ ↦ ⟨rfl, rfl⟩) ?_
    exact fun m k h ↦ ⟨m, k, h.congr rfl rfl fun _ ↦ rfl⟩
  · refine hI.modify (f := Subscription.issueFirst) (State.lookup_some hl).2 hsub (fun _ ↦ rfl) rfl
      rfl ?_ (fun e he ↦ .inl he) ?_ ?_
    · intro j hj
      rcases Multiset.mem_cons.mp hj with rfl | hj
      · exact .inr ⟨hsid, svc, hl⟩
      · exact .inl ⟨j, hj, rfl⟩
    · intro sid hne
      refine ⟨?_, rfl⟩
      simp [State.jobsOf, State.queue, hsid, hne.symm]
    · intro m k h
      -- nothing was issued before, so the key given out is `0`
      have hmk := h.idle hact
      have hzero : sub.eventKey = 0 := by rw [h.last, hmk, keyAt_zero]
      refine ⟨m, k + 1, ?_⟩
      have hnew : Stream sub.issueFirst (⟨t, .queued⟩ ::ₘ s.jobsOf sub.sid)
          (s.sentKeys sub.sid) m (k + 1) := by
        refine h.issue rfl hkey (h.eventKey_notMem (by unfold keyPeriod; omega)) rfl ?_ rfl
        simp only [Subscription.issueFirst, hzero]
        decide
      simpa [State.jobsOf, State.sentKeys, State.queue, hsid] using hnew

/-! ## `genaNotifyAll` -/

/-- An event is issued to an active subscription. -/
def Subscription.issue (sub : Subscription) : Subscription :=
  { sub with eventKey := bumpKey sub.eventKey }

section Broadcast

variable {env : NotifyEnv} {mk : Subscription → NotifyThreadStruct}

/-- Threads are made for subscriptions of the list. -/
theorem mem_broadcast_queued {i : Nat} {subs : List Subscription} {t : NotifyThreadStruct}
    (h : t ∈ (broadcast env mk i subs).queued) : ∃ a ∈ subs, t = mk a := by
  induction subs generalizing i with
  | nil => simp [broadcast] at h
  | cons a rest ih =>
    unfold broadcast at h
    split at h
    · exact (ih h).imp fun b ⟨hb, ht⟩ ↦ ⟨by simp [hb], ht⟩
    split at h
    · exact (ih h).imp fun b ⟨hb, ht⟩ ↦ ⟨by simp [hb], ht⟩
    split at h
    · simp at h
    dsimp only at h
    split at h
    · simp at h
    · rcases List.mem_cons.mp h with rfl | h
      · exact ⟨a, by simp, rfl⟩
      · exact (ih h).imp fun b ⟨hb, ht⟩ ↦ ⟨by simp [hb], ht⟩

/-- The loop frees nodes and keeps the others in their order. -/
theorem broadcast_list_sublist (i : Nat) (subs : List Subscription) :
    ((broadcast env mk i subs).list.map (·.sid)).Sublist (subs.map (·.sid)) := by
  induction subs generalizing i with
  | nil => simp [broadcast]
  | cons a rest ih =>
    unfold broadcast
    split
    · exact (ih i).cons _
    split
    · exact (ih i).cons_cons _
    split
    · exact List.Sublist.refl _
    dsimp only
    split
    · exact List.Sublist.refl _
    · exact (ih (i + 1)).cons_cons _

/-- No thread carries a SID that the list does not have. -/
theorem broadcast_queued_filter_eq_nil (hmk : ∀ a, (mk a).sid = a.sid) {i : Nat}
    {subs : List Subscription} {sid : CString} (h : sid ∉ subs.map (·.sid)) :
    (broadcast env mk i subs).queued.filter (·.sid = sid) = [] := by
  rw [List.filter_eq_nil_iff]
  intro t ht
  obtain ⟨a, ha, rfl⟩ := mem_broadcast_queued ht
  have : a.sid ≠ sid := fun heq ↦ h (heq ▸ List.mem_map_of_mem ha)
  simpa [hmk] using this

/-- A subscription either stands as before and no thread was queued for it, or it was issued an
event, which one thread carries. -/
theorem mem_broadcast_list (hsched : ∀ i, env.schedule i = 0) (hmk : ∀ a, (mk a).sid = a.sid)
    {i : Nat} {subs : List Subscription} (hnd : (subs.map (·.sid)).Nodup) {b : Subscription}
    (hb : b ∈ (broadcast env mk i subs).list) :
    (b ∈ subs ∧ (broadcast env mk i subs).queued.filter (·.sid = b.sid) = []) ∨
      ∃ a ∈ subs, a.active ∧ b = a.issue ∧
        (broadcast env mk i subs).queued.filter (·.sid = b.sid) = [mk a] := by
  induction subs generalizing i with
  | nil => simp [broadcast] at hb
  | cons a rest ih =>
    rw [List.map_cons, List.nodup_cons] at hnd
    unfold broadcast at hb ⊢
    split at hb
    · rename_i he
      simp only [he, if_true]
      exact (ih hnd.2 hb).imp (fun h ↦ ⟨by simp [h.1], h.2⟩)
        fun ⟨c, hc, h⟩ ↦ ⟨c, by simp [hc], h⟩
    rename_i he
    split at hb
    · rename_i hact
      simp only [he, hact, if_true, Bool.false_eq_true, if_false]
      rcases List.mem_cons.mp hb with rfl | hb
      · exact .inl ⟨by simp, broadcast_queued_filter_eq_nil hmk hnd.1⟩
      · exact (ih hnd.2 hb).imp (fun h ↦ ⟨by simp [h.1], h.2⟩)
          fun ⟨c, hc, h⟩ ↦ ⟨c, by simp [hc], h⟩
    rename_i hact
    split at hb
    · rename_i halloc
      simp only [he, hact, halloc, if_true, Bool.false_eq_true, if_false]
      exact .inl ⟨hb, rfl⟩
    rename_i halloc
    simp only [he, hact, halloc, hsched, ne_eq, not_true, Bool.false_eq_true, if_false] at hb ⊢
    rcases List.mem_cons.mp hb with rfl | hb
    · refine .inr ⟨a, by simp, by simpa using hact, rfl, ?_⟩
      rw [List.filter_cons_of_pos (by simp [hmk])]
      exact congrArg _ (broadcast_queued_filter_eq_nil hmk hnd.1)
    · have hne : a.sid ≠ b.sid := by
        have hmem : b.sid ∈ rest.map (·.sid) :=
          (broadcast_list_sublist (i + 1) rest).subset (List.mem_map_of_mem hb)
        exact fun heq ↦ hnd.1 (heq ▸ hmem)
      rw [List.filter_cons_of_neg (by simpa [hmk] using hne)]
      exact (ih hnd.2 hb).imp (fun h ↦ ⟨by simp [h.1], h.2⟩)
        fun ⟨c, hc, h⟩ ↦ ⟨c, by simp [hc], h⟩

end Broadcast

/-- What `genaNotifyAll` can do: nothing, or the loop over the subscriptions of a service. -/
theorem notifyAll_cases (env : NotifyEnv) (propertySet : Except Int CString) (s : State) (h : Int)
    (udn servId : CString) :
    (notifyAll env propertySet s h udn servId).1 = s ∨
    ∃ l svc mk, s.lookup h servId udn = some (l, svc) ∧
      (∀ a, (mk a).sid = a.sid ∧ (mk a).eventKey = a.eventKey ∧ (mk a).deviceHandle = h ∧
        (mk a).servId = servId ∧ (mk a).udn = udn) ∧
      Writes s (notifyAll env propertySet s h udn servId).1 l svc
        { svc with
          subscriptionList := (broadcast env mk 0 svc.subscriptionList).list
          totalSubscriptions :=
            svc.totalSubscriptions - (broadcast env mk 0 svc.subscriptionList).freed } ∧
      (notifyAll env propertySet s h udn servId).1.pool =
        ((broadcast env mk 0 svc.subscriptionList).queued.map fun t ↦ (⟨t, .queued⟩ : Job)) +
          s.pool ∧
      (notifyAll env propertySet s h udn servId).1.sids = s.sids ∧
      (notifyAll env propertySet s h udn servId).1.sends = s.sends := by
  unfold notifyAll
  split
  · exact .inl rfl
  split
  · exact .inl rfl
  split
  · exact .inl rfl
  split
  · exact .inl rfl
  split
  · exact .inl rfl
  rename_i l svc hl
  exact .inr ⟨l, svc, _, hl, fun a ↦ ⟨rfl, rfl, rfl, rfl, rfl⟩,
    ⟨(State.lookup_some hl).2, rfl, rfl, rfl, rfl⟩, rfl, rfl, rfl⟩

/-- The key that a subscription gives out next is on none of its pending jobs. -/
def State.KeyFree (s : State) (sub : Subscription) : Prop :=
  sub.eventKey ∉ (s.jobsOf sub.sid).map Job.key

/-- `genaNotifyAll` and `genaNotifyAllExt`, when `tpool_Schedule` succeeds and the keys given out
are free. -/
theorem Inv.notifyAll {env : NotifyEnv} (hI : Inv s) (hsched : ∀ i, env.schedule i = 0)
    (propertySet : Except Int CString) (h : Int) (udn servId : CString)
    (hfree : ∀ l svc, s.lookup h servId udn = some (l, svc) →
      ∀ a ∈ svc.subscriptionList, a.active → s.KeyFree a) :
    Inv (Gena.notifyAll env propertySet s h udn servId).1 := by
  rcases notifyAll_cases env propertySet s h udn servId with
    heq | ⟨l, svc, mk, hl, hmk, hw, hpool, hsids, hsends⟩
  · rwa [heq]
  have hs := (State.lookup_some hl).2
  have hnd := hI.nodup_of_service hs
  have hsid : ∀ a, (mk a).sid = a.sid := fun a ↦ (hmk a).1
  have hat : ∀ {a}, a ∈ svc.subscriptionList ↔ a ∈ s.subs l := by simp [State.subs_eq hs]
  have hsent : ∀ sid, (Gena.notifyAll env propertySet s h udn servId).1.sentKeys sid =
      s.sentKeys sid := fun sid ↦ by rw [State.sentKeys, hsends, State.sentKeys]
  have hjobs : ∀ sid, (Gena.notifyAll env propertySet s h udn servId).1.jobsOf sid =
      (((broadcast env mk 0 svc.subscriptionList).queued.filter (·.sid = sid)).map
        fun t ↦ (⟨t, .queued⟩ : Job)) + s.jobsOf sid := by
    intro sid
    rw [State.jobsOf, hpool, Multiset.filter_add, Multiset.filter_coe, List.filter_map]
    rfl
  refine hw.update hI (broadcast_list_sublist 0 _) hsids ?_ ?_ ?_ ?_
  · intro j hj
    rw [hpool, Multiset.mem_add, Multiset.mem_coe, List.mem_map] at hj
    rcases hj with ⟨t, ht, rfl⟩ | hj
    · obtain ⟨a, ha, rfl⟩ := mem_broadcast_queued ht
      refine .inr ⟨⟨a, ha, (hsid a).symm⟩, svc, ?_⟩
      obtain ⟨-, -, h₁, h₂, h₃⟩ := hmk a
      simpa only [h₁, h₂, h₃] using hl
    · exact .inl ⟨j, hj, rfl⟩
  · exact fun e he ↦ .inl (hsends ▸ he)
  · intro l' hne a ha
    refine ⟨?_, hsent _⟩
    have hnot : a.sid ∉ svc.subscriptionList.map (·.sid) := by
      simp only [List.mem_map, not_exists, not_and]
      exact fun b hb heq ↦ hI.disjoint l' l hne a ha b (hat.mp hb) heq.symm
    rw [hjobs, broadcast_queued_filter_eq_nil hsid hnot]
    simp
  · intro b hb
    rw [hjobs, hsent]
    rcases mem_broadcast_list hsched hsid hnd hb with ⟨hb, hq⟩ | ⟨a, ha, hact, rfl, hq⟩
    · rw [hq]
      obtain ⟨m, k, h⟩ := hI.stream l b (hat.mp hb)
      exact ⟨m, k, by simpa using h⟩
    · rw [hq]
      obtain ⟨m, k, h⟩ := hI.stream l a (hat.mp ha)
      exact ⟨m, k + 1, h.issue rfl (hmk a).2.1 (hfree l svc hl a ha hact) rfl rfl hact⟩

end Upnp.Gena
