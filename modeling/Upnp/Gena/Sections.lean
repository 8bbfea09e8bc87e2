import Upnp.Gena.Invariant

/-!
# The sections of `genaNotifyThread` and `genaInitNotify` keep the invariant

Each section looks a subscription up first.  A look-up that fails leaves no
live subscription with that SID, so the job that made it may end.
-/

namespace Upnp.Gena

open Upnp.Lib

variable {s s' : State} {l : Loc} {svc svc' : ServiceInfo} {j : Job} {t : NotifyThreadStruct}
  {key : Int}

/-! ## Jobs in the pool -/

/-- Taking a job out of the pool leaves the jobs of other subscriptions. -/
theorem State.jobsOf_erase (s : State) {sid : CString} (h : j.thread.sid ≠ sid) :
    (s.pool.erase j).filter (·.thread.sid = sid) = s.jobsOf sid := by
  unfold State.jobsOf
  by_cases hj : j ∈ s.pool
  · conv_rhs => rw [← Multiset.cons_erase hj]
    simp [h]
  · rw [Multiset.erase_of_notMem hj]

theorem State.jobsOf_self {rest : Multiset Job} (hp : s.pool = j ::ₘ rest) :
    s.jobsOf j.thread.sid = j ::ₘ rest.filter (·.thread.sid = j.thread.sid) := by
  simp [State.jobsOf, hp]

/-- A job whose subscription is gone ends. -/
theorem Inv.drop (hI : Inv s)
    (hactive : ∀ l svc, s'.service l = some svc → svc.active = true)
    (hsub : ∀ l, (s'.subs l).Sublist (s.subs l)) (hsids : s'.sids = s.sids)
    (hsends : s'.sends = s.sends) (hres : ∀ l t, s.Resolves t l → s'.Resolves t l)
    (hpool : s'.pool = s.pool.erase j)
    (hgone : ∀ l, ∀ a ∈ s'.subs l, a.sid ≠ j.thread.sid) : Inv s' :=
  hI.shrink hactive hsub hsids hsends (fun l t _ ↦ hres l t) (hpool ▸ Multiset.erase_le j s.pool)
    fun l a ha ↦ by rw [State.jobsOf, hpool, s.jobsOf_erase (hgone l a ha).symm]

/-! ## The look-up at the start of a section -/

/-- The look-up of the service fails: the job's subscription is gone. -/
theorem Inv.sid_ne_of_lookup_none (hI : Inv s) (hj : j ∈ s.pool)
    (h : s.lookup j.thread.deviceHandle j.thread.servId j.thread.udn = none) {a : Subscription}
    (ha : a ∈ s.subs l) : a.sid ≠ j.thread.sid := by
  intro heq
  obtain ⟨v, hv⟩ := hI.resolves l a ha j hj heq.symm
  rw [h] at hv
  exact absurd hv (by simp)

/-- A subscription with the job's SID can only be in the service that the look-up finds. -/
theorem Inv.loc_of_lookup (hI : Inv s) (hj : j ∈ s.pool) {l' : Loc}
    (h : s.lookup j.thread.deviceHandle j.thread.servId j.thread.udn = some (l, svc))
    {a : Subscription} (ha : a ∈ s.subs l') (heq : a.sid = j.thread.sid) : l' = l := by
  obtain ⟨v, hv⟩ := hI.resolves l' a ha j hj heq.symm
  rw [h] at hv
  exact (congrArg Prod.fst (Option.some.inj hv)).symm

/-- Removing the subscription `sid` from the service at `l`. -/
theorem writes_remove (hs : s.service l = some svc) (sid : CString)
    (ht : s'.handleTable = (s.setService l (removeSubscriptionSID sid svc)).handleTable) :
    Writes s s' l svc (removeSubscriptionSID sid svc) :=
  ⟨hs, ht, by simp, by simp, by simp⟩

theorem Inv.nodup_of_service (hI : Inv s) (hs : s.service l = some svc) :
    (svc.subscriptionList.map (·.sid)).Nodup := State.subs_eq hs ▸ hI.nodup l

/-- Removing a subscription, with nothing else changed. -/
theorem Inv.remove (hI : Inv s) (hs : s.service l = some svc) (sid : CString) :
    Inv (s.setService l (removeSubscriptionSID sid svc)) :=
  (writes_remove hs sid rfl).shrink hI removeSubscriptionSID_sublist rfl rfl le_rfl
    fun _ _ _ ↦ rfl

/-- The job's subscription is removed, and the job ends. -/
theorem Inv.drop_removed (hI : Inv s) (hj : j ∈ s.pool)
    (h : s.lookup j.thread.deviceHandle j.thread.servId j.thread.udn = some (l, svc))
    (ht : s'.handleTable =
      (s.setService l (removeSubscriptionSID j.thread.sid svc)).handleTable)
    (hp : s'.pool = s.pool.erase j) (hsids : s'.sids = s.sids) (hsends : s'.sends = s.sends) :
    Inv s' := by
  have hs := (State.lookup_some h).2
  have hw := writes_remove hs j.thread.sid ht
  refine hI.drop (hw.allActive hI) ?_ hsids hsends (fun l t ↦ hw.resolves) hp ?_
  · intro l'
    rw [hw.subs_eq]
    split
    · rename_i hl
      rw [hl, State.subs_eq hs]
      exact removeSubscriptionSID_sublist
    · exact List.Sublist.refl _
  · intro l' a ha
    by_cases hl : l' = l
    · subst hl
      rw [hw.subs_self] at ha
      exact sid_ne_of_mem_remove (hI.nodup_of_service hs) ha
    · rw [hw.subs_ne hl] at ha
      exact fun heq ↦ hl (hI.loc_of_lookup hj h ha heq)

/-- The job's subscription is not found, and the job ends. -/
theorem Inv.drop_missing (hI : Inv s) (hj : j ∈ s.pool)
    (h : s.lookup j.thread.deviceHandle j.thread.servId j.thread.udn = none ∨
      ∃ l svc, s.lookup j.thread.deviceHandle j.thread.servId j.thread.udn = some (l, svc) ∧
        ∀ a ∈ svc.subscriptionList, a.sid ≠ j.thread.sid)
    (ht : s'.handleTable = s.handleTable) (hp : s'.pool = s.pool.erase j)
    (hsids : s'.sids = s.sids) (hsends : s'.sends = s.sends) : Inv s' := by
  refine hI.drop ?_ (fun l ↦ by rw [State.subs_congr ht]) hsids hsends ?_ hp ?_
  · intro l v hv
    exact hI.active l v (by rw [← hv, State.service_congr ht])
  · rintro l t ⟨v, hv⟩
    exact ⟨v, by rw [State.lookup_congr ht, hv]⟩
  · intro l' a ha
    rw [State.subs_congr ht] at ha
    rcases h with h | ⟨l, svc, h, hnot⟩
    · exact hI.sid_ne_of_lookup_none hj h ha
    · intro heq
      obtain rfl := hI.loc_of_lookup hj h ha heq
      rw [State.subs_eq (State.lookup_some h).2] at ha
      exact hnot a ha heq

/-- Writing back what was read changes nothing. -/
theorem State.setService_self (hs : s.service l = some svc) : s.setService l svc = s := by
  obtain ⟨h, i⟩ := l
  cases s with
  | mk table pool counters next sids sends =>
    simp only [State.setService, State.mk.injEq, and_true]
    funext k
    split
    · rename_i hk
      subst hk
      cases ht : table k with
      | none => rfl
      | some info =>
        simp only [State.service, State.device, ht] at hs
        split at hs
        · simp at hs
        · rename_i hr
          simp only [Option.bind_eq_some_iff, Option.filter_eq_some_iff] at hs
          obtain ⟨_, ⟨h₁, -⟩, hs⟩ := hs
          obtain rfl := Option.some.inj h₁
          obtain ⟨hlt, hget⟩ := List.getElem?_eq_some_iff.mp hs
          simp [← hget]
    · rfl

/-! ## The first section of `genaNotifyThread` -/

theorem State.sentKeys_append (hs : s'.sends = s.sends ++ [(t.sid, key)]) (sid : CString) :
    s'.sentKeys sid = s.sentKeys sid ++ if t.sid = sid then [key] else [] := by
  by_cases h : t.sid = sid <;> simp [State.sentKeys, hs, List.filter_append, h]

/-- A job of a live subscription changes its phase; it begins to send only in its turn. -/
theorem Inv.rephase (hI : Inv s) {p p' : Phase} (hj : ⟨t, p⟩ ∈ s.pool)
    (hl : s.lookup t.deviceHandle t.servId t.udn = some (l, svc)) {sub : Subscription}
    (hsub : sub ∈ svc.subscriptionList) (hsid : sub.sid = t.sid)
    (ht : s'.handleTable = s.handleTable) (hp : s'.pool = ⟨t, p'⟩ ::ₘ s.pool.erase ⟨t, p⟩)
    (hsids : s'.sids = s.sids) (hsends : s'.sends = s.sends ∨
      s'.sends = s.sends ++ [(t.sid, sub.toSendEventKey)])
    (hstream : ∀ m k rest, Stream sub (⟨t, p⟩ ::ₘ rest) (s.sentKeys t.sid) m k →
      Stream sub (⟨t, p'⟩ ::ₘ rest) (s'.sentKeys t.sid) m k) : Inv s' := by
  have hsv := (State.lookup_some hl).2
  have hw : Writes s s' l svc svc :=
    ⟨hsv, by rw [State.setService_self hsv, ht], rfl, rfl, rfl⟩
  have hpool := (Multiset.cons_erase hj).symm
  refine hw.single hI hsub rfl (fun b hb _ ↦ hb) hsids ?_ ?_ ?_ ?_
  · intro j hj'
    rw [hp, Multiset.mem_cons] at hj'
    rcases hj' with rfl | hj'
    · exact .inl ⟨_, hj, rfl⟩
    · exact .inl ⟨j, Multiset.mem_of_mem_erase hj', rfl⟩
  · intro e he
    rcases hsends with hsends | hsends
    · exact .inl (hsends ▸ he)
    · rw [hsends, List.mem_append, List.mem_singleton] at he
      exact he.imp_right fun h ↦ by rw [h, hsid]
  · intro sid hne
    have hne : t.sid ≠ sid := hsid ▸ hne.symm
    constructor
    · rw [State.jobsOf, hp, Multiset.filter_cons_of_neg _ (by simpa using hne)]
      exact s.jobsOf_erase hne
    · rcases hsends with hsends | hsends
      · rw [State.sentKeys, hsends, State.sentKeys]
      · rw [State.sentKeys_append hsends, if_neg hne, List.append_nil]
  · intro m k h b hb hbs
    obtain rfl : b = sub := List.inj_on_of_nodup_map (hI.nodup_of_service hsv) hb hsub hbs
    rw [hsid] at h ⊢
    rw [State.jobsOf_self (j := ⟨t, p⟩) hpool] at h
    refine ⟨m, k, ?_⟩
    rw [State.jobsOf_self (j := ⟨t, p'⟩) hp]
    exact hstream m k _ h

/-- What the first section can do when its calls succeed and services stay active. -/
theorem notifyThreadCheck_cases {env : CheckEnv} (hcopy : env.copyOk = true)
    (hsched : env.schedule = 0) (hactive : ∀ l svc, s.service l = some svc → svc.active = true) :
    (s.lookup t.deviceHandle t.servId t.udn = none ∧
      notifyThreadCheck env s t = (freeNotifyStruct s t, none)) ∨
    ∃ l svc, s.lookup t.deviceHandle t.servId t.udn = some (l, svc) ∧
      (((∀ a ∈ svc.subscriptionList, a.sid ≠ t.sid) ∧
        notifyThreadCheck env s t = (freeNotifyStruct s t, none)) ∨
      notifyThreadCheck env s t =
        (freeNotifyStruct (s.setService l (removeSubscriptionSID t.sid svc)) t, none) ∨
      ∃ sub ∈ svc.subscriptionList, sub.sid = t.sid ∧
        (notifyThreadCheck env s t = (s, some .queued) ∨
        (t.eventKey = sub.toSendEventKey ∧ notifyThreadCheck env s t =
          ({ s with sends := s.sends ++ [(t.sid, sub.toSendEventKey)] },
            some (.sending sub))))) := by
  unfold notifyThreadCheck
  cases hl : s.lookup t.deviceHandle t.servId t.udn with
  | none => exact .inl ⟨rfl, rfl⟩
  | some r =>
    obtain ⟨l, svc⟩ := r
    have hs := (State.lookup_some hl).2
    refine .inr ⟨l, svc, rfl, ?_⟩
    simp only [hactive l svc hs, Bool.not_true, Bool.false_eq_true, if_false]
    rcases getSubscriptionSID_cases svc t.sid env.now with
      ⟨h, hnot⟩ | ⟨_, -, -, -, h⟩ | ⟨sub, hsub, hsid, -, -, h⟩
    · refine .inl ⟨hnot, ?_⟩
      simp only [h, State.setService_self hs]
    · refine .inr (.inl ?_)
      simp only [h]
    · refine .inr (.inr ⟨sub, hsub, hsid, ?_⟩)
      simp only [h, hcopy, hsched, State.setService_self hs, Bool.not_true, Bool.false_eq_true,
        if_false, if_true]
      split
      · exact .inl rfl
      · rename_i hk
        exact .inr ⟨not_not.mp hk, rfl⟩

/-- The first section of `genaNotifyThread`, when its calls succeed. -/
theorem Inv.check {env : CheckEnv} (hI : Inv s) (hj : ⟨t, .running⟩ ∈ s.pool)
    (hcopy : env.copyOk = true) (hsched : env.schedule = 0) :
    Inv ((notifyThreadCheck env (s.take ⟨t, .running⟩) t).1.put t
      (notifyThreadCheck env (s.take ⟨t, .running⟩) t).2) := by
  rcases notifyThreadCheck_cases (s := s.take ⟨t, .running⟩) (t := t) hcopy hsched hI.active with
    ⟨hl, h⟩ | ⟨l, svc, hl, ⟨hnot, h⟩ | h | ⟨sub, hsub, hsid, h | ⟨hk, h⟩⟩⟩ <;> rw [h]
  · exact hI.drop_missing hj (.inl hl) (by simp) (by simp) (by simp) (by simp)
  · exact hI.drop_missing hj (.inr ⟨l, svc, hl, hnot⟩) (by simp) (by simp) (by simp) (by simp)
  · exact hI.drop_removed hj hl (by simp; rfl) (by simp) (by simp) (by simp)
  · exact hI.rephase hj hl hsub hsid rfl rfl rfl (.inl rfl) fun m k rest h ↦ h.move rfl rfl rfl
  · refine hI.rephase hj hl hsub hsid rfl rfl rfl (.inr rfl) fun m k rest h ↦ ?_
    rw [State.sentKeys_append rfl, if_pos rfl]
    exact h.startSend rfl rfl rfl hk

/-- A write through the pointer to a subscription, with a step of its jobs. -/
theorem Inv.modify (hI : Inv s) (hs : s.service l = some svc) {sub : Subscription}
    (hsub : sub ∈ svc.subscriptionList) {f : Subscription → Subscription}
    (hf : ∀ a, (f a).sid = a.sid)
    (ht : s'.handleTable = (s.setService l (svc.modifySID sub.sid f)).handleTable)
    (hsids : s'.sids = s.sids)
    (hpool : ∀ j ∈ s'.pool, (∃ i ∈ s.pool, i.thread = j.thread) ∨
      j.thread.sid = sub.sid ∧ s.Resolves j.thread l)
    (hsends : ∀ e ∈ s'.sends, e ∈ s.sends ∨ e.1 = sub.sid)
    (hjobs : ∀ sid ≠ sub.sid, s'.jobsOf sid = s.jobsOf sid ∧ s'.sentKeys sid = s.sentKeys sid)
    (hstream : ∀ m k, Stream sub (s.jobsOf sub.sid) (s.sentKeys sub.sid) m k →
      ∃ m k, Stream (f sub) (s'.jobsOf sub.sid) (s'.sentKeys sub.sid) m k) : Inv s' := by
  have hnd := hI.nodup_of_service hs
  have hw : Writes s s' l svc (svc.modifySID sub.sid f) := ⟨hs, ht, rfl, rfl, rfl⟩
  refine hw.single hI hsub (map_sid_modifySID hf) ?_ hsids hpool hsends hjobs ?_
  · intro b hb hne
    rcases mem_modifySID hnd hb with h | ⟨a, -, ha, rfl⟩
    · exact h.1
    · exact absurd ((hf a).trans ha) hne
  · intro m k h b hb hbs
    obtain ⟨a, ha, has, rfl⟩ : ∃ a ∈ svc.subscriptionList, a.sid = sub.sid ∧ b = f a :=
      (mem_modifySID hnd hb).resolve_left fun h ↦ h.2 hbs
    obtain rfl : a = sub := List.inj_on_of_nodup_map hnd ha hsub has
    rw [hf]
    exact hstream m k h

/-! ## The second section of `genaNotifyThread` -/

/-- The update of `ToSendEventKey`. -/
def Subscription.advance (sub : Subscription) : Subscription :=
  { sub with toSendEventKey := bumpKey sub.toSendEventKey }

/-- What the second section can do when services stay active. -/
theorem notifyThreadFinish_cases (now return_code : Int)
    (hactive : ∀ l svc, s.service l = some svc → svc.active = true) :
    (s.lookup t.deviceHandle t.servId t.udn = none ∧
      notifyThreadFinish now return_code s t = freeNotifyStruct s t) ∨
    ∃ l svc, s.lookup t.deviceHandle t.servId t.udn = some (l, svc) ∧
      (((∀ a ∈ svc.subscriptionList, a.sid ≠ t.sid) ∧
        notifyThreadFinish now return_code s t = freeNotifyStruct s t) ∨
      notifyThreadFinish now return_code s t =
        freeNotifyStruct (s.setService l (removeSubscriptionSID t.sid svc)) t ∨
      ∃ sub ∈ svc.subscriptionList, sub.sid = t.sid ∧
        notifyThreadFinish now return_code s t =
          freeNotifyStruct (s.setService l (svc.modifySID t.sid Subscription.advance)) t) := by
  unfold notifyThreadFinish
  cases hl : s.lookup t.deviceHandle t.servId t.udn with
  | none => exact .inl ⟨rfl, rfl⟩
  | some r =>
    obtain ⟨l, svc⟩ := r
    have hs := (State.lookup_some hl).2
    refine .inr ⟨l, svc, rfl, ?_⟩
    simp only [hactive l svc hs, Bool.not_true, Bool.false_eq_true, if_false]
    rcases getSubscriptionSID_cases svc t.sid now with
      ⟨h, hnot⟩ | ⟨_, -, -, -, h⟩ | ⟨sub, hsub, hsid, -, -, h⟩
    · refine .inl ⟨hnot, ?_⟩
      simp only [h, State.setService_self hs]
    · refine .inr (.inl ?_)
      simp only [h]
    · simp only [h]
      split
      · -- a write to the subscription that is removed next
        exact .inr (.inl (congrArg (fun v ↦ freeNotifyStruct (s.setService l v) t)
          (removeSubscriptionSID_modifySID fun _ ↦ rfl)))
      · exact .inr (.inr ⟨sub, hsub, hsid, rfl⟩)

/-- The second section of `genaNotifyThread`. -/
theorem Inv.finish {sub_copy : Subscription} (now return_code : Int) (hI : Inv s)
    (hj : ⟨t, .sending sub_copy⟩ ∈ s.pool) :
    Inv (notifyThreadFinish now return_code (s.take ⟨t, .sending sub_copy⟩) t) := by
  rcases notifyThreadFinish_cases (s := s.take ⟨t, .sending sub_copy⟩) (t := t) now return_code
    hI.active with ⟨hl, h⟩ | ⟨l, svc, hl, ⟨hnot, h⟩ | h | ⟨sub, hsub, hsid, h⟩⟩ <;> rw [h]
  · exact hI.drop_missing hj (.inl hl) (by simp) (by simp) (by simp) (by simp)
  · exact hI.drop_missing hj (.inr ⟨l, svc, hl, hnot⟩) (by simp) (by simp) (by simp) (by simp)
  · exact hI.drop_removed hj hl (by simp; rfl) (by simp) (by simp) (by simp)
  · rw [← hsid]
    refine hI.modify (f := Subscription.advance) (State.lookup_some hl).2 hsub (fun _ ↦ rfl)
      (by simp; rfl) (by simp) ?_ ?_ ?_ ?_
    · exact fun j hj ↦ .inl ⟨j, Multiset.mem_of_mem_erase (by simpa using hj), rfl⟩
    · exact fun e he ↦ .inl (by simpa using he)
    · intro sid hne
      refine ⟨?_, by simp [State.sentKeys]⟩
      simp only [State.jobsOf, State.freeNotifyStruct_pool, State.setService_pool, State.take_pool]
      exact s.jobsOf_erase (hsid ▸ hne.symm)
    · intro m k h
      rw [hsid, State.jobsOf_self (j := ⟨t, .sending sub_copy⟩) (Multiset.cons_erase hj).symm] at h
      obtain ⟨k', -, h⟩ : ∃ k', k = k' + 1 ∧ Stream sub.advance _ _ _ _ :=
        h.finish rfl rfl rfl rfl
      exact ⟨m + 1, k', by simpa [State.jobsOf, State.sentKeys, hsid] using h⟩

end Upnp.Gena
