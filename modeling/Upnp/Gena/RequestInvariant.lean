import Upnp.Gena.Notify

/-!
# Requests and registrations keep the invariant

A subscription request enters a subscription that has no events yet; a renewal
writes its expiry time; a cancellation and a failed renewal remove it.
Registering a device adds services without subscriptions, and releasing one
takes all its services away.
-/

namespace Upnp.Gena

open Upnp.Lib

variable {samePath : CString → CString → Bool} {s s' : State} {l : Loc} {svc : ServiceInfo}

/-! ## Requests -/

/-- The service that a request selects is in the table. -/
theorem service_of_requestedService {request : HttpRequest} {info : HandleInfo}
    (h : requestedService samePath s request = some (info, l, svc)) : s.service l = some svc := by
  unfold requestedService at h
  split at h
  · simp at h
  rename_i k info' hd
  simp only [Option.bind_eq_some_iff, Option.map_eq_some_iff, Prod.mk.injEq] at h
  obtain ⟨i, -, v, hv, rfl, rfl, rfl⟩ := h
  have hdev : s.device k = some info' := by
    unfold State.getDeviceHandleInfo at hd
    split at hd
    · rename_i hdev
      obtain ⟨rfl, rfl⟩ := Prod.mk.injEq .. ▸ Option.some.inj hd
      exact hdev
    · obtain ⟨_, hdev, heq⟩ := Option.map_eq_some_iff.mp hd
      obtain ⟨rfl, rfl⟩ := Prod.mk.injEq .. ▸ heq
      exact hdev
  simp [State.service, hdev, hv]

/-- What a subscription request can do. -/
theorem genaSubscriptionRequest_cases (env : RequestEnv) (s : State) (request : HttpRequest) :
    (genaSubscriptionRequest samePath env s request).1 = s ∨
    ∃ l svc, ∃ sub : Subscription, s.service l = some svc ∧
      sub.sid = "uuid:".toList ++ env.uuid ∧
      sub.eventKey = 0 ∧ sub.toSendEventKey = 0 ∧
      ((genaSubscriptionRequest samePath env s request).1 =
        { s with sids := sub.sid :: s.sids } ∨
      (genaSubscriptionRequest samePath env s request).1 =
        ({ s with sids := sub.sid :: s.sids }).setService l
          { svc with
            subscriptionList := sub :: svc.subscriptionList
            totalSubscriptions := svc.totalSubscriptions + 1 }) := by
  unfold genaSubscriptionRequest
  split
  · exact .inl rfl
  split
  · exact .inl rfl
  split
  · exact .inl rfl
  split
  · exact .inl rfl
  split
  · exact .inl rfl
  rename_i info l svc hreq
  have hs := service_of_requestedService hreq
  split
  · exact .inl rfl
  split
  · exact .inl rfl
  split
  · exact .inl rfl
  split
  · exact .inl rfl
  · exact .inl rfl
  · exact .inl rfl
  · rename_i urls _ _
    refine .inr ⟨l, svc, ⟨"uuid:".toList ++ env.uuid, 0, 0, expireTimeOf env.now
      (grantedTimeout info.maxSubscriptionTimeOut (request.header "TIMEOUT".toList)), false, urls⟩,
      hs, rfl, rfl, rfl, ?_⟩
    dsimp only
    split
    · exact .inl rfl
    · exact .inr rfl

/-- The SIDs handed out may grow. -/
theorem Inv.addSid (hI : Inv s) (sid : CString) : Inv { s with sids := sid :: s.sids } where
  active := hI.active
  nodup := hI.nodup
  disjoint := hI.disjoint
  known l a ha := List.mem_cons_of_mem _ (hI.known l a ha)
  poolKnown j hj := List.mem_cons_of_mem _ (hI.poolKnown j hj)
  sendsKnown e he := List.mem_cons_of_mem _ (hI.sendsKnown e he)
  resolves := hI.resolves
  stream := hI.stream

/-- A subscription whose SID was never handed out before is entered. -/
theorem Inv.subscribe (hI : Inv s) (hs : s.service l = some svc) {sub : Subscription}
    (hfresh : sub.sid ∉ s.sids) (hkey : sub.eventKey = 0) (hsend : sub.toSendEventKey = 0)
    (total : Int) :
    Inv (({ s with sids := sub.sid :: s.sids }).setService l
      { svc with subscriptionList := sub :: svc.subscriptionList, totalSubscriptions := total }) := by
  have hI' := hI.addSid sub.sid
  have hw : Writes { s with sids := sub.sid :: s.sids } _ l svc
      { svc with subscriptionList := sub :: svc.subscriptionList, totalSubscriptions := total } :=
    ⟨hs, rfl, rfl, rfl, rfl⟩
  have hne : ∀ l, ∀ a ∈ s.subs l, a.sid ≠ sub.sid := fun l a ha heq ↦
    hfresh (heq ▸ hI.known l a ha)
  have hmem : ∀ {l' a}, a ∈ (State.setService { s with sids := sub.sid :: s.sids } l
      { svc with
        subscriptionList := sub :: svc.subscriptionList
        totalSubscriptions := total }).subs l' → a ∈ s.subs l' ∨ (l' = l ∧ a = sub) := by
    intro l' a ha
    rw [hw.subs_eq] at ha
    split at ha
    · rename_i hl
      rcases List.mem_cons.mp ha with rfl | ha
      · exact .inr ⟨hl, rfl⟩
      · exact .inl (by rw [hl, State.subs_eq hs]; exact ha)
    · exact .inl ha
  exact {
    active := hw.allActive hI'
    nodup := by
      intro l'
      rw [hw.subs_eq]
      split
      · have hnot : sub.sid ∉ svc.subscriptionList.map (·.sid) := by
          rw [← State.subs_eq hs, List.mem_map]
          rintro ⟨a, ha, heq⟩
          exact hne l a ha heq
        exact List.nodup_cons.mpr ⟨hnot, State.subs_eq hs ▸ hI.nodup l⟩
      · exact hI.nodup l'
    disjoint := by
      intro l₁ l₂ hl a ha b hb
      rcases hmem ha with ha' | ⟨rfl, rfl⟩ <;> rcases hmem hb with hb' | ⟨rfl, rfl⟩
      · exact hI.disjoint l₁ l₂ hl a ha' b hb'
      · exact hne l₁ a ha'
      · exact (hne l₂ b hb').symm
      · exact absurd rfl hl
    known := by
      intro l' a ha
      rcases hmem ha with ha | ⟨-, rfl⟩
      · exact hI'.known l' a ha
      · exact List.mem_cons_self
    poolKnown := hI'.poolKnown
    sendsKnown := hI'.sendsKnown
    resolves := by
      intro l' a ha j hj heq
      rcases hmem ha with ha | ⟨-, rfl⟩
      · exact hw.resolves (hI'.resolves l' a ha j hj heq)
      · exact absurd (heq ▸ hI.poolKnown j hj) hfresh
    stream := by
      intro l' a ha
      rcases hmem ha with ha | ⟨-, rfl⟩
      · exact hI'.stream l' a ha
      · refine ⟨0, 0, ?_⟩
        have hjobs : s.pool.filter (·.thread.sid = a.sid) = 0 := by
          rw [Multiset.filter_eq_nil]
          exact fun j hj heq ↦ hfresh (heq ▸ hI.poolKnown j hj)
        have hsent : s.sends.filter (·.1 = a.sid) = [] := by
          rw [List.filter_eq_nil_iff]
          intro e he heq
          exact hfresh (of_decide_eq_true heq ▸ hI.sendsKnown e he)
        have h : Stream a 0 [] 0 0 := .new hsend hkey
        simpa [State.jobsOf, State.sentKeys, hjobs, hsent] using h }

/-- What a renewal can do. -/
theorem genaRenewRequest_cases (env : RequestEnv) (s : State) (request : HttpRequest)
    (uninit : CString) :
    (genaRenewRequest samePath env s request uninit).1 = s ∨
    ∃ l svc sid, s.service l = some svc ∧
      ((genaRenewRequest samePath env s request uninit).1 =
        s.setService l (removeSubscriptionSID sid svc) ∨
      ∃ sub ∈ svc.subscriptionList, sub.sid = sid ∧ ∃ expireTime,
        (genaRenewRequest samePath env s request uninit).1 =
          s.setService l (svc.modifySID sid fun sub ↦ { sub with expireTime })) := by
  unfold genaRenewRequest
  split
  · exact .inl rfl
  rename_i sid _
  split
  · exact .inl rfl
  rename_i info l svc hreq
  have hs := service_of_requestedService hreq
  split
  · exact .inl rfl
  rcases getSubscriptionSID_cases svc sid env.now with
    ⟨hg, -⟩ | ⟨_, -, -, -, hg⟩ | ⟨sub, hsub, hsid, -, -, hg⟩ <;> simp only [hg]
  · exact .inl (State.setService_self hs)
  · exact .inr ⟨l, svc, sid, hs, .inl rfl⟩
  · refine .inr ⟨l, svc, sid, hs, ?_⟩
    split
    · exact .inl rfl
    dsimp only
    split
    · exact .inl (congrArg (s.setService l) (removeSubscriptionSID_modifySID fun _ ↦ rfl))
    · exact .inr ⟨sub, hsub, hsid, _, rfl⟩

/-- What a cancellation can do. -/
theorem genaUnsubscribeRequest_cases (env : RequestEnv) (s : State) (request : HttpRequest)
    (uninit : CString) :
    (genaUnsubscribeRequest samePath env s request uninit).1 = s ∨
    ∃ l svc sid, s.service l = some svc ∧
      (genaUnsubscribeRequest samePath env s request uninit).1 =
        s.setService l (removeSubscriptionSID sid svc) := by
  unfold genaUnsubscribeRequest
  split
  · exact .inl rfl
  rename_i sid _
  split
  · exact .inl rfl
  rename_i l svc hreq
  have hs := service_of_requestedService hreq
  split
  · exact .inl rfl
  rcases getSubscriptionSID_cases svc sid env.now with
    ⟨hg, -⟩ | ⟨_, -, -, -, hg⟩ | ⟨sub, hsub, hsid, -, -, hg⟩ <;> simp only [hg]
  · exact .inl (State.setService_self hs)
  · exact .inr ⟨l, svc, sid, hs, rfl⟩
  · exact .inr ⟨l, svc, sid, hs, rfl⟩

theorem Inv.genaSubscriptionRequest (hI : Inv s) {env : RequestEnv}
    (hfresh : "uuid:".toList ++ env.uuid ∉ s.sids) (request : HttpRequest) :
    Inv (Gena.genaSubscriptionRequest samePath env s request).1 := by
  rcases genaSubscriptionRequest_cases env s request with
    h | ⟨l, svc, sub, hs, hsid, hkey, hsend, h | h⟩ <;> rw [h]
  · exact hI
  · exact hI.addSid _
  · exact hI.subscribe hs (hsid ▸ hfresh) hkey hsend _

theorem Inv.genaRenewRequest (hI : Inv s) (env : RequestEnv) (request : HttpRequest)
    (uninit : CString) : Inv (Gena.genaRenewRequest samePath env s request uninit).1 := by
  rcases genaRenewRequest_cases env s request uninit with
    h | ⟨l, svc, sid, hs, h | ⟨sub, hsub, rfl, expireTime, h⟩⟩ <;> rw [h]
  · exact hI
  · exact hI.remove hs sid
  · refine hI.modify (f := fun sub ↦ { sub with expireTime }) hs hsub (fun _ ↦ rfl) rfl rfl
      (fun j hj ↦ .inl ⟨j, hj, rfl⟩) (fun e he ↦ .inl he) (fun _ _ ↦ ⟨rfl, rfl⟩) ?_
    exact fun m k h ↦ ⟨m, k, h.congr rfl rfl id⟩

theorem Inv.genaUnsubscribeRequest (hI : Inv s) (env : RequestEnv) (request : HttpRequest)
    (uninit : CString) : Inv (Gena.genaUnsubscribeRequest samePath env s request uninit).1 := by
  rcases genaUnsubscribeRequest_cases env s request uninit with h | ⟨l, svc, sid, hs, h⟩ <;> rw [h]
  · exact hI
  · exact hI.remove hs sid

/-! ## Registration -/

/-- A device is replaced by one without subscriptions. -/
theorem Inv.replaceDevice (hI : Inv s) {h : Int}
    (ht : ∀ h' ≠ h, s'.handleTable h' = s.handleTable h')
    (hactive : ∀ i svc, s'.service (h, i) = some svc → svc.active = true)
    (hnil : ∀ i, s'.subs (h, i) = []) (hp : s'.pool = s.pool) (hsids : s'.sids = s.sids)
    (hsends : s'.sends = s.sends) : Inv s' := by
  have hdevice : ∀ h' ≠ h, s'.device h' = s.device h' := by
    intro h' hne
    simp [State.device, ht h' hne]
  have hservice : ∀ l : Loc, l.1 ≠ h → s'.service l = s.service l := by
    intro l hne
    simp [State.service, hdevice l.1 hne]
  refine hI.shrink ?_ ?_ hsids hsends ?_ hp.le (fun l a _ ↦ by simp [State.jobsOf, hp])
  · intro l svc hs
    by_cases hl : l.1 = h
    · exact hactive l.2 svc (by rwa [← hl])
    · exact hI.active l svc (hservice l hl ▸ hs)
  · intro l
    by_cases hl : l.1 = h
    · have := hnil l.2
      rw [← hl] at this
      simp [this]
    · simp [State.subs, hservice l hl]
  · rintro l t hne ⟨svc, hl⟩
    have hh : t.deviceHandle ≠ h := by
      intro heq
      have := hnil l.2
      rw [← heq, ← (State.lookup_some hl).1] at this
      exact hne this
    exact ⟨svc, by rw [← hl]; simp [State.lookup, hdevice _ hh]⟩

theorem Inv.register (hI : Inv s) {h : Int} {info : HandleInfo}
    (hfresh : ∀ svc ∈ info.serviceTable, svc.Fresh) :
    Inv { s with handleTable := Function.update s.handleTable h (some info) } := by
  have hservice : ∀ i svc, State.service { s with
      handleTable := Function.update s.handleTable h (some info) } (h, i) = some svc →
      svc.Fresh := by
    intro i svc hs
    refine hfresh svc (List.mem_of_getElem? (i := i) ?_)
    simp only [State.service, State.device, Function.update_self] at hs
    split at hs
    · simp at hs
    · obtain ⟨info', hi, hs⟩ := Option.bind_eq_some_iff.mp hs
      obtain ⟨hi, -⟩ := Option.filter_eq_some_iff.mp hi
      rwa [Option.some.inj hi]
  refine hI.replaceDevice (h := h) (fun h' hne ↦ Function.update_of_ne hne ..)
    (fun i svc hs ↦ (hservice i svc hs).1) ?_ rfl rfl rfl
  intro i
  cases hs : State.service { s with
      handleTable := Function.update s.handleTable h (some info) } (h, i) with
  | none => simp [State.subs, hs]
  | some svc => simpa [State.subs, hs] using (hservice i svc hs).2.2

theorem Inv.freeHandle (hI : Inv s) (h : Int) :
    Inv { s with handleTable := Function.update s.handleTable h none } := by
  have hservice : ∀ i, State.service { s with
      handleTable := Function.update s.handleTable h none } (h, i) = none := by
    intro i
    simp [State.service, State.device]
  exact hI.replaceDevice (h := h) (fun h' hne ↦ Function.update_of_ne hne ..)
    (fun i svc hs ↦ by simp [hservice] at hs) (fun i ↦ by simp [State.subs, hservice]) rfl rfl rfl

theorem Inv.genaUnregisterDevice (hI : Inv s) (h : Int) : Inv (genaUnregisterDevice s h) := by
  unfold Gena.genaUnregisterDevice
  split
  · exact hI
  · exact hI.register (by simp)

/-- The limit on the number of subscriptions is not part of the invariant. -/
theorem Inv.setMaxSubscriptions (hI : Inv s) (h m : Int) : Inv (setMaxSubscriptions s h m) := by
  unfold Gena.setMaxSubscriptions
  split
  · exact hI
  rename_i info hd
  split
  · exact hI
  generalize hs' : ({ s with
    handleTable := Function.update s.handleTable h (some { info with maxSubscriptions := m }) } :
      State) = s'
  have htable : ∀ k, (s'.device k).map (·.serviceTable) = (s.device k).map (·.serviceTable) := by
    intro k
    subst hs'
    by_cases hk : k = h
    · subst hk
      have hd' := hd
      unfold State.device at hd'
      split at hd'
      · simp at hd'
      · rename_i hr
        obtain ⟨-, htype⟩ := Option.filter_eq_some_iff.mp hd'
        rw [hd]
        simp only [State.device, if_neg hr, Function.update_self]
        rw [Option.filter_some_pos (by simpa using htype)]
        rfl
    · simp [State.device, hk]
  have hservice : ∀ l, s'.service l = s.service l := by
    intro l
    have := htable l.1
    cases h₁ : s'.device l.1 <;> cases h₂ : s.device l.1 <;> simp_all [State.service]
  have hlookup : ∀ k servId udn, s'.lookup k servId udn = s.lookup k servId udn := by
    intro k servId udn
    have := htable k
    cases h₁ : s'.device k <;> cases h₂ : s.device k <;> simp_all [State.lookup]
  refine hI.shrink (fun l svc hs ↦ hI.active l svc (hservice l ▸ hs))
    (fun l ↦ by simp [State.subs, hservice]) (by subst hs'; rfl) (by subst hs'; rfl) ?_
    (by subst hs'; rfl) (fun l a _ ↦ by subst hs'; rfl)
  rintro l t - ⟨svc, hl⟩
  exact ⟨svc, (hlookup ..).trans hl⟩

end Upnp.Gena
