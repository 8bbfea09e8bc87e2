import Upnp.Gena.Lifetime

/-!
# The subscription that a SID names

A renewal and a cancellation copy the value of `SID` to the start of a local array and put a
NUL behind the array, not behind the value.  What the array held before is part of the string
that the subscription list is searched for.
-/

namespace Upnp.Gena

open Upnp.Lib

/-- The requests that name a subscription by its SID. -/
inductive NamingHandler where
  | genaRenewRequest
  | genaUnsubscribeRequest

/-- The handler of such a request. -/
def NamingHandler.run (samePath : CString → CString → Bool) (env : RequestEnv) (s : State)
    (request : HttpRequest) (uninit : CString) : NamingHandler → State × Response
  | genaRenewRequest => Gena.genaRenewRequest samePath env s request uninit
  | genaUnsubscribeRequest => Gena.genaUnsubscribeRequest samePath env s request uninit

/-- The value of the header is the SID of the subscription. -/
def Names (request : HttpRequest) (sub : Subscription) : Prop :=
  (request.header "SID".toList).map (·.text) = some sub.sid

instance (request : HttpRequest) : DecidablePred (Names request) :=
  fun _ ↦ inferInstanceAs (Decidable (_ = _))

/-- A request leaves every subscription alone that its header does not name, and what it does is
the same whatever the buffer held. -/
structure MatchesWholeSID (samePath : CString → CString → Bool) (env : RequestEnv) (s : State)
    (request : HttpRequest) (h : NamingHandler) : Prop where
  others : ∀ uninit l,
    ((h.run samePath env s request uninit).1.subs l).filter (fun sub ↦ ¬ Names request sub) =
      (s.subs l).filter fun sub ↦ ¬ Names request sub
  outcome : ∀ uninit uninit',
    h.run samePath env s request uninit = h.run samePath env s request uninit'

/-- A request that reaches the look-up with a value that begins a SID of the list and does not
fill the buffer. -/
def NamesPart (samePath : CString → CString → Bool) (env : RequestEnv) (s : State)
    (request : HttpRequest) : Prop :=
  ∃ value info l svc, requestedSID env request [] = .ok value ∧
    requestedService samePath s request = some (info, l, svc) ∧ svc.active = true ∧
      value.length < SID_SIZE ∧
        ∃ sub ∈ svc.subscriptionList, value <+: sub.sid ∧ sub.sid.length ≤ SID_SIZE

variable {samePath : CString → CString → Bool} {env : RequestEnv} {s : State}
  {request : HttpRequest} {uninit sid value : CString} {info : HandleInfo} {l : Loc}
  {svc svc' : ServiceInfo} {h : NamingHandler}

/-! ## The string in the buffer -/

theorem requestedSID_uninit :
    requestedSID env request uninit =
      (requestedSID env request []).map fun value ↦
        value ++ uninit.take (SID_SIZE - value.length) := by
  unfold requestedSID
  split
  · rfl
  cases request.header "SID".toList with
  | none => rfl
  | some t =>
    dsimp only
    split
    · rfl
    split
    · rfl
    · rw [List.take_nil, List.append_nil]
      rfl

theorem requestedSID_ok (hvalue : requestedSID env request [] = .ok value) :
    requestedSID env request uninit = .ok (value ++ uninit.take (SID_SIZE - value.length)) := by
  rw [requestedSID_uninit, hvalue]
  rfl

/-- The value is that of the header, and it fits into the buffer. -/
theorem value_of_requestedSID (hvalue : requestedSID env request [] = .ok value) :
    (request.header "SID".toList).map (·.text) = some value ∧ value.length ≤ SID_SIZE := by
  unfold requestedSID at hvalue
  split at hvalue
  · cases hvalue
  cases ht : request.header "SID".toList with
  | none =>
    rw [ht] at hvalue
    cases hvalue
  | some t =>
    rw [ht] at hvalue
    dsimp only at hvalue
    split at hvalue
    · cases hvalue
    rename_i hle
    split at hvalue
    · cases hvalue
    · rw [List.take_nil, List.append_nil] at hvalue
      cases hvalue
      exact ⟨rfl, not_lt.mp hle⟩

/-! ## The subscriptions with another SID -/

/-- `svc'` has the subscriptions of `svc` whose SID is not `sid`. -/
def SameBut (sid : CString) (svc svc' : ServiceInfo) : Prop :=
  svc'.subscriptionList.filter (·.sid ≠ sid) = svc.subscriptionList.filter (·.sid ≠ sid)

/-- The number of subscriptions with a SID. -/
def ServiceInfo.named (sid : CString) (svc : ServiceInfo) : Nat :=
  svc.subscriptionList.countP (·.sid = sid)

theorem filter_modifyFirst {f : Subscription → Subscription} (hf : ∀ a, (f a).sid = a.sid)
    (subs : List Subscription) :
    (ServiceInfo.modifyFirst (·.sid = sid) f subs).filter (·.sid ≠ sid) =
      subs.filter (·.sid ≠ sid) := by
  induction subs with
  | nil => rfl
  | cons a subs ih =>
    rw [ServiceInfo.modifyFirst]
    split
    · rename_i ha
      have ha : a.sid = sid := of_decide_eq_true ha
      rw [List.filter_cons_of_neg (by simpa [hf] using ha),
        List.filter_cons_of_neg (by simpa using ha)]
    · rename_i ha
      have ha : a.sid ≠ sid := fun heq ↦ ha (decide_eq_true heq)
      rw [List.filter_cons_of_pos (by simpa using ha), List.filter_cons_of_pos (by simpa using ha),
        ih]

theorem sameBut_removeSubscriptionSID : SameBut sid svc (removeSubscriptionSID sid svc) := by
  rw [SameBut, removeSubscriptionSID_list]
  exact filter_eraseP_key Subscription.sid sid _

theorem sameBut_modifySID {f : Subscription → Subscription} (hf : ∀ a, (f a).sid = a.sid) :
    SameBut sid svc (svc.modifySID sid f) :=
  filter_modifyFirst hf _

theorem SameBut.trans {svc'' : ServiceInfo} (h : SameBut sid svc svc')
    (h' : SameBut sid svc' svc'') : SameBut sid svc svc'' :=
  Eq.trans h' h

theorem SameBut.named_eq (h : SameBut sid svc svc') {other : CString} (hne : other ≠ sid) :
    svc'.named other = svc.named other := by
  have hfilter : ∀ subs : List Subscription,
      (subs.filter (·.sid ≠ sid)).countP (·.sid = other) = subs.countP (·.sid = other) := by
    intro subs
    rw [List.countP_filter]
    apply List.countP_congr
    intro sub _
    simp only [Bool.and_eq_true, decide_eq_true_eq]
    exact ⟨And.left, fun heq ↦ ⟨heq, heq ▸ hne⟩⟩
  rw [ServiceInfo.named, ServiceInfo.named, ← hfilter svc'.subscriptionList, h, hfilter]

/-- One subscription fewer has the SID that was removed. -/
theorem named_removeSubscriptionSID (hany : svc.subscriptionList.any (·.sid = sid) = true) :
    (removeSubscriptionSID sid svc).named sid < svc.named sid := by
  obtain ⟨sub, hsub, hsid⟩ := List.any_eq_true.mp hany
  obtain ⟨a, before, behind, -, ha, hlist, herase⟩ :=
    @List.exists_of_eraseP Subscription (·.sid = sid) _ _ hsub hsid
  rw [ServiceInfo.named, removeSubscriptionSID_list, herase, ServiceInfo.named, hlist,
    List.countP_append, List.countP_append, List.countP_cons, if_pos ha]
  exact Nat.lt_succ_self _

/-! ## A request that reaches the look-up -/

/-- What a request does with the service it selects when the list has its SID: it removes a
subscription with that SID, or it answers with the SID. -/
structure Touches (sid : CString) (svc svc' : ServiceInfo) (r : Response) : Prop where
  others : SameBut sid svc svc'
  done : svc'.named sid < svc.named sid ∨ ∃ time_out, r = .respondOK time_out sid

theorem touches_removeSubscriptionSID (hany : svc.subscriptionList.any (·.sid = sid) = true)
    (r : Response) : Touches sid svc (removeSubscriptionSID sid svc) r :=
  ⟨sameBut_removeSubscriptionSID, .inl (named_removeSubscriptionSID hany)⟩

theorem run_cases (hsid : requestedSID env request uninit = .ok sid)
    (hreq : requestedService samePath s request = some (info, l, svc))
    (hactive : svc.active = true) :
    ((∀ sub ∈ svc.subscriptionList, sub.sid ≠ sid) ∧
      h.run samePath env s request uninit = (s, .BAD_CALLBACK)) ∨
    ((∃ sub ∈ svc.subscriptionList, sub.sid = sid) ∧ ∃ svc' r,
      h.run samePath env s request uninit = (s.setService l svc', r) ∧ Touches sid svc svc' r) := by
  have hs := service_of_requestedService hreq
  have hpassed : ¬ (!svc.active) = true := by
    rw [hactive]
    exact Bool.false_ne_true
  rcases getSubscriptionSID_cases svc sid env.now with
    ⟨hg, hnone⟩ | ⟨sub, hsub, hasked, -, hg⟩ | ⟨sub, hsub, hasked, -, -, hg⟩
  · refine .inl ⟨hnone, ?_⟩
    cases h with
    | genaRenewRequest =>
      simp only [NamingHandler.run, genaRenewRequest, hsid, hreq, if_neg hpassed, hg]
      rw [State.setService_self hs]
    | genaUnsubscribeRequest =>
      simp only [NamingHandler.run, genaUnsubscribeRequest, hsid, hreq, if_neg hpassed, hg]
      rw [State.setService_self hs]
  · have hany : svc.subscriptionList.any (·.sid = sid) = true :=
      List.any_eq_true.mpr ⟨sub, hsub, decide_eq_true hasked⟩
    refine .inr ⟨⟨sub, hsub, hasked⟩, _, .BAD_CALLBACK, ?_, touches_removeSubscriptionSID hany _⟩
    cases h with
    | genaRenewRequest =>
      simp only [NamingHandler.run, genaRenewRequest, hsid, hreq, if_neg hpassed, hg]
    | genaUnsubscribeRequest =>
      simp only [NamingHandler.run, genaUnsubscribeRequest, hsid, hreq, if_neg hpassed, hg]
  · have hany : svc.subscriptionList.any (·.sid = sid) = true :=
      List.any_eq_true.mpr ⟨sub, hsub, decide_eq_true hasked⟩
    refine .inr ⟨⟨sub, hsub, hasked⟩, ?_⟩
    cases h with
    | genaUnsubscribeRequest =>
      refine ⟨_, .HTTP_OK_CRLF, ?_, touches_removeSubscriptionSID hany _⟩
      simp only [NamingHandler.run, genaUnsubscribeRequest, hsid, hreq, if_neg hpassed, hg]
    | genaRenewRequest =>
      simp only [NamingHandler.run, genaRenewRequest, hsid, hreq, if_neg hpassed, hg]
      split
      · exact ⟨_, _, rfl, touches_removeSubscriptionSID hany _⟩
      · refine ⟨_, _, rfl, ?_, .inr ⟨_, rfl⟩⟩
        split
        · apply SameBut.trans _ sameBut_removeSubscriptionSID
          exact sameBut_modifySID fun _ ↦ rfl
        · exact sameBut_modifySID fun _ ↦ rfl

/-- A request that does not reach the look-up. -/
theorem run_unreached (hnot : ¬ ∃ value info l svc, requestedSID env request [] = .ok value ∧
      requestedService samePath s request = some (info, l, svc) ∧ svc.active = true) :
    ∃ r, ∀ uninit, h.run samePath env s request uninit = (s, r) := by
  cases hvalue : requestedSID env request [] with
  | error r =>
    refine ⟨r, fun uninit ↦ ?_⟩
    have hsid : requestedSID env request uninit = .error r := by
      rw [requestedSID_uninit, hvalue]
      rfl
    cases h with
    | genaRenewRequest => simp only [NamingHandler.run, genaRenewRequest, hsid]
    | genaUnsubscribeRequest => simp only [NamingHandler.run, genaUnsubscribeRequest, hsid]
  | ok value =>
    refine ⟨.BAD_CALLBACK, fun uninit ↦ ?_⟩
    have hsid := @requestedSID_ok env request uninit value hvalue
    cases hreq : requestedService samePath s request with
    | none =>
      cases h with
      | genaRenewRequest => simp only [NamingHandler.run, genaRenewRequest, hsid, hreq]
      | genaUnsubscribeRequest => simp only [NamingHandler.run, genaUnsubscribeRequest, hsid, hreq]
    | some p =>
      obtain ⟨info, l, svc⟩ := p
      have hinactive : (!svc.active) = true := by
        rw [Bool.not_eq_true']
        apply Bool.eq_false_of_not_eq_true
        exact fun hactive ↦ hnot ⟨value, info, l, svc, hvalue, hreq, hactive⟩
      cases h with
      | genaRenewRequest =>
        simp only [NamingHandler.run, genaRenewRequest, hsid, hreq, if_pos hinactive]
      | genaUnsubscribeRequest =>
        simp only [NamingHandler.run, genaUnsubscribeRequest, hsid, hreq, if_pos hinactive]

/-- With a SID that no other subscription has, nothing but the subscription named changes. -/
theorem setService_others (hs : s.service l = some svc) (hsame : SameBut sid svc svc')
    (hheader : (request.header "SID".toList).map (·.text) = some sid) (l' : Loc) :
    ((s.setService l svc').subs l').filter (fun sub ↦ ¬ Names request sub) =
      (s.subs l').filter fun sub ↦ ¬ Names request sub := by
  have hnames : (fun sub : Subscription ↦ decide ¬ Names request sub) =
      fun sub ↦ decide (sub.sid ≠ sid) := by
    funext sub
    apply decide_eq_decide.mpr
    rw [Names, hheader, Option.some_inj]
    exact not_congr eq_comm
  rw [State.subs_setService hs]
  split
  · rename_i hl
    rw [hl, State.subs_eq hs, hnames]
    exact hsame
  · rfl

/-- Two strings in the buffer for one value that does not fill it, one of them given. -/
theorem exists_uninit (hlt : value.length < SID_SIZE) (hle : (value ++ sid).length ≤ SID_SIZE) :
    value ++ sid.take (SID_SIZE - value.length) = value ++ sid ∧ ∃ uninit : CString,
      value ++ uninit.take (SID_SIZE - value.length) ≠ value ++ sid := by
  rw [List.length_append] at hle
  refine ⟨by rw [List.take_of_length_le (by omega)], ?_⟩
  cases sid with
  | nil =>
    refine ⟨['0'], fun heq ↦ ?_⟩
    have hempty := List.append_cancel_left heq
    rw [List.take_of_length_le (Nat.sub_pos_of_lt hlt)] at hempty
    cases hempty
  | cons c sid =>
    refine ⟨[], fun heq ↦ ?_⟩
    have hempty := List.append_cancel_left heq
    rw [List.take_nil] at hempty
    cases hempty

/-- A value that begins a SID can be completed to it, and to another string, by the buffer. -/
theorem not_matchesWholeSID (h : NamingHandler) (hpart : NamesPart samePath env s request) :
    ¬ MatchesWholeSID samePath env s request h := by
  intro hwhole
  obtain ⟨value, info, l, svc, hvalue, hreq, hactive, hlt, sub, hsub, ⟨tail, htail⟩, hle⟩ := hpart
  have hs := service_of_requestedService hreq
  rw [← htail] at hle
  obtain ⟨hbuffer, uninit, hne⟩ := exists_uninit hlt hle
  have hrun := hwhole.outcome tail uninit
  have hsid := @requestedSID_ok env request tail value hvalue
  rw [hbuffer] at hsid
  rcases @run_cases _ _ _ _ _ _ _ _ _ h hsid hreq hactive with
    ⟨hnone, -⟩ | ⟨-, svc₁, r₁, hrun₁, htouch₁⟩
  · exact hnone sub hsub htail.symm
  have hservice : (s.setService l svc₁).service l = some svc₁ := by
    rw [State.service_setService hs, if_pos rfl]
  rcases @run_cases _ _ _ _ _ _ _ _ _ h (@requestedSID_ok env request uninit value hvalue)
    hreq hactive with ⟨-, hrun₂⟩ | ⟨-, svc₂, r₂, hrun₂, htouch₂⟩
  · rw [hrun₁, hrun₂, Prod.mk.injEq] at hrun
    rcases htouch₁.done with hfewer | ⟨time_out, hr⟩
    · rw [hrun.1, hs] at hservice
      cases hservice
      exact absurd hfewer (lt_irrefl _)
    · rw [hr] at hrun
      cases hrun.2
  · rw [hrun₁, hrun₂, Prod.mk.injEq] at hrun
    have hsvc : svc₁ = svc₂ := by
      rw [hrun.1, State.service_setService hs, if_pos rfl] at hservice
      exact (Option.some.inj hservice).symm
    subst hsvc
    rcases htouch₁.done with hfewer | ⟨time_out, hr⟩
    · rw [htouch₂.others.named_eq hne.symm] at hfewer
      exact absurd hfewer (lt_irrefl _)
    · rcases htouch₂.done with hfewer | ⟨time_out', hr'⟩
      · rw [htouch₁.others.named_eq hne] at hfewer
        exact absurd hfewer (lt_irrefl _)
      · rw [hr, hr', Response.respondOK.injEq] at hrun
        exact hne hrun.2.2.symm

/-- A value that fills the buffer is the string that is searched for, and another one finds
nothing. -/
theorem matchesWholeSID_of_not (h : NamingHandler) (hpart : ¬ NamesPart samePath env s request) :
    MatchesWholeSID samePath env s request h := by
  by_cases hreach : ∃ value info l svc, requestedSID env request [] = .ok value ∧
      requestedService samePath s request = some (info, l, svc) ∧ svc.active = true
  · obtain ⟨value, info, l, svc, hvalue, hreq, hactive⟩ := hreach
    have hs := service_of_requestedService hreq
    obtain ⟨hheader, hle⟩ := value_of_requestedSID hvalue
    rcases lt_or_eq_of_le hle with hlt | hfull
    · have hrun : ∀ uninit, h.run samePath env s request uninit = (s, .BAD_CALLBACK) := by
        intro uninit
        rcases @run_cases _ _ _ _ _ _ _ _ _ h (@requestedSID_ok env request uninit value hvalue)
          hreq hactive with ⟨-, hrun⟩ | ⟨⟨sub, hsub, hsid⟩, -⟩
        · exact hrun
        · refine absurd ⟨value, info, l, svc, hvalue, hreq, hactive, hlt, sub, hsub, ?_, ?_⟩ hpart
          · rw [hsid]
            exact List.prefix_append _ _
          · rw [hsid, List.length_append, List.length_take]
            omega
      constructor
      · intro uninit l'
        rw [hrun]
      · intro uninit uninit'
        rw [hrun, hrun]
    · have hsid : ∀ uninit, requestedSID env request uninit = .ok value := by
        intro uninit
        rw [requestedSID_ok hvalue, hfull, Nat.sub_self, List.take_zero, List.append_nil]
      constructor
      · intro uninit l'
        rcases @run_cases _ _ _ _ _ _ _ _ _ h (hsid uninit) hreq hactive with
          ⟨-, hrun⟩ | ⟨-, svc', r, hrun, htouch⟩
        · rw [hrun]
        · rw [hrun]
          exact setService_others hs htouch.others hheader l'
      · intro uninit uninit'
        cases h with
        | genaRenewRequest =>
          simp only [NamingHandler.run, genaRenewRequest, hsid uninit, hsid uninit']
        | genaUnsubscribeRequest =>
          simp only [NamingHandler.run, genaUnsubscribeRequest, hsid uninit, hsid uninit']
  · obtain ⟨r, hrun⟩ := @run_unreached samePath env s request h hreach
    constructor
    · intro uninit l'
      rw [hrun]
    · intro uninit uninit'
      rw [hrun, hrun]

/-- A request touches only the subscription that its header names, whatever the buffer held, if
and only if no value that does not fill the buffer begins a SID of the list. -/
theorem matchesWholeSID_iff (samePath : CString → CString → Bool) (env : RequestEnv) (s : State)
    (request : HttpRequest) (h : NamingHandler) :
    MatchesWholeSID samePath env s request h ↔ ¬ NamesPart samePath env s request :=
  ⟨fun hwhole hpart ↦ not_matchesWholeSID h hpart hwhole, matchesWholeSID_of_not h⟩

/-- `oneService`, with a subscription. -/
def oneSubscriber (sid : CString) : State := { oneService with
  handleTable := fun h ↦ (oneService.handleTable h).map fun info ↦
    { info with serviceTable := info.serviceTable.map fun svc ↦ { svc with
      totalSubscriptions := 1
      subscriptionList := [⟨sid, 0, 0, 0, true, ["http://10.0.0.2/".toList]⟩] } } }

/-- A request with an empty `SID`. -/
def anonymousRequest : HttpRequest where
  header h := if h = "SID".toList then some ⟨[], "\r\n".toList⟩ else none
  pathquery := "/e".toList

/-- An empty SID cancels the subscription whose SID the buffer still holds. -/
theorem anonymous_unsubscribe :
    ¬ MatchesWholeSID (· = ·) plentiful
      (oneSubscriber "uuid:7c9e6679-7425-40de-944b-e07fc1f90ae7".toList) anonymousRequest
        .genaUnsubscribeRequest := by
  apply not_matchesWholeSID
  refine ⟨[], _, (1, 0), _, rfl, rfl, rfl, by decide, _, List.mem_singleton_self _,
    List.nil_prefix, ?_⟩
  decide +kernel

end Upnp.Gena
