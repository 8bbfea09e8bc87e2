import Upnp.Gena.Wire

/-!
# The lifetime that is granted

A device with a limit is to leave each subscription that it accepts or renews with an end
within that limit, and to state it in the response.  The clamp of the source does not look
at times that are not positive, for which a subscription never expires.
-/

namespace Upnp.Gena

open Upnp.Lib

/-- The requests that set the time of expiry. -/
inductive Handler where
  | genaSubscriptionRequest
  | genaRenewRequest (uninit : CString)

namespace Handler

/-- The handler of such a request. -/
def run (samePath : CString → CString → Bool) (env : RequestEnv) (s : State)
    (request : HttpRequest) : Handler → State × Response
  | genaSubscriptionRequest => Gena.genaSubscriptionRequest samePath env s request
  | genaRenewRequest uninit => Gena.genaRenewRequest samePath env s request uninit

/-- `current_time`, when the new time of expiry is computed. -/
def current_time (env : RequestEnv) : Handler → Int
  | genaSubscriptionRequest => env.now
  | genaRenewRequest _ => env.later

end Handler

/-- The subscription ends, at most `M` seconds from now, and the response says when. -/
structure Lifetime (M now time_out : Int) (sub : Subscription) : Prop where
  ends : sub.expireTime ≠ 0
  le : sub.expireTime ≤ now + M
  stated : ∀ w : Wire, "TIMEOUT: Second-".toList ++ decimal (sub.expireTime - now) ++
    "\r\n\r\n".toList <:+ w.okMessage time_out sub.sid

/-- The number behind `Second-`, as an `int`, is positive or the one that stands for no end. -/
def AsksForTime (timeout : Option Token) : Prop :=
  ∀ t ∈ timeout, "Second-".toList <+: t.buff →
    ∀ v ∈ strtol 10 (t.buff.drop 7), wrap32 v = -1 ∨ 0 < wrap32 v

/-! ## The clamp -/

variable {M now time_out : Int} {timeout : Option Token} {sub : Subscription}

theorem requestedTimeout_pos_iff :
    requestedTimeout timeout = -1 ∨ 0 < requestedTimeout timeout ↔ AsksForTime timeout := by
  cases timeout with
  | none => exact iff_of_true (.inr (by decide)) fun t h ↦ by cases h
  | some t =>
    have hinfinite : ∀ b : Bool, (if b then -1 else DEFAULT_TIMEOUT) = -1 ∨
        0 < if b then -1 else DEFAULT_TIMEOUT := by
      intro b
      cases b with
      | false => exact .inr (by decide)
      | true => exact .inl rfl
    rw [requestedTimeout]
    by_cases hsecond : "Second-".toList.isPrefixOf t.buff
    · rw [if_pos hsecond]
      cases hv : strtol 10 (t.buff.drop 7) with
      | none =>
        refine iff_of_true (hinfinite _) ?_
        rintro _ ⟨⟩ _ v hmem
        rw [hv] at hmem
        cases hmem
      | some v =>
        constructor
        · rintro h _ ⟨⟩ _ v' hmem
          rw [hv] at hmem
          cases hmem
          exact h
        · intro h
          exact h t rfl (List.isPrefixOf_iff_prefix.mp hsecond) v (hv ▸ rfl)
    · rw [if_neg hsecond]
      refine iff_of_true (hinfinite _) ?_
      rintro _ ⟨⟩ hmem
      exact absurd (List.isPrefixOf_iff_prefix.mpr hmem) hsecond

theorem grantedTimeout_le (hM : M ≠ -1) : grantedTimeout M timeout ≤ M := by
  rw [grantedTimeout]
  split
  · exact le_rfl
  · rename_i h
    rw [not_and, not_or] at h
    exact not_lt.mp (h hM).2

theorem grantedTimeout_pos_iff (hM : M ≠ -1) :
    0 < grantedTimeout M timeout ↔ 0 < M ∧ AsksForTime timeout := by
  rw [← requestedTimeout_pos_iff, grantedTimeout]
  split
  · rename_i h
    constructor
    · intro hpos
      exact ⟨hpos, h.2.imp_right hpos.trans⟩
    · exact fun hpos ↦ hpos.1
  · rename_i h
    rw [not_and, not_or] at h
    obtain ⟨hne, hle⟩ := h hM
    constructor
    · intro hpos
      exact ⟨hpos.trans_le (not_lt.mp hle), .inr hpos⟩
    · exact fun hpos ↦ hpos.2.resolve_left hne

/-- The last line of the response. -/
theorem okMessage_timeout (w : Wire) (hpos : 0 ≤ time_out) (sid : CString) :
    "TIMEOUT: Second-".toList ++ decimal time_out ++ "\r\n\r\n".toList <:+
      w.okMessage time_out sid :=
  ⟨_, congrArg (_ ++ ·) (if_pos hpos).symm⟩

/-- What is granted is a lifetime exactly when it is positive. -/
theorem lifetime_iff (hnow : 0 ≤ now) (hle : time_out ≤ M)
    (hsub : sub.expireTime = expireTimeOf now time_out) :
    Lifetime M now time_out sub ↔ 0 < time_out := by
  constructor
  · intro h
    by_contra hneg
    rw [expireTimeOf, if_neg hneg] at hsub
    exact h.ends hsub
  · intro hpos
    rw [expireTimeOf, if_pos hpos] at hsub
    constructor
    · rw [hsub]
      omega
    · rw [hsub]
      exact Int.add_le_add_left hle now
    · have hstated : sub.expireTime - now = time_out := by
        rw [hsub]
        exact add_sub_cancel_left now time_out
      rw [hstated]
      exact fun w ↦ okMessage_timeout w hpos.le sub.sid

/-! ## The handlers -/

variable {samePath : CString → CString → Bool} {env : RequestEnv} {s : State}
  {request : HttpRequest} {uninit sid : CString} {info : HandleInfo} {l : Loc} {svc : ServiceInfo}

/-- The subscription that a request asks for. -/
def newSubscription (env : RequestEnv) (M : Int) (request : HttpRequest) (urls : List CString) :
    Subscription where
  sid := "uuid:".toList ++ env.uuid
  eventKey := 0
  toSendEventKey := 0
  expireTime := expireTimeOf env.now (grantedTimeout M (request.header "TIMEOUT".toList))
  active := false
  deliveryURLs := urls

/-- What a request for a subscription has when it is accepted, and what it leaves. -/
theorem genaSubscriptionRequest_accepted
    (hreq : requestedService samePath s request = some (info, l, svc))
    (hresult : (genaSubscriptionRequest samePath env s request).2 = .respondOK time_out sid) :
    (∃ nt, request.header "NT".toList = some nt ∧ acceptedNT nt = true) ∧
      time_out = grantedTimeout info.maxSubscriptionTimeOut (request.header "TIMEOUT".toList) ∧
      sid = "uuid:".toList ++ env.uuid ∧ ∃ urls, (env.respondOk = true →
        (genaSubscriptionRequest samePath env s request).1.handleTable =
          (s.setService l { svc with
            subscriptionList :=
              newSubscription env info.maxSubscriptionTimeOut request urls :: svc.subscriptionList
            totalSubscriptions := svc.totalSubscriptions + 1 }).handleTable) := by
  unfold genaSubscriptionRequest at hresult ⊢
  rw [hreq] at hresult ⊢
  cases hnt : request.header "NT".toList with
  | none =>
    rw [hnt] at hresult
    cases hresult
  | some nt =>
    rw [hnt] at hresult
    dsimp only at hresult ⊢
    split at hresult
    · cases hresult
    rename_i haccepted
    rw [if_neg haccepted]
    refine ⟨⟨nt, rfl, by simpa using haccepted⟩, ?_⟩
    iterate 5
      split at hresult
      · cases hresult
      rename_i hpassed
      rw [if_neg hpassed]
    split at hresult
    · cases hresult
    · cases hresult
    · cases hresult
    rename_i urls hnil hurls
    split at hresult
    · rename_i hsend
      cases hresult
      refine ⟨rfl, rfl, urls, fun hok ↦ ?_⟩
      rw [hok] at hsend
      cases hsend
    · rename_i hsend
      cases hresult
      refine ⟨rfl, rfl, urls, fun _ ↦ ?_⟩
      rw [if_neg hsend]
      rfl

/-- An accepted request leaves the subscription that its response names with what it grants. -/
structure Leaves (s' : State) (l : Loc) (M now : Int) (timeout : Option Token) (time_out : Int)
    (sid : CString) : Prop where
  granted : time_out = grantedTimeout M timeout
  found : ∃ svc' sub, s'.service l = some svc' ∧
    svc'.subscriptionList.find? (·.sid = sid) = some sub ∧
      sub.expireTime = expireTimeOf now time_out

theorem leaves_genaSubscriptionRequest
    (hreq : requestedService samePath s request = some (info, l, svc))
    (hresult : (genaSubscriptionRequest samePath env s request).2 = .respondOK time_out sid)
    (hok : env.respondOk = true) :
    Leaves (genaSubscriptionRequest samePath env s request).1 l info.maxSubscriptionTimeOut env.now
      (request.header "TIMEOUT".toList) time_out sid := by
  obtain ⟨-, rfl, rfl, urls, htable⟩ := genaSubscriptionRequest_accepted hreq hresult
  refine ⟨rfl, { svc with
    subscriptionList :=
      newSubscription env info.maxSubscriptionTimeOut request urls :: svc.subscriptionList
    totalSubscriptions := svc.totalSubscriptions + 1 }, _, ?_,
    List.find?_cons_of_pos (decide_eq_true rfl), rfl⟩
  rw [State.service_congr (htable hok),
    State.service_setService (service_of_requestedService hreq), if_pos rfl]

/-- What a renewal that is accepted does. -/
theorem genaRenewRequest_accepted
    (hreq : requestedService samePath s request = some (info, l, svc))
    (hresult : (genaRenewRequest samePath env s request uninit).2 = .respondOK time_out sid) :
    requestedSID env request uninit = .ok sid ∧ svc.subscriptionList.any (·.sid = sid) = true ∧
      time_out = grantedTimeout info.maxSubscriptionTimeOut (request.header "TIMEOUT".toList) ∧
      (env.respondOk = true → (genaRenewRequest samePath env s request uninit).1 =
        s.setService l (svc.modifySID sid fun sub ↦
          { sub with expireTime := expireTimeOf env.later time_out })) := by
  unfold genaRenewRequest at hresult ⊢
  cases hsid : requestedSID env request uninit with
  | error r =>
    rw [hsid] at hresult
    exact absurd hresult (requestedSID_error hsid _ _)
  | ok asked =>
    rw [hsid, hreq] at hresult
    rw [hreq]
    dsimp only at hresult ⊢
    split at hresult
    · cases hresult
    rename_i hactive
    rw [if_neg hactive]
    rcases getSubscriptionSID_cases svc asked env.now with
      ⟨hg, -⟩ | ⟨_, -, -, -, hg⟩ | ⟨sub, hsub, hasked, -, -, hg⟩
    · rw [hg] at hresult
      cases hresult
    · rw [hg] at hresult
      cases hresult
    · rw [hg] at hresult ⊢
      dsimp only at hresult ⊢
      split at hresult
      · cases hresult
      rename_i hroom
      rw [if_neg hroom]
      cases hresult
      refine ⟨rfl, List.any_eq_true.mpr ⟨sub, hsub, decide_eq_true hasked⟩, rfl, fun hok ↦ ?_⟩
      rw [hok]
      rfl

theorem find?_modifySID {f : Subscription → Subscription} (hf : ∀ a, (f a).sid = a.sid)
    (hany : svc.subscriptionList.any (·.sid = sid) = true) :
    ∃ sub, (svc.modifySID sid f).subscriptionList.find? (·.sid = sid) = some (f sub) := by
  change ∃ sub, (ServiceInfo.modifyFirst _ f svc.subscriptionList).find? _ = _
  generalize svc.subscriptionList = subs at hany ⊢
  induction subs with
  | nil => cases hany
  | cons a subs ih =>
    by_cases ha : a.sid = sid
    · refine ⟨a, ?_⟩
      rw [ServiceInfo.modifyFirst, if_pos (decide_eq_true ha)]
      exact List.find?_cons_of_pos (decide_eq_true ((hf a).trans ha))
    · rw [List.any_cons, decide_eq_false ha, Bool.false_or] at hany
      obtain ⟨sub, hsub⟩ := ih hany
      refine ⟨sub, ?_⟩
      rw [ServiceInfo.modifyFirst, if_neg (by simpa using ha),
        List.find?_cons_of_neg (by simpa using ha)]
      exact hsub

theorem leaves_genaRenewRequest
    (hreq : requestedService samePath s request = some (info, l, svc))
    (hresult : (genaRenewRequest samePath env s request uninit).2 = .respondOK time_out sid)
    (hok : env.respondOk = true) :
    Leaves (genaRenewRequest samePath env s request uninit).1 l info.maxSubscriptionTimeOut
      env.later (request.header "TIMEOUT".toList) time_out sid := by
  obtain ⟨-, hany, htime, hstate⟩ := genaRenewRequest_accepted hreq hresult
  obtain ⟨sub, hsub⟩ := @find?_modifySID sid svc
    (fun sub ↦ { sub with expireTime := expireTimeOf env.later time_out }) (fun _ ↦ rfl) hany
  refine ⟨htime, _, _, ?_, hsub, rfl⟩
  rw [hstate hok, State.service_setService (service_of_requestedService hreq), if_pos rfl]

variable {h : Handler}

theorem Handler.leaves (hreq : requestedService samePath s request = some (info, l, svc))
    (hresult : (h.run samePath env s request).2 = .respondOK time_out sid)
    (hok : env.respondOk = true) :
    Leaves (h.run samePath env s request).1 l info.maxSubscriptionTimeOut (h.current_time env)
      (request.header "TIMEOUT".toList) time_out sid := by
  cases h with
  | genaSubscriptionRequest => exact leaves_genaSubscriptionRequest hreq hresult hok
  | genaRenewRequest uninit => exact leaves_genaRenewRequest hreq hresult hok

/-- The subscription that an accepted request names has a lifetime within the limit `M`, and the
response states it. -/
def GrantsLifetime (s' : State) (l : Loc) (M now time_out : Int) (sid : CString) : Prop :=
  ∃ svc' sub, s'.service l = some svc' ∧
    svc'.subscriptionList.find? (·.sid = sid) = some sub ∧ Lifetime M now time_out sub

/-- On a device with a limit, what an accepted request is granted is a lifetime if and only if the
limit is positive and the request does not ask for a time that is not. -/
theorem lifetime_granted_iff (hclock : 0 ≤ h.current_time env)
    (hreq : requestedService samePath s request = some (info, l, svc))
    (hM : info.maxSubscriptionTimeOut ≠ -1)
    (hresult : (h.run samePath env s request).2 = .respondOK time_out sid)
    (hok : env.respondOk = true) :
    GrantsLifetime (h.run samePath env s request).1 l info.maxSubscriptionTimeOut
        (h.current_time env) time_out sid ↔
      0 < info.maxSubscriptionTimeOut ∧ AsksForTime (request.header "TIMEOUT".toList) := by
  obtain ⟨hgranted, svc', sub, hs, hsub, hexpire⟩ := Handler.leaves hreq hresult hok
  have hle : time_out ≤ info.maxSubscriptionTimeOut := by
    rw [hgranted]
    exact grantedTimeout_le hM
  rw [← grantedTimeout_pos_iff hM, ← hgranted, ← lifetime_iff hclock hle hexpire]
  constructor
  · rintro ⟨svc'', sub', hs', hsub', hlife⟩
    rw [hs] at hs'
    cases hs'
    rw [hsub] at hsub'
    cases hsub'
    exact hlife
  · exact fun hlife ↦ ⟨svc', sub, hs, hsub, hlife⟩

/-- `oneService`, with a limit of `M` seconds. -/
def limited (M : Int) : State := { oneService with
  handleTable := fun h ↦ (oneService.handleTable h).map ({ · with maxSubscriptionTimeOut := M }) }

/-- `subscribeRequest`, with a `TIMEOUT`. -/
def timedRequest (timeout : String) : HttpRequest := { subscribeRequest with
  header := fun h ↦ if h = "TIMEOUT".toList then some ⟨timeout.toList, "\r\n".toList⟩
    else subscribeRequest.header h }

theorem lifetime_granted_default :
    GrantsLifetime (Handler.genaSubscriptionRequest.run (· = ·) plentiful (limited 600)
        subscribeRequest).1 (1, 0) 600 0 600 "uuid:7".toList ↔
      (0 : Int) < 600 ∧ AsksForTime (subscribeRequest.header "TIMEOUT".toList) :=
  @lifetime_granted_iff 600 (· = ·) plentiful (limited 600) subscribeRequest "uuid:7".toList
    ⟨.HND_DEVICE, [⟨"s".toList, "u".toList, some "/e".toList, true, 0, []⟩], -1, 600⟩ (1, 0) _
    .genaSubscriptionRequest le_rfl rfl (by decide) (by decide +kernel) rfl

/-- A subscription for no time never expires. -/
theorem lifetime_zero :
    ¬ GrantsLifetime (Handler.genaSubscriptionRequest.run (· = ·) plentiful (limited 600)
      (timedRequest "Second-0")).1 (1, 0) 600 0 0 "uuid:7".toList := by
  rintro ⟨svc', sub, hs, hsub, hlife⟩
  have hexpire : ∀ svc' ∈ (Handler.genaSubscriptionRequest.run (· = ·) plentiful (limited 600)
      (timedRequest "Second-0")).1.service (1, 0), ∀ sub ∈ svc'.subscriptionList,
        sub.expireTime = 0 := by
    decide +kernel
  exact hlife.ends (hexpire svc' hs sub (List.mem_of_find?_eq_some hsub))

end Upnp.Gena
