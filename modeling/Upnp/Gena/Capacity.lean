import Upnp.Gena.LinkedAccounting

/-!
# The limit on subscriptions

A request is refused when as many nodes are linked as the device allows.  An expired node stays
linked until a look-up or a walk comes to it, and a request for a subscription makes neither.
-/

namespace Upnp.Gena.Linked

open Upnp.Lib

/-- A request for a subscription in which nothing is missing: the headers are right, the callback
has a URL, and memory is there. -/
structure WellFormed (env : RequestEnv) (request : HttpRequest) : Prop where
  nt : ∃ NT, request.header "NT".toList = some NT ∧ acceptedNT NT = true
  sid : request.header "SID".toList = none
  callback : ∃ t url urls, request.header "CALLBACK".toList = some t ∧
    env.createURLList t.text = some (url :: urls)
  path : env.pathAllocOk = true
  sub : env.subAllocOk = true

/-- The subscriptions that have expired, of those linked. -/
def expiredCount (now : Int) (nodes : Nodes) : Nat := nodes.countP (·.2.expired now)

/-- The subscriptions that have not expired. -/
def liveCount (now : Int) (nodes : Nodes) : Nat := nodes.countP (¬ ·.2.expired now)

/-- Without a want of memory, a request is refused for memory only if as many subscriptions are
live as the device allows. -/
def CountsLive (samePath : CString → CString → Bool) (env : RequestEnv) (addr : Addr) (d : Device)
    (request : HttpRequest) (nodes : Nodes) : Prop :=
  ∀ d', genaSubscriptionRequest samePath env addr d request = some (d', .UNABLE_MEMORY) →
    d.maxSubscriptions ≤ liveCount env.now nodes

variable {samePath : CString → CString → Bool} {env : RequestEnv} {addr : Addr} {d : Device}
  {request : HttpRequest} {i : Nat} {service : Service} {nodes : Nodes}

theorem liveCount_add_expiredCount (now : Int) (nodes : Nodes) :
    liveCount now nodes + expiredCount now nodes = nodes.length := by
  rw [liveCount, expiredCount, Nat.add_comm, List.length_eq_countP_add_countP (·.2.expired now)]

/-- A request that is well formed is refused for memory exactly when the count has reached the
limit. -/
theorem genaSubscriptionRequest_unable_iff (hwell : WellFormed env request)
    (hservice : d.activeService samePath request = some (i, service))
    (hlimit : d.maxSubscriptions ≠ -1) :
    (∃ d', genaSubscriptionRequest samePath env addr d request = some (d', .UNABLE_MEMORY)) ↔
      d.maxSubscriptions ≤ service.totalSubscriptions := by
  obtain ⟨NT, hNT, haccepted⟩ := hwell.nt
  obtain ⟨t, url, urls, ht, hurls⟩ := hwell.callback
  have hpass : ¬ (!true) = true := Bool.false_ne_true
  have hnone : ¬ (none : Option Token).isSome = true := Bool.false_ne_true
  unfold genaSubscriptionRequest
  rw [hNT]
  dsimp only
  rw [haccepted, if_neg hpass, hwell.sid, if_neg hnone, hwell.path, if_neg hpass, hservice]
  dsimp only
  by_cases hfull : d.maxSubscriptions ≤ service.totalSubscriptions
  · rw [if_pos ⟨hlimit, hfull⟩]
    exact iff_of_true ⟨d, rfl⟩ hfull
  · rw [if_neg fun h ↦ hfull h.2, hwell.sub, if_neg hpass, ht, Option.map_some, hurls]
    refine iff_of_false ?_ hfull
    rintro ⟨d', hd'⟩
    obtain ⟨m, -, hm⟩ := Option.bind_eq_some_iff.mp hd'
    split at hm
    · obtain ⟨m', -, hm'⟩ := Option.bind_eq_some_iff.mp hm
      cases hm'
    · obtain ⟨m', -, hm'⟩ := Option.bind_eq_some_iff.mp hm
      cases hm'

/-- In every state that is reached, the subscriptions of a service lie in a list along which the
limit counts live ones if and only if the list is shorter than the limit, or longer by as many as
have expired. -/
theorem capacity_counts_live_iff (h : (machine samePath).Reachable (some d))
    (hwell : WellFormed env request)
    (hservice : d.activeService samePath request = some (i, service))
    (hlimit : d.maxSubscriptions ≠ -1) :
    ∃ nodes, Chained d.mem service.subscriptionList nodes ∧
      (CountsLive samePath env addr d request nodes ↔
        (nodes.length : Int) < d.maxSubscriptions ∨
          d.maxSubscriptions + expiredCount env.now nodes ≤ nodes.length) := by
  obtain ⟨d', cells, heq, hs⟩ := h.invariant inOrder_inductive
  cases heq
  have hi := Device.activeService_some hservice
  have htotal := (hs.counted i service hi).total_eq
  have hcount := liveCount_add_expiredCount env.now (cells i)
  refine ⟨cells i, hs.layout.chained i service hi, ?_⟩
  rw [CountsLive, ← exists_imp,
    genaSubscriptionRequest_unable_iff hwell hservice hlimit, htotal]
  omega

/-- What the environment answers to a second subscriber of the lamp. -/
def secondEnv (now : Int) : RequestEnv := ⟨now, now, true, true, fun t ↦ some [t], true, "2".toList⟩

theorem secondEnv_wellFormed (now : Int) : WellFormed (secondEnv now) lampRequest where
  nt := ⟨_, rfl, by decide⟩
  sid := rfl
  callback := ⟨_, _, _, rfl, rfl⟩
  path := rfl
  sub := rfl

/-- The lamp with its only subscription, which ends at 1801. -/
theorem lamp_full : ∃ d : Device, (machine (· == ·)).Reachable (some d) ∧ d.maxSubscriptions = 1 ∧
    ∃ service, d.activeService (· == ·) lampRequest = some (0, service) ∧
      service.totalSubscriptions = 1 ∧ service.subscriptionList = some 7 ∧
        ∃ sub, d.mem.get 7 = some ⟨sub, none⟩ ∧ sub.expireTime = 1801 := by
  have hinit : (machine (· == ·)).Reachable (some lamp) := .init ⟨lamp, rfl, lamp_initial⟩
  exact ⟨_, hinit.step (l := lampEntry) trivial rfl, rfl, _, rfl, rfl, rfl, _, rfl, by decide⟩

/-- The limit counts live ones while the subscription lives. -/
theorem capacity_counts_live_lamp : ∃ (d : Device) (service : Service) (nodes : Nodes) (limit : Int), limit = 1 ∧
    Chained d.mem service.subscriptionList nodes ∧
      (CountsLive (· == ·) (secondEnv 5) 8 d lampRequest nodes ↔
        (nodes.length : Int) < limit ∨ limit + expiredCount 5 nodes ≤ nodes.length) := by
  obtain ⟨d, hreach, hlimit, service, hservice, -⟩ := lamp_full
  obtain ⟨nodes, hnodes, hiff⟩ := @capacity_counts_live_iff _ (secondEnv 5) 8 _ _ _ _ hreach
    (secondEnv_wellFormed 5) hservice (by rw [hlimit]; decide)
  exact ⟨d, service, nodes, d.maxSubscriptions, hlimit, hnodes, hiff⟩

/-- A subscription that expired 3199 seconds ago still keeps a second subscriber out. -/
theorem expired_fills_lamp : ∃ d : Device, (machine (· == ·)).Reachable (some d) ∧
    WellFormed (secondEnv 5000) lampRequest ∧ d.maxSubscriptions ≠ -1 ∧
    ∃ i service, d.activeService (· == ·) lampRequest = some (i, service) ∧
      ∃ nodes, Chained d.mem service.subscriptionList nodes ∧
        ¬ CountsLive (· == ·) (secondEnv 5000) 8 d lampRequest nodes := by
  obtain ⟨d, hreach, hlimit, service, hservice, htotal, hhead, sub, hget, hexpire⟩ := lamp_full
  have hne : d.maxSubscriptions ≠ -1 := by
    rw [hlimit]
    decide
  refine ⟨d, hreach, secondEnv_wellFormed 5000, hne, 0, service, hservice, [(7, sub)], ?_, ?_⟩
  · rw [hhead]
    exact ⟨⟨rfl, none, hget, rfl⟩, List.nodup_singleton _⟩
  · intro hlive
    obtain ⟨d', hd'⟩ := (@genaSubscriptionRequest_unable_iff _ _ 8 _ _ _ _
      (secondEnv_wellFormed 5000) hservice hne).mpr (by rw [hlimit, htotal])
    have hle := hlive d' hd'
    have hexpired : sub.expired 5000 = true := by
      rw [Subscription.expired, hexpire]
      decide
    rw [hlimit, liveCount, List.countP_cons, List.countP_nil] at hle
    simp [secondEnv, hexpired] at hle

end Upnp.Gena.Linked
