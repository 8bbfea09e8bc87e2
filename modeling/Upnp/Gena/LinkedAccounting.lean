import Upnp.Gena.LinkedRuns
import Upnp.Gena.Ordering

/-!
# Accounting of the subscription table

No run of a device faults, every service counts its subscriptions, and the limit
holds as long as it is not lowered.  In the states so reached the look-ups and the
walks take away expired subscriptions only.
-/

namespace Upnp.Gena.Linked

open Upnp.Lib

variable {samePath : CString → CString → Bool} {m m' : Mem} {service service' : Service}
  {nodes nodes' rest : Nodes} {now : Int} {d d' : Device} {i : Nat} {cells : Nat → Nodes}

/-! ## Runs -/

/-- What an action does to a device whose table is in order. -/
theorem Device.Sound.act (samePath : CString → CString → Bool) (h : d.Sound cells) {a : Action}
    (ha : Enabled d a) (hset : ∀ m, a ≠ .setMaxSubscriptions m) :
    ∃ d', act samePath d a = some d' ∧ d.Keeps d' := by
  cases a with
  | subscribe env addr request =>
    obtain ⟨d', r, heq, hk⟩ := h.genaSubscriptionRequest samePath env addr request ha.1 ha.2
    exact ⟨d', by simp only [Linked.act, heq, Option.map_some], hk⟩
  | renew env request uninit =>
    obtain ⟨d', r, heq, hk⟩ := h.genaRenewRequest samePath env request uninit
    exact ⟨d', by simp only [Linked.act, heq, Option.map_some], hk⟩
  | unsubscribe env request uninit =>
    obtain ⟨d', r, heq, hk⟩ := h.genaUnsubscribeRequest samePath env request uninit
    exact ⟨d', by simp only [Linked.act, heq, Option.map_some], hk⟩
  | initNotify env ps udn servId sid =>
    obtain ⟨d', r, heq, hk⟩ := h.initNotify env ps udn servId sid
    exact ⟨d', by simp only [Linked.act, heq, Option.map_some], hk⟩
  | notifyAll env ps udn servId =>
    obtain ⟨d', r, heq, hk⟩ := h.notifyAll env ps udn servId
    exact ⟨d', by simp only [Linked.act, heq, Option.map_some], hk⟩
  | notifyThreadCheck now udn servId sid => exact h.notifyThreadCheck now udn servId sid
  | notifyThreadFinish now rc udn servId sid => exact h.notifyThreadFinish now rc udn servId sid
  | getSubscriptionSID i now sid =>
    simp only [Linked.act]
    cases hs : d.services[i]? with
    | none => exact ⟨d, rfl, h.keeps⟩
    | some service =>
      have hch := h.layout.chained i service hs
      rcases trim_getSubscriptionSID now sid hch with
        ⟨m', service', nodes', heq, ht⟩ | ⟨pre, a, v, rest, -, heq⟩
      · exact ⟨d.put i (m', service'), by simp [heq], h.put hs ht⟩
      · exact ⟨d.put i (d.mem, service), by simp [heq], h.put hs (.refl hch)⟩
  | removeSubscriptionSID i sid =>
    simp only [Linked.act]
    cases hs : d.services[i]? with
    | none => exact ⟨d, rfl, h.keeps⟩
    | some service =>
      obtain ⟨m', service', nodes', heq, ht⟩ :=
        trim_removeSubscriptionSID sid (h.layout.chained i service hs)
      exact ⟨d.put i (m', service'), by simp [heq], h.put hs ht⟩
  | walk i clock =>
    simp only [Linked.act]
    cases hs : d.services[i]? with
    | none => exact ⟨d, rfl, h.keeps⟩
    | some service =>
      obtain ⟨m', p, heq, hedit⟩ := walk_spec clock (h.layout.chained i service hs)
      exact ⟨_, by simp only [heq, Option.map_some],
        h.put hs ⟨hedit, shrinks_walk clock service (cells i) p⟩⟩
  | setMaxSubscriptions m => exact absurd rfl (hset m)

/-- A device whose table is in order. -/
def InOrder (s : Option Device) : Prop := ∃ d cells, s = some d ∧ d.Sound cells

theorem inOrder_inductive : (machine samePath).Inductive (fun _ _ ↦ True) InOrder where
  init := by
    rintro s ⟨d, rfl, hmem, hfresh, -⟩
    refine ⟨d, fun _ ↦ [], rfl, ⟨fun i x hx ↦ ⟨?_, .nil⟩, ?_, ?_⟩, fun i x hx ↦ ⟨?_, .nil, ?_⟩⟩
    · exact (hfresh x (List.mem_of_getElem? hx)).2.2
    · simp
    · simp [hmem]
    · simpa [Service.toInfo] using (hfresh x (List.mem_of_getElem? hx)).2.1
    · simp [Service.toInfo]
  step := by
    rintro _ a s' ⟨d, cells, rfl, hs⟩ - hstep
    by_cases ha : Enabled d a
    swap
    · simp [machine, ha] at hstep
    obtain rfl : Linked.act samePath d a = s' := by simpa [machine, ha] using hstep
    by_cases hset : ∃ m, a = .setMaxSubscriptions m
    · obtain ⟨m, rfl⟩ := hset
      refine ⟨setMaxSubscriptions d m, cells, rfl, ?_⟩
      unfold setMaxSubscriptions
      split
      · exact hs
      · exact ⟨⟨hs.layout.chained, hs.layout.disjoint, hs.layout.linked⟩, hs.counted⟩
    · obtain ⟨d', heq, hk⟩ := hs.act samePath ha fun m hm ↦ hset ⟨m, hm⟩
      obtain ⟨cells', hs'⟩ := hk.sound
      exact ⟨d', cells', heq, hs'⟩

/-- The limit is not lowered. -/
def NotLowered : Option Device → Action → Prop
  | some d, .setMaxSubscriptions m => m = -1 ∨ d.maxSubscriptions ≠ -1 ∧ d.maxSubscriptions ≤ m
  | _, _ => True

/-- No count is beyond the limit, if there is one. -/
def Device.Limited (d : Device) : Prop :=
  d.maxSubscriptions ≠ -1 → 0 ≤ d.maxSubscriptions ∧ ∀ (i : Nat) (service : Service),
    d.services[i]? = some service → service.totalSubscriptions ≤ d.maxSubscriptions

theorem limited_inductive : (machine samePath).Inductive NotLowered fun s ↦
    InOrder s ∧ ∀ d, s = some d → d.Limited where
  init s hs := by
    refine ⟨inOrder_inductive.init s hs, ?_⟩
    obtain ⟨d, rfl, -, hfresh, -, hmax⟩ := hs
    rintro d ⟨⟩ hlim
    refine ⟨hmax.resolve_left hlim, fun i x hx ↦ ?_⟩
    rw [(hfresh x (List.mem_of_getElem? hx)).2.1]
    exact hmax.resolve_left hlim
  step := by
    rintro s a s' ⟨hord, hlimited⟩ hok hstep
    refine ⟨inOrder_inductive.step s a s' hord trivial hstep, ?_⟩
    obtain ⟨d, cells, rfl, hs⟩ := hord
    have hd := hlimited d rfl
    by_cases ha : Enabled d a
    swap
    · simp [machine, ha] at hstep
    obtain rfl : Linked.act samePath d a = s' := by simpa [machine, ha] using hstep
    by_cases hset : ∃ m, a = .setMaxSubscriptions m
    · obtain ⟨m, rfl⟩ := hset
      rintro d' ⟨⟩
      unfold setMaxSubscriptions
      split
      · exact hd
      · intro hlim
        obtain ⟨hne, hle⟩ := hok.resolve_left hlim
        obtain ⟨hpos, hall⟩ := hd hne
        exact ⟨hpos.trans hle, fun i x hx ↦ (hall i x hx).trans hle⟩
    · obtain ⟨d', heq, hk⟩ := hs.act samePath ha fun m hm ↦ hset ⟨m, hm⟩
      rw [heq]
      rintro d'' ⟨⟩ hlim
      rw [hk.maxSubscriptions] at hlim ⊢
      obtain ⟨hpos, hall⟩ := hd hlim
      refine ⟨hpos, fun i x hx ↦ ?_⟩
      obtain ⟨y, hy, hle⟩ := hk.total_le i x hx
      exact (hle hlim).trans (max_le (hall i y hy) le_rfl)

/-! ## Look-ups and walks -/

/-- Nodes leave a list only when they have expired, and the others keep their order. -/
def OnlyExpired (now : Int) (nodes nodes' : Nodes) : Prop :=
  nodes'.Sublist nodes ∧ ∀ x ∈ nodes, x ∉ nodes' → x.2.expired now

/-- An edit leaves the list with `nodes'`, the rest of the memory as it was, and the count
right. -/
def Leaves (m : Mem) (nodes : Nodes) (m' : Mem) (service' : Service)
    (nodes' : Nodes) : Prop :=
  Edit m nodes m' service'.subscriptionList nodes' ∧ service'.totalSubscriptions = nodes'.length

/-- `GetSubscriptionSID` returns the live node with the SID, and takes away the expired one. -/
def LooksUp (m : Mem) (service : Service) (nodes : Nodes) : Prop :=
  ∀ now sid, ∃ m' service', getSubscriptionSID now sid m service =
      some (m', service',
        (nodes.find? fun x ↦ x.2.sid = sid ∧ ¬ x.2.expired now).map Prod.fst) ∧
    Leaves m nodes m' service' (nodes.filter fun x ↦ ¬ (x.2.sid = sid ∧ x.2.expired now))

/-- `RemoveSubscriptionSID` takes the node with the SID away. -/
def Removes (m : Mem) (service : Service) (nodes : Nodes) : Prop :=
  ∀ sid, ∃ m' service', removeSubscriptionSID sid m service = some (m', service') ∧
    Leaves m nodes m' service' (nodes.filter fun x ↦ x.2.sid ≠ sid)

/-- `GetFirstSubscription`, and `GetNextSubscription` at each node, return the next node that is
active and has not expired. -/
def Steps (m : Mem) (service : Service) (nodes : Nodes) : Prop :=
  ∀ now,
    (∃ m' service' nodes', getFirstSubscription now m service =
        some (m', service',
          (nodes.find? fun x ↦ x.2.active ∧ ¬ x.2.expired now).map Prod.fst) ∧
      Leaves m nodes m' service' nodes' ∧ OnlyExpired now nodes nodes') ∧
    ∀ pre b u rest, nodes = pre ++ (b, u) :: rest →
      ∃ m' service' rest', getNextSubscription now m service (some b) =
          some (m', service',
            (rest.find? fun x ↦ x.2.active ∧ ¬ x.2.expired now).map Prod.fst) ∧
        Leaves m nodes m' service' (pre ++ (b, u) :: rest') ∧ OnlyExpired now rest rest'

/-- A walk visits every node that is active and lives to its end, no node twice, and only active
nodes that lived when it began; `clock visited.length` is its last reading of the clock. -/
def Walks (m : Mem) (service : Service) (nodes : Nodes) : Prop :=
  ∀ clock, Monotone clock → ∃ m' service' visited nodes',
    walk clock m service = some (m', service', visited) ∧
      Leaves m nodes m' service' nodes' ∧
      OnlyExpired (clock visited.length) nodes nodes' ∧
      visited.Nodup ∧
      (∀ x ∈ nodes, x.2.active → ¬ x.2.expired (clock visited.length) → x.1 ∈ visited) ∧
      ∀ a ∈ visited, ∃ x ∈ nodes, x.1 = a ∧ x.2.active ∧ ¬ x.2.expired (clock 0)

/-- With distinct SIDs the first node that a test on one SID accepts is the only one. -/
theorem eraseP_sid (hnd : (nodes.map (·.2.sid)).Nodup) (sid : CString)
    {q : Addr × Subscription → Bool} (hq : ∀ x, q x → x.2.sid = sid) :
    nodes.eraseP q = nodes.filter (! q ·) := by
  induction nodes with
  | nil => rfl
  | cons y nodes ih =>
    rw [List.map_cons, List.nodup_cons] at hnd
    by_cases hy : q y
    · have hrest : ∀ x ∈ nodes, ¬ q x := fun x hx hqx ↦
        hnd.1 (List.mem_map.mpr ⟨x, hx, (hq x hqx).trans (hq y hy).symm⟩)
      rw [List.eraseP_cons_of_pos hy, List.filter_cons_of_neg (by simp [hy])]
      exact (List.filter_eq_self.mpr fun x hx ↦ by simpa using hrest x hx).symm
    · rw [List.eraseP_cons_of_neg hy, List.filter_cons_of_pos (by simpa using hy), ih hnd.2]

/-- With distinct SIDs a search for one SID ends at the node that has it. -/
theorem find?_sid {pre : Nodes} {a : Addr} {v : Subscription} {sid : CString}
    (hpre : ∀ x ∈ pre, x.2.sid ≠ sid) (hv : v.sid = sid) (he : ¬ v.expired now) :
    (pre ++ (a, v) :: rest).find? (fun x ↦ x.2.sid = sid ∧ ¬ x.2.expired now) = some (a, v) := by
  rw [List.find?_append, List.find?_eq_none.mpr fun x hx ↦ by simp [hpre x hx]]
  simp [hv, he]

variable {sids : List CString}

theorem Counted.nodup_sids (hc : Counted sids (service.toInfo nodes)) :
    (nodes.map (·.2.sid)).Nodup := by
  have hnd : ((nodes.map Prod.snd).map (·.sid)).Nodup := hc.nodup
  rwa [List.map_map] at hnd

theorem Counted.total_eq (hc : Counted sids (service.toInfo nodes)) :
    service.totalSubscriptions = nodes.length := by
  simpa [Service.toInfo] using hc.total

theorem Trim.leaves (h : Trim m service nodes m' service' nodes')
    (hc : Counted sids (service.toInfo nodes)) : Leaves m nodes m' service' nodes' :=
  ⟨h.edit, (h.shrinks.counted hc).total_eq⟩

theorem looksUp (h : Chained m service.subscriptionList nodes)
    (hc : Counted sids (service.toInfo nodes)) : LooksUp m service nodes := by
  intro now sid
  have herase := eraseP_sid hc.nodup_sids sid
    (q := fun x ↦ x.2.sid = sid ∧ x.2.expired now) (by simp +contextual)
  simp only [← decide_not] at herase
  rcases getSubscriptionSID_spec now sid h with
    ⟨m', service', nodes', heq, hedit, hmodel, rfl⟩ |
    ⟨pre, a, v, rest, rfl, hpre, hv, he, heq, -⟩
  · have hshrinks := shrinks_getSubscriptionSID now sid (service.toInfo nodes)
    rw [hmodel] at hshrinks
    have hnone : nodes.find? (fun x ↦ x.2.sid = sid ∧ ¬ x.2.expired now) = none := by
      rw [List.find?_eq_none]
      intro x hx hlive
      obtain ⟨hsid, hlive⟩ := of_decide_eq_true hlive
      have hmem : x.2 ∈ (service.toInfo nodes).subscriptionList := List.mem_map_of_mem hx
      rcases getSubscriptionSID_cases (service.toInfo nodes) sid now with
        ⟨-, hall⟩ | ⟨s, hs, hssid, hsexp, -⟩ | ⟨s, -, -, -, -, hmodel'⟩
      · exact hall _ hmem hsid
      · have heq : x.2 = s := List.inj_on_of_nodup_map hc.nodup hmem hs (hsid.trans hssid.symm)
        exact hlive (heq ▸ hsexp)
      · rw [hmodel] at hmodel'
        exact nomatch congrArg Prod.snd hmodel'
    exact ⟨m', service', by rw [hnone]; exact heq, herase ▸ (Trim.mk hedit hshrinks).leaves hc⟩
  · refine ⟨m, service, by rw [find?_sid hpre hv he]; exact heq, ?_⟩
    have hkeep : ∀ x ∈ pre ++ (a, v) :: rest, ¬ (x.2.sid = sid ∧ x.2.expired now) := by
      rintro x hx ⟨hsid, hexp⟩
      have heq : x = (a, v) :=
        List.inj_on_of_nodup_map hc.nodup_sids hx (by simp) (hsid.trans hv.symm)
      rw [heq] at hexp
      exact he hexp
    rw [List.filter_eq_self.mpr fun x hx ↦ decide_eq_true (hkeep x hx)]
    exact (Trim.refl h).leaves hc

theorem removes (h : Chained m service.subscriptionList nodes)
    (hc : Counted sids (service.toInfo nodes)) : Removes m service nodes := by
  intro sid
  obtain ⟨m', service', nodes', heq, hedit, hmodel, rfl⟩ := removeSubscriptionSID_spec sid h
  have herase := eraseP_sid hc.nodup_sids sid (q := fun x ↦ x.2.sid = sid) (by simp)
  simp only [← decide_not] at herase
  refine ⟨m', service', heq, ?_⟩
  have hshrinks := shrinks_removeSubscriptionSID sid (service.toInfo nodes)
  rw [hmodel] at hshrinks
  exact herase ▸ (Trim.mk hedit hshrinks).leaves hc

/-- The node that `GetNextSubscription` returns. -/
theorem advance_head? (now : Int) (nodes : Nodes) :
    (advance now nodes).next.head? = nodes.find? fun x ↦ x.2.active ∧ ¬ x.2.expired now := by
  induction nodes with
  | nil => rfl
  | cons y nodes ih =>
    by_cases he : y.2.expired now <;> by_cases hv : y.2.active <;>
      simp [advance, he, hv, ih]

/-- `GetNextSubscription` frees expired nodes only. -/
theorem advance_onlyExpired (now : Int) (nodes : Nodes) :
    OnlyExpired now nodes (advance now nodes).kept := by
  induction nodes with
  | nil => exact ⟨.slnil, by simp⟩
  | cons y nodes ih =>
    obtain ⟨hsub, hexp⟩ := ih
    by_cases he : y.2.expired now
    · have hkept : (advance now (y :: nodes)).kept = (advance now nodes).kept := by
        simp [advance, he, Advance.kept]
      rw [hkept]
      refine ⟨.cons y hsub, fun x hx hnot ↦ ?_⟩
      rcases List.mem_cons.mp hx with rfl | hx
      · exact he
      · exact hexp x hx hnot
    by_cases hv : y.2.active
    · have hkept : (advance now (y :: nodes)).kept = y :: nodes := by
        simp [advance, he, hv, Advance.kept]
      rw [hkept]
      exact ⟨.refl _, fun x hx hnot ↦ absurd hx hnot⟩
    · have hkept : (advance now (y :: nodes)).kept = y :: (advance now nodes).kept := by
        simp [advance, he, hv, Advance.kept]
      rw [hkept]
      refine ⟨.cons_cons y hsub, fun x hx hnot ↦ ?_⟩
      rw [List.mem_cons, not_or] at hnot
      exact hexp x ((List.mem_cons.mp hx).resolve_left hnot.1) hnot.2

/-- `GetNextSubscription` counts what it frees. -/
theorem advance_length (now : Int) (nodes : Nodes) :
    (advance now nodes).kept.length + (advance now nodes).freed.length = nodes.length := by
  induction nodes with
  | nil => rfl
  | cons y nodes ih =>
    by_cases he : y.2.expired now <;> by_cases hv : y.2.active <;>
      simp [advance, he, hv, Advance.kept] at ih ⊢ <;> omega

theorem steps (h : Chained m service.subscriptionList nodes)
    (hc : Counted sids (service.toInfo nodes)) : Steps m service nodes := by
  intro now
  have htotal := hc.total_eq
  constructor
  · obtain ⟨m', p, heq, hedit⟩ := getFirstSubscription_spec now h
    have hlen := advance_length now nodes
    refine ⟨m', _, _, by rw [← advance_head?]; exact heq, ⟨hedit, ?_⟩,
      advance_onlyExpired now nodes⟩
    simp only [Service.less, Service.headAt]
    omega
  · rintro pre b u rest rfl
    obtain ⟨m', heq, hedit⟩ := getNextSubscription_spec now service h
    have hlen := advance_length now rest
    refine ⟨m', service.less (advance now rest).freed.length, _,
      by rw [← advance_head?]; exact heq, ⟨hedit, ?_⟩, advance_onlyExpired now rest⟩
    simp only [Service.less, List.length_append, List.length_cons] at htotal ⊢
    omega

theorem walks (h : Chained m service.subscriptionList nodes)
    (hc : Counted sids (service.toInfo nodes)) : Walks m service nodes := by
  intro clock hclock
  obtain ⟨m', p, heq, hedit⟩ := walk_spec clock h
  have hvisited := walkNodes_visited clock 0 nodes
  have hsub := walkNodes_kept_sublist clock 0 nodes
  have hexp := walkNodes_expired hclock 0 nodes
  have hlive := walkNodes_not_expired hclock 0 nodes
  have hlast : clock (addrs (walkNodes clock 0 nodes).visited).length =
      clock (0 + (walkNodes clock 0 nodes).visited.length) := by
    simp [addrs]
  refine ⟨m', _, _, _, heq, (Trim.mk hedit (shrinks_walk clock service nodes p)).leaves hc,
    ⟨hsub, hlast ▸ hexp⟩, ?_, fun x hx hact hx' ↦ ?_, fun a ha ↦ ?_⟩
  · rw [hvisited]
    exact (h.nodup.sublist (hsub.map Prod.fst)).sublist (List.filter_sublist.map Prod.fst)
  · have hkept : x ∈ (walkNodes clock 0 nodes).kept := by
      by_contra hnot
      exact hx' (hlast ▸ hexp x hx hnot)
    rw [hvisited]
    exact List.mem_map_of_mem (List.mem_filter.mpr ⟨hkept, hact⟩)
  · obtain ⟨x, hx, rfl⟩ := List.mem_map.mp ha
    rw [hvisited, List.mem_filter] at hx
    exact ⟨x, hsub.subset hx.1, rfl, hx.2, hlive x hx.1⟩

/-! ## The accounting -/

/-- Every run of a device keeps its subscription lists in order and counted: no list has a freed
node or shares one, each count is the length of the list, the SIDs are distinct, a limit that is
not lowered holds, and the look-ups and walks do what they are for. -/
theorem subscription_table_accounting {s : Option Device} (h : (machine samePath).Reachable s) :
    ∃ d cells, s = some d ∧ d.Layout cells ∧
      ∀ (i : Nat) (service : Service), d.services[i]? = some service →
        service.totalSubscriptions = (cells i).length ∧
        ((cells i).map (·.2.sid)).Nodup ∧
        ((machine samePath).Reach NotLowered s → d.maxSubscriptions ≠ -1 →
          ((cells i).length : Int) ≤ d.maxSubscriptions) ∧
        LooksUp d.mem service (cells i) ∧
        Removes d.mem service (cells i) ∧
        Steps d.mem service (cells i) ∧
        Walks d.mem service (cells i) := by
  obtain ⟨d, cells, rfl, hs⟩ := h.invariant inOrder_inductive
  refine ⟨d, cells, rfl, hs.layout, fun i service hi ↦ ?_⟩
  have hch := hs.layout.chained i service hi
  have hc := hs.counted i service hi
  refine ⟨hc.total_eq, hc.nodup_sids, fun hreach hlim ↦ ?_, looksUp hch hc, removes hch hc,
    steps hch hc, walks hch hc⟩
  obtain ⟨-, hlimited⟩ := hreach.invariant limited_inductive
  exact hc.total_eq ▸ ((hlimited d rfl) hlim).2 i service hi

/-- A device with one service and room for one subscription. -/
def lamp : Device where
  mem := ∅
  services := [⟨"power".toList, "uuid:lamp".toList, some "/power".toList, true, 0, none⟩]
  maxSubscriptions := 1
  maxSubscriptionTimeOut := -1
  sids := []

theorem lamp_initial : lamp.Initial :=
  ⟨rfl, fun _ hs ↦ List.mem_singleton.mp hs ▸ ⟨rfl, rfl, rfl⟩, rfl, .inr (by decide)⟩

def lampEntry : Action :=
  .subscribe ⟨0, 0, true, true, fun t ↦ some [t], true, "1".toList⟩ 7 lampRequest

theorem subscription_table_accounting_lamp : ∃ d : Device, ∃ cells : Nat → Nodes, ∃ service,
    d.services[0]? = some service ∧ service.totalSubscriptions = 1 ∧ d.maxSubscriptions = 1 ∧
      d.Layout cells ∧ (cells 0).length = 1 ∧ Walks d.mem service (cells 0) := by
  have hinit : (machine (· == ·)).Reach NotLowered (some lamp) := .init ⟨lamp, rfl, lamp_initial⟩
  have hreach := hinit.step (l := lampEntry) trivial rfl
  obtain ⟨d, cells, heq, hlayout, hall⟩ :=
    subscription_table_accounting (hreach.mono fun _ _ _ ↦ trivial)
  have hservice : d.services[0]?.map (·.totalSubscriptions) = some 1 :=
    Option.some.inj (congrArg (Option.map fun d : Device ↦
      d.services[0]?.map fun service : Service ↦ service.totalSubscriptions) heq).symm
  have hmax : d.maxSubscriptions = 1 :=
    Option.some.inj (congrArg (Option.map Device.maxSubscriptions) heq).symm
  obtain ⟨service, hi, htotal⟩ := Option.map_eq_some_iff.mp hservice
  obtain ⟨hcount, -, -, -, -, -, hwalks⟩ := hall 0 service hi
  exact ⟨d, cells, service, hi, htotal, hmax, hlayout, by omega, hwalks⟩

end Upnp.Gena.Linked
