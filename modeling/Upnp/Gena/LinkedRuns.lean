import Upnp.Gena.LinkedWalk
import Upnp.Gena.Notify

/-!
# The subscription table over whole runs

The lists of a device's services never share a node, their nodes are exactly the
memory in use, and each service counts its nodes.  Every request, notification
and look-up keeps this: all of them but a new subscription take nodes away from
one list, or write to the fields of its nodes, and adjust the count.
-/

namespace Upnp.Gena.Linked

open Upnp.Lib

variable {m m' m'' : Mem} {service service' service'' : Service} {p : Option Addr} {a : Addr}
  {v : Subscription} {nodes nodes' nodes'' pre rest : Nodes} {now : Int} {sid : CString}
  {svc svc' svc'' : ServiceInfo} {d d' : Device} {i : Nat}

/-! ## One service -/

/-- A service counts its subscriptions, which have distinct SIDs that were handed out. -/
structure Counted (sids : List CString) (svc : ServiceInfo) : Prop where
  total : svc.totalSubscriptions = svc.subscriptionList.length
  nodup : (svc.subscriptionList.map (·.sid)).Nodup
  known : ∀ s ∈ svc.subscriptionList, s.sid ∈ sids

/-- Subscriptions may leave, those that stay keep their order and SIDs, and the count follows. -/
structure Shrinks (svc svc' : ServiceInfo) : Prop where
  sids : (svc'.subscriptionList.map (·.sid)).Sublist (svc.subscriptionList.map (·.sid))
  total : svc'.totalSubscriptions + svc.subscriptionList.length =
    svc.totalSubscriptions + svc'.subscriptionList.length

theorem Shrinks.refl (svc : ServiceInfo) : Shrinks svc svc := ⟨.refl _, rfl⟩

theorem Shrinks.trans (h : Shrinks svc svc') (h' : Shrinks svc' svc'') : Shrinks svc svc'' := by
  refine ⟨h'.sids.trans h.sids, ?_⟩
  have := h.total
  have := h'.total
  omega

theorem Shrinks.counted {sids : List CString} (h : Shrinks svc svc') (hc : Counted sids svc) :
    Counted sids svc' where
  total := by
    have := h.total
    have := hc.total
    omega
  nodup := hc.nodup.sublist h.sids
  known s hs := by
    obtain ⟨t, ht, heq⟩ := List.mem_map.mp (h.sids.subset (List.mem_map_of_mem hs))
    exact heq ▸ hc.known t ht

theorem Shrinks.total_le (h : Shrinks svc svc') :
    svc'.totalSubscriptions ≤ svc.totalSubscriptions := by
  have hlen := h.sids.length_le
  have := h.total
  simp only [List.length_map] at hlen
  omega

theorem shrinks_removeSubscriptionSID (sid : CString) (svc : ServiceInfo) :
    Shrinks svc (Gena.removeSubscriptionSID sid svc) := by
  refine ⟨removeSubscriptionSID_sublist.map _, ?_⟩
  unfold Gena.removeSubscriptionSID
  split
  · rename_i hany
    obtain ⟨s, hs, hp⟩ := List.any_eq_true.mp hany
    have hlen : (svc.subscriptionList.eraseP (·.sid = sid)).length =
        svc.subscriptionList.length - 1 := List.length_eraseP_of_mem hs hp
    have hpos := List.length_pos_of_mem hs
    simp only [hlen]
    omega
  · rfl

theorem shrinks_getSubscriptionSID (now : Int) (sid : CString) (svc : ServiceInfo) :
    Shrinks svc (Gena.getSubscriptionSID now sid svc).1 := by
  rcases getSubscriptionSID_cases svc sid now with ⟨h, -⟩ | ⟨s, -, -, -, h⟩ | ⟨s, -, -, -, -, h⟩ <;>
    rw [h]
  · exact .refl svc
  · exact shrinks_removeSubscriptionSID sid svc
  · exact .refl svc

/-- The broadcast of the list model counts what it frees. -/
theorem broadcast_list_length (env : NotifyEnv) (mk : Subscription → NotifyThreadStruct) (i : Nat)
    (subs : List Subscription) :
    (broadcast env mk i subs).list.length + (broadcast env mk i subs).freed = subs.length := by
  induction subs generalizing i with
  | nil => rfl
  | cons s subs ih =>
    have := ih i
    have := ih (i + 1)
    unfold broadcast
    split
    · simp only [List.length_cons]
      omega
    split
    · simp only [List.length_cons]
      omega
    split
    · rfl
    dsimp only
    split
    · rfl
    · simp only [List.length_cons]
      omega

/-- A walk counts what it frees. -/
theorem shrinks_walk (clock : Nat → Int) (service : Service) (nodes : Nodes) (p : Option Addr) :
    Shrinks (service.toInfo nodes)
      (((service.less (walkNodes clock 0 nodes).freed.length).headAt p).toInfo
        (walkNodes clock 0 nodes).kept) where
  sids := ((walkNodes_kept_sublist clock 0 nodes).map _).map _
  total := by
    have hlen := walkNodes_length clock 0 nodes
    simp only [Service.toInfo, Service.less, Service.headAt, List.length_map]
    omega

/-! ## One edit -/

/-- An edit of a list with the count of its service. -/
structure Trim (m : Mem) (service : Service) (nodes : Nodes) (m' : Mem) (service' : Service)
    (nodes' : Nodes) : Prop where
  edit : Edit m nodes m' service'.subscriptionList nodes'
  shrinks : Shrinks (service.toInfo nodes) (service'.toInfo nodes')

theorem Trim.refl (h : Chained m service.subscriptionList nodes) :
    Trim m service nodes m service nodes := ⟨.refl h, .refl _⟩

theorem Trim.trans (h : Trim m service nodes m' service' nodes')
    (h' : Trim m' service' nodes' m'' service'' nodes'') :
    Trim m service nodes m'' service'' nodes'' :=
  ⟨h.edit.trans h'.edit, h.shrinks.trans h'.shrinks⟩

theorem Trim.chained (h : Trim m service nodes m' service' nodes') :
    Chained m' service'.subscriptionList nodes' := h.edit.chained

theorem trim_removeSubscriptionSID (sid : CString)
    (h : Chained m service.subscriptionList nodes) :
    ∃ m' service' nodes', removeSubscriptionSID sid m service = some (m', service') ∧
      Trim m service nodes m' service' nodes' := by
  obtain ⟨m', service', nodes', heq, hedit, hmodel, -⟩ := removeSubscriptionSID_spec sid h
  exact ⟨m', service', nodes', heq, hedit, hmodel ▸ shrinks_removeSubscriptionSID sid _⟩

/-- A look-up finds nothing, perhaps after it freed an expired node, or it finds a node. -/
theorem trim_getSubscriptionSID (now : Int) (sid : CString)
    (h : Chained m service.subscriptionList nodes) :
    (∃ m' service' nodes', getSubscriptionSID now sid m service = some (m', service', none) ∧
      Trim m service nodes m' service' nodes') ∨
    ∃ pre a v rest, nodes = pre ++ (a, v) :: rest ∧
      getSubscriptionSID now sid m service = some (m, service, some a) := by
  rcases getSubscriptionSID_spec now sid h with
    ⟨m', service', nodes', heq, hedit, hmodel, -⟩ | ⟨pre, a, v, rest, rfl, -, -, -, heq, -⟩
  · refine .inl ⟨m', service', nodes', heq, hedit, ?_⟩
    have := shrinks_getSubscriptionSID now sid (service.toInfo nodes)
    rwa [hmodel] at this
  · exact .inr ⟨pre, a, v, rest, rfl, heq⟩

theorem trim_writeNode (h : Chained m service.subscriptionList (pre ++ (a, v) :: rest))
    {f : Subscription → Subscription} (hf : (f v).sid = v.sid) :
    ∃ m', writeNode m a f = some m' ∧
      Trim m service (pre ++ (a, v) :: rest) m' service (pre ++ (a, f v) :: rest) := by
  obtain ⟨m', heq, hedit⟩ := writeNode_spec h f
  refine ⟨m', heq, hedit, ?_, ?_⟩
  · simp [Service.toInfo, hf]
  · simp [Service.toInfo]

theorem Chained.get (h : Chained m p (pre ++ (a, v) :: rest)) :
    ∃ next, m.get a = some ⟨v, next⟩ := h.chain.mem (a, v) (by simp)

/-! ## The device -/

namespace Device

/-- Where the subscriptions of each service lie. -/
structure Layout (d : Device) (cells : Nat → Nodes) : Prop where
  /-- Each list is in order, in memory that is in use. -/
  chained : ∀ (i : Nat) (service : Service), d.services[i]? = some service →
    Chained d.mem service.subscriptionList (cells i)
  /-- No node is in two lists. -/
  disjoint : ∀ i j service service', d.services[i]? = some service →
    d.services[j]? = some service' → ∀ a ∈ addrs (cells i), a ∈ addrs (cells j) → i = j
  /-- What is in use is in a list. -/
  linked : ∀ a ∈ d.mem, ∃ i service, d.services[i]? = some service ∧ a ∈ addrs (cells i)

/-- The lists are in order and counted. -/
structure Sound (d : Device) (cells : Nat → Nodes) : Prop where
  layout : d.Layout cells
  counted : ∀ (i : Nat) (service : Service), d.services[i]? = some service →
    Counted d.sids (service.toInfo (cells i))

/-- An action that keeps the table in order and takes no count beyond the limit. -/
structure Keeps (d d' : Device) : Prop where
  sound : ∃ cells, d'.Sound cells
  maxSubscriptions : d'.maxSubscriptions = d.maxSubscriptions
  total_le : ∀ (i : Nat) (service' : Service), d'.services[i]? = some service' →
    ∃ service : Service, d.services[i]? = some service ∧ (d.maxSubscriptions ≠ -1 →
      service'.totalSubscriptions ≤ max service.totalSubscriptions d.maxSubscriptions)

variable {cells : Nat → Nodes}

theorem Sound.keeps (h : d.Sound cells) : d.Keeps d :=
  ⟨⟨cells, h⟩, rfl, fun _ service hs ↦ ⟨service, hs, fun _ ↦ le_max_left _ _⟩⟩

theorem put_services (hs : d.services[i]? = some service) (r : Mem × Service) {j : Nat}
    {x : Service} : (d.put i r).services[j]? = some x ↔
      if j = i then x = r.2 else d.services[j]? = some x := by
  obtain ⟨hlt, -⟩ := List.getElem?_eq_some_iff.mp hs
  unfold put
  split
  · rename_i hj
    subst hj
    simp [hlt, eq_comm]
  · rename_i hj
    rw [List.getElem?_set_ne (Ne.symm hj)]

/-- An edit of one list leaves all lists in order. -/
theorem Layout.put (h : d.Layout cells) (hs : d.services[i]? = some service)
    (hedit : Edit d.mem (cells i) m' service'.subscriptionList nodes') :
    (d.put i (m', service')).Layout (Function.update cells i nodes') := by
  have hin : ∀ {j x a}, d.services[j]? = some x → a ∈ addrs (cells j) → a ∈ d.mem := by
    intro j x a hj ha
    obtain ⟨y, hy, rfl⟩ := List.mem_map.mp ha
    obtain ⟨next, hget⟩ := (h.chained j x hj).chain.mem y hy
    exact Heap.mem_of_get hget
  have hapart : ∀ {j x a}, j ≠ i → d.services[j]? = some x → a ∈ addrs (cells j) →
      a ∉ addrs nodes' := by
    intro j x a hj hx ha hmem
    rcases hedit.frame.fresh a hmem with hmem | hmem
    · exact hj (h.disjoint j i x service hx hs a ha hmem)
    · exact hmem (hin hx ha)
  refine ⟨fun j x hx ↦ ?_, fun j k x y hx hy a ha hb ↦ ?_, fun a ha ↦ ?_⟩
  · rw [put_services hs] at hx
    by_cases hj : j = i
    · subst hj
      rw [if_pos rfl] at hx
      subst hx
      simpa [Device.put] using hedit.chained
    · rw [if_neg hj] at hx
      rw [Function.update_of_ne hj]
      have hch := h.chained j x hx
      refine ⟨hch.chain.congr fun a ha ↦ hedit.frame.kept a (hin hx ha) fun hmem ↦ ?_, hch.nodup⟩
      exact hj (h.disjoint j i x service hx hs a ha hmem)
  · rw [put_services hs] at hx hy
    by_cases hj : j = i <;> by_cases hk : k = i
    · rw [hj, hk]
    · subst hj
      rw [if_neg hk] at hy
      rw [Function.update_self] at ha
      rw [Function.update_of_ne hk] at hb
      exact absurd ha (hapart hk hy hb)
    · subst hk
      rw [if_neg hj] at hx
      rw [Function.update_self] at hb
      rw [Function.update_of_ne hj] at ha
      exact absurd hb (hapart hj hx ha)
    · rw [if_neg hj] at hx
      rw [if_neg hk] at hy
      rw [Function.update_of_ne hj] at ha
      rw [Function.update_of_ne hk] at hb
      exact h.disjoint j k x y hx hy a ha hb
  · rcases hedit.frame.used a ha with hmem | ⟨hmem, hnot⟩
    · exact ⟨i, service', (put_services hs _).mpr (by simp), by simpa using hmem⟩
    · obtain ⟨j, x, hx, hj⟩ := h.linked a hmem
      have hne : j ≠ i := by
        rintro rfl
        exact hnot hj
      exact ⟨j, x, (put_services hs _).mpr (by simpa [hne] using hx), by simpa [hne] using hj⟩

/-- An edit of the list of one service, with its count. -/
theorem Sound.put (h : d.Sound cells) (hs : d.services[i]? = some service)
    (ht : Trim d.mem service (cells i) m' service' nodes') : d.Keeps (d.put i (m', service')) where
  sound := by
    refine ⟨Function.update cells i nodes', h.layout.put hs ht.edit, fun j x hx ↦ ?_⟩
    rw [put_services hs] at hx
    by_cases hj : j = i
    · subst hj
      rw [if_pos rfl] at hx
      subst hx
      simpa [Device.put] using ht.shrinks.counted (h.counted j service hs)
    · rw [if_neg hj] at hx
      simpa [hj, Device.put] using h.counted j x hx
  maxSubscriptions := rfl
  total_le j x hx := by
    rw [put_services hs] at hx
    by_cases hj : j = i
    · subst hj
      rw [if_pos rfl] at hx
      exact ⟨service, hs, fun _ ↦ hx ▸ le_max_of_le_left ht.shrinks.total_le⟩
    · rw [if_neg hj] at hx
      exact ⟨x, hx, fun _ ↦ le_max_left _ _⟩

/-- Memory that reads the same. -/
theorem Sound.congr (h : d.Sound cells) (hread : ∀ c, m'.get c = d.mem.get c) :
    Sound { d with mem := m' } cells where
  layout :=
    { chained := fun i x hx ↦
        ⟨(h.layout.chained i x hx).chain.congr fun c _ ↦ hread c, (h.layout.chained i x hx).nodup⟩
      disjoint := h.layout.disjoint
      linked := fun a ha ↦ h.layout.linked a (by
        rwa [Heap.mem_iff_get, hread a, ← Heap.mem_iff_get] at ha) }
  counted := h.counted

/-- The SIDs handed out may grow. -/
theorem Sound.addSid (h : d.Sound cells) (sid : CString) :
    Sound { d with sids := sid :: d.sids } cells where
  layout := ⟨h.layout.chained, h.layout.disjoint, h.layout.linked⟩
  counted i x hx :=
    { total := (h.counted i x hx).total
      nodup := (h.counted i x hx).nodup
      known := fun s hs ↦ List.mem_cons_of_mem _ ((h.counted i x hx).known s hs) }

theorem find_some {q : Service → Bool} (h : d.find q = some (i, service)) :
    d.services[i]? = some service := by
  obtain ⟨j, -, hj⟩ := Option.bind_eq_some_iff.mp h
  obtain ⟨x, hx, heq⟩ := Option.map_eq_some_iff.mp hj
  obtain ⟨rfl, rfl⟩ := Prod.mk.inj heq
  exact hx

theorem activeService_some {samePath : CString → CString → Bool} {request : HttpRequest}
    (h : d.activeService samePath request = some (i, service)) :
    d.services[i]? = some service :=
  find_some (Option.filter_eq_some_iff.mp h).1

/-! ## Requests and notifications -/

variable (samePath : CString → CString → Bool)

theorem Sound.genaRenewRequest (h : d.Sound cells) (env : RequestEnv) (request : HttpRequest)
    (uninit : CString) :
    ∃ d' r, genaRenewRequest samePath env d request uninit = some (d', r) ∧ d.Keeps d' := by
  unfold Linked.genaRenewRequest
  generalize grantedTimeout d.maxSubscriptionTimeOut (request.header "TIMEOUT".toList) = time_out
  split
  · exact ⟨d, _, rfl, h.keeps⟩
  rename_i sid _
  split
  · exact ⟨d, _, rfl, h.keeps⟩
  rename_i i service hfind
  have hs := activeService_some hfind
  have hch := h.layout.chained i service hs
  rcases trim_getSubscriptionSID env.now sid hch with
    ⟨m', service', nodes', heq, ht⟩ | ⟨pre, a, v, rest, hnodes, heq⟩
  · exact ⟨d.put i (m', service'), .BAD_CALLBACK, by simp [heq], h.put hs ht⟩
  rw [hnodes] at hch
  obtain ⟨next, hget⟩ := hch.get
  by_cases hmax : d.maxSubscriptions ≠ -1 ∧ service.totalSubscriptions > d.maxSubscriptions
  · obtain ⟨m', service', nodes', hrem, ht⟩ := trim_removeSubscriptionSID v.sid hch
    exact ⟨d.put i (m', service'), .UNABLE_MEMORY, by simp [heq, hget, hmax, hrem],
      h.put hs (hnodes ▸ ht)⟩
  obtain ⟨m₁, hwrite, ht₁⟩ := trim_writeNode hch
    (f := fun v ↦ { v with expireTime := expireTimeOf env.later time_out }) rfl
  by_cases hok : env.respondOk
  · exact ⟨d.put i (m₁, service), .respondOK time_out v.sid,
      by simp [heq, hget, hmax, hwrite, hok], h.put hs (hnodes ▸ ht₁)⟩
  · obtain ⟨m', service', nodes', hrem, ht⟩ := trim_removeSubscriptionSID v.sid ht₁.chained
    exact ⟨d.put i (m', service'), .respondOK time_out v.sid,
      by simp [heq, hget, hmax, hwrite, hok, hrem], h.put hs (hnodes ▸ ht₁.trans ht)⟩

theorem Sound.genaUnsubscribeRequest (h : d.Sound cells) (env : RequestEnv)
    (request : HttpRequest) (uninit : CString) :
    ∃ d' r, genaUnsubscribeRequest samePath env d request uninit = some (d', r) ∧ d.Keeps d' := by
  unfold Linked.genaUnsubscribeRequest
  split
  · exact ⟨d, _, rfl, h.keeps⟩
  rename_i sid _
  split
  · exact ⟨d, _, rfl, h.keeps⟩
  rename_i i service hfind
  have hs := activeService_some hfind
  have hch := h.layout.chained i service hs
  rcases trim_getSubscriptionSID env.now sid hch with
    ⟨m', service', nodes', heq, ht⟩ | ⟨pre, a, v, rest, -, heq⟩
  · exact ⟨d.put i (m', service'), .BAD_CALLBACK, by simp [heq], h.put hs ht⟩
  · obtain ⟨m', service', nodes', hrem, ht⟩ := trim_removeSubscriptionSID sid hch
    exact ⟨d.put i (m', service'), .HTTP_OK_CRLF, by simp [heq, hrem], h.put hs ht⟩

theorem Sound.initNotify (h : d.Sound cells) (env : InitEnv) (ps : Except Int CString)
    (udn servId sid : CString) :
    ∃ d' r, initNotify env ps d udn servId sid = some (d', r) ∧ d.Keeps d' := by
  unfold Linked.initNotify
  split
  · exact ⟨d, _, rfl, h.keeps⟩
  split
  · exact ⟨d, _, rfl, h.keeps⟩
  rename_i i service hfind
  have hs : d.services[i]? = some service := find_some hfind
  have hch := h.layout.chained i service hs
  rcases trim_getSubscriptionSID env.now sid hch with
    ⟨m', service', nodes', heq, ht⟩ | ⟨pre, a, v, rest, hnodes, heq⟩
  · exact ⟨d.put i (m', service'), GENA_E_BAD_SID, by simp [heq], h.put hs ht⟩
  rw [hnodes] at hch
  obtain ⟨next, hget⟩ := hch.get
  by_cases hactive : v.active
  · exact ⟨d.put i (d.mem, service), GENA_E_BAD_SID, by simp [heq, hget, hactive],
      h.put hs (.refl (hnodes ▸ hch))⟩
  obtain ⟨m₁, hwrite₁, ht₁⟩ := trim_writeNode hch (f := fun v ↦ { v with active := true }) rfl
  cases ps with
  | error e =>
    exact ⟨d.put i (m₁, service), e, by simp [heq, hget, hactive, hwrite₁],
      h.put hs (hnodes ▸ ht₁)⟩
  | ok text =>
    by_cases halloc : env.headersAllocOk = false ∨ env.structAllocOk = false
    · exact ⟨d.put i (m₁, service), UPNP_E_OUTOF_MEMORY,
        by simp [heq, hget, hactive, hwrite₁, halloc], h.put hs (hnodes ▸ ht₁)⟩
    · obtain ⟨m₂, hwrite₂, ht₂⟩ := trim_writeNode ht₁.chained
        (f := fun v ↦ { v with eventKey := wrap32 (v.eventKey + 1) }) rfl
      exact ⟨d.put i (m₂, service),
        if env.schedule ≠ 0 then scheduleError env.schedule else GENA_SUCCESS,
        by simp [heq, hget, hactive, hwrite₁, hwrite₂, halloc],
        h.put hs (hnodes ▸ ht₁.trans ht₂)⟩

theorem Sound.notifyAll (h : d.Sound cells) (env : NotifyEnv) (ps : Except Int CString)
    (udn servId : CString) :
    ∃ d' r, notifyAll env ps d udn servId = some (d', r) ∧ d.Keeps d' := by
  unfold Linked.notifyAll
  split
  · exact ⟨d, _, rfl, h.keeps⟩
  cases ps with
  | error e => exact ⟨d, e, rfl, h.keeps⟩
  | ok text =>
    dsimp only
    split
    · exact ⟨d, _, rfl, h.keeps⟩
    split
    · exact ⟨d, _, rfl, h.keeps⟩
    rename_i i service hfind
    have hs : d.services[i]? = some service := find_some hfind
    -- the threads that the model queues play no part here
    let mk (s : Subscription) : NotifyThreadStruct :=
      ⟨[], text, servId, udn, s.sid, s.eventKey, 0, 0⟩
    obtain ⟨m₁, service₁, finger, hfirst, m', p, nodes', hloop, hedit, hlist⟩ :=
      notify_spec env mk (h.layout.chained i service hs)
    have hsids : ((broadcast env mk 0 ((cells i).map Prod.snd)).list.map (·.sid)).Sublist _ :=
      broadcast_list_sublist 0 _
    have hlen := broadcast_list_length env mk 0 ((cells i).map Prod.snd)
    generalize broadcast env mk 0 ((cells i).map Prod.snd) = b at hloop hlist hsids hlen
    refine ⟨d.put i (m', (service.less b.freed).headAt p), b.return_code,
      by simp [hfirst, hloop], h.put hs ⟨hedit, ?_, ?_⟩⟩
    · rw [← hlist] at hsids
      exact hsids
    · rw [← hlist, List.length_map, List.length_map] at hlen
      simp only [Service.toInfo, Service.less, Service.headAt, List.length_map]
      omega

theorem Sound.notifyThreadCheck (h : d.Sound cells) (now : Int) (udn servId sid : CString) :
    ∃ d', notifyThreadCheck now d udn servId sid = some d' ∧ d.Keeps d' := by
  unfold Linked.notifyThreadCheck
  split
  · exact ⟨d, rfl, h.keeps⟩
  rename_i i service hfind
  have hs : d.services[i]? = some service := find_some (Option.filter_eq_some_iff.mp hfind).1
  have hch := h.layout.chained i service hs
  rcases trim_getSubscriptionSID now sid hch with
    ⟨m', service', nodes', heq, ht⟩ | ⟨pre, a, v, rest, -, heq⟩
  · exact ⟨d.put i (m', service'), by simp [heq], h.put hs ht⟩
  · exact ⟨d.put i (d.mem, service), by simp [heq], h.put hs (.refl hch)⟩

theorem Sound.notifyThreadFinish (h : d.Sound cells) (now return_code : Int)
    (udn servId sid : CString) :
    ∃ d', notifyThreadFinish now return_code d udn servId sid = some d' ∧ d.Keeps d' := by
  unfold Linked.notifyThreadFinish
  split
  · exact ⟨d, rfl, h.keeps⟩
  rename_i i service hfind
  have hs : d.services[i]? = some service := find_some (Option.filter_eq_some_iff.mp hfind).1
  have hch := h.layout.chained i service hs
  rcases trim_getSubscriptionSID now sid hch with
    ⟨m', service', nodes', heq, ht⟩ | ⟨pre, a, v, rest, hnodes, heq⟩
  · exact ⟨d.put i (m', service'), by simp [heq], h.put hs ht⟩
  rw [hnodes] at hch
  obtain ⟨m₁, hwrite, ht₁⟩ := trim_writeNode hch
    (f := fun v ↦ { v with toSendEventKey := bumpKey v.toSendEventKey }) rfl
  by_cases hrc : return_code = GENA_E_NOTIFY_UNACCEPTED_REMOVE_SUB
  · obtain ⟨next, hget⟩ := ht₁.chained.get
    obtain ⟨m', service', nodes', hrem, ht⟩ := trim_removeSubscriptionSID v.sid ht₁.chained
    exact ⟨d.put i (m', service'), by simp [heq, hwrite, hrc, hget, hrem],
      h.put hs (hnodes ▸ ht₁.trans ht)⟩
  · exact ⟨d.put i (m₁, service), by simp [heq, hwrite, hrc], h.put hs (hnodes ▸ ht₁)⟩

/-! ## Subscription -/

/-- A node whose SID is new enters a list, and is counted. -/
theorem Sound.enter (h : d.Sound cells) (hs : d.services[i]? = some service)
    (ha : a ∉ d.mem) (hsid : v.sid ∉ d.sids)
    (hread : ∀ c, m'.get c = if c = a then some ⟨v, service.subscriptionList⟩ else d.mem.get c) :
    ∃ cells', Sound (({ d with sids := v.sid :: d.sids }).put i (m', { service with
      subscriptionList := some a
      totalSubscriptions := service.totalSubscriptions + 1 })) cells' := by
  have hch := h.layout.chained i service hs
  have hnot : a ∉ addrs (cells i) := by
    intro hmem
    obtain ⟨x, hx, rfl⟩ := List.mem_map.mp hmem
    obtain ⟨next, hget⟩ := hch.chain.mem x hx
    exact ha (Heap.mem_of_get hget)
  have hedit : Edit d.mem (cells i) m' (some a) ((a, v) :: cells i) := by
    refine ⟨⟨⟨rfl, service.subscriptionList, by rw [hread, if_pos rfl],
      hch.chain.congr fun c hc ↦ ?_⟩, List.nodup_cons.mpr ⟨hnot, hch.nodup⟩⟩, ?_, ?_, ?_⟩
    · rw [hread, if_neg]
      rintro rfl
      exact hnot hc
    · intro c hc
      rcases List.mem_cons.mp hc with rfl | hc
      · exact .inr ha
      · exact .inl hc
    · intro c hc _
      rw [hread, if_neg]
      rintro rfl
      exact ha hc
    · intro c hc
      rw [Heap.mem_iff_get, hread] at hc
      by_cases hca : c = a
      · exact .inl (by simp [hca])
      · rw [if_neg hca, ← Heap.mem_iff_get] at hc
        by_cases hmem : c ∈ addrs (cells i)
        · exact .inl (by simp [hmem])
        · exact .inr ⟨hc, hmem⟩
  have h₁ := h.addSid v.sid
  have hs₁ : ({ d with sids := v.sid :: d.sids } : Device).services[i]? = some service := hs
  refine ⟨Function.update cells i ((a, v) :: cells i), h₁.layout.put hs₁ hedit, fun j x hx ↦ ?_⟩
  rw [put_services hs₁] at hx
  by_cases hj : j = i
  · subst hj
    rw [if_pos rfl] at hx
    subst hx
    rw [Function.update_self]
    have hc := h.counted j service hs
    refine ⟨?_, List.nodup_cons.mpr ⟨?_, hc.nodup⟩, fun s hmem ↦ ?_⟩
    · have := hc.total
      simp only [Service.toInfo, List.length_map, List.length_cons] at this ⊢
      omega
    · intro hmem
      obtain ⟨s, hs', heq⟩ := List.mem_map.mp hmem
      have heq : s.sid = v.sid := heq
      exact hsid (heq ▸ hc.known s hs')
    · rcases List.mem_cons.mp hmem with rfl | hmem
      · exact List.mem_cons_self
      · exact List.mem_cons_of_mem _ (hc.known s hmem)
  · rw [if_neg hj] at hx
    rw [Function.update_of_ne hj]
    exact h₁.counted j x hx

/-- A node that was just allocated and is freed again leaves no trace. -/
theorem freeSubscriptionList_alloc (ha : a ∉ m) (hget : m'.get a = some ⟨v, none⟩)
    (hread : ∀ c, c ≠ a → m'.get c = m.get c) :
    ∃ m'', freeSubscriptionList m'.size m' (some a) = some m'' ∧ ∀ c, m''.get c = m.get c := by
  refine ⟨m'.erase a, freeSubscriptionList_single hget, fun c ↦ ?_⟩
  rw [Heap.get_erase]
  split
  · rename_i hc
    rw [hc, Heap.get_eq_none.mpr ha]
  · rename_i hc
    exact hread c hc

theorem Sound.genaSubscriptionRequest (h : d.Sound cells) (env : RequestEnv) (addr : Addr)
    (request : HttpRequest) (hsid : "uuid:".toList ++ env.uuid ∉ d.sids) (haddr : addr ∉ d.mem) :
    ∃ d' r, genaSubscriptionRequest samePath env addr d request = some (d', r) ∧ d.Keeps d' := by
  unfold Linked.genaSubscriptionRequest
  generalize grantedTimeout d.maxSubscriptionTimeOut (request.header "TIMEOUT".toList) = time_out
  generalize "uuid:".toList ++ env.uuid = sid at hsid ⊢
  split
  · exact ⟨d, _, rfl, h.keeps⟩
  split
  · exact ⟨d, _, rfl, h.keeps⟩
  split
  · exact ⟨d, _, rfl, h.keeps⟩
  split
  · exact ⟨d, _, rfl, h.keeps⟩
  split
  · exact ⟨d, _, rfl, h.keeps⟩
  rename_i i service hfind
  have hs := activeService_some hfind
  split
  · exact ⟨d, _, rfl, h.keeps⟩
  rename_i hmax
  split
  · exact ⟨d, _, rfl, h.keeps⟩
  have hget : (d.mem.alloc addr ⟨default, none⟩).get addr = some ⟨default, none⟩ := by
    rw [Heap.get_alloc, if_pos rfl]
  have hother : ∀ (x : Cell Subscription) c, c ≠ addr →
      (d.mem.alloc addr x).get c = d.mem.get c := fun x c hc ↦ by rw [Heap.get_alloc, if_neg hc]
  obtain ⟨m₀, hfree, hread⟩ := freeSubscriptionList_alloc haddr hget (hother _)
  have hgive : ∀ r : Response, ∃ d' r', (freeSubscriptionList
      (d.mem.alloc addr ⟨default, none⟩).size (d.mem.alloc addr ⟨default, none⟩)
        (some addr)).bind (fun m ↦ some ({ d with mem := m }, r)) = some (d', r') ∧
      d.Keeps d' := fun r ↦
    ⟨{ d with mem := m₀ }, r, by rw [hfree]; rfl, ⟨cells, h.congr hread⟩, rfl, h.keeps.total_le⟩
  dsimp only
  split
  · exact hgive .BAD_CALLBACK
  · exact hgive .UNABLE_MEMORY
  · exact hgive .BAD_CALLBACK
  rename_i urls _ _
  let sub : Subscription :=
    { sid := sid, eventKey := 0, toSendEventKey := 0, expireTime := expireTimeOf env.now time_out,
      active := false, deliveryURLs := urls }
  obtain ⟨m₁, hm₁⟩ : ∃ m₁, m₁ = (d.mem.alloc addr ⟨default, none⟩).insert addr ⟨sub, none⟩ :=
    ⟨_, rfl⟩
  have hwrite : writeNode (d.mem.alloc addr ⟨default, none⟩) addr (fun _ ↦ sub) = some m₁ :=
    hm₁ ▸ writeNode_of_get hget _
  have hget₁ : Heap.get m₁ addr = some ⟨sub, none⟩ := by
    rw [hm₁, Heap.get_insert, if_pos rfl]
  have hother₁ : ∀ c, c ≠ addr → Heap.get m₁ c = d.mem.get c := fun c hc ↦ by
    rw [hm₁, Heap.get_insert, if_neg hc, hother _ c hc]
  by_cases hok : env.respondOk
  · have hnext := writeNext_of_get hget₁ service.subscriptionList
    refine ⟨({ d with sids := sid :: d.sids }).put i
      (Heap.alloc m₁ addr ⟨sub, service.subscriptionList⟩, { service with
        subscriptionList := some addr
        totalSubscriptions := service.totalSubscriptions + 1 }), .respondOK time_out sid, ?_,
      h.enter (v := sub) hs haddr hsid fun c ↦ ?_, rfl, fun j x hx ↦ ?_⟩
    · rw [Option.bind_eq_bind, hwrite]
      simp [hok, hnext, Heap.alloc]
    · rw [Heap.get_alloc]
      split
      · rfl
      · rename_i hc
        exact hother₁ c hc
    · rw [put_services (d := { d with sids := sid :: d.sids }) hs] at hx
      by_cases hj : j = i
      · rw [if_pos hj] at hx
        subst hj hx
        refine ⟨service, hs, fun hlim ↦ le_max_of_le_right ?_⟩
        have : ¬ service.totalSubscriptions ≥ d.maxSubscriptions := fun hc ↦ hmax ⟨hlim, hc⟩
        dsimp only
        omega
      · rw [if_neg hj] at hx
        exact h.keeps.total_le j x hx
  · obtain ⟨m₂, hfree₂, hread₂⟩ := freeSubscriptionList_alloc haddr hget₁ hother₁
    refine ⟨{ d with mem := m₂, sids := sid :: d.sids }, .respondOK time_out sid, ?_,
      ⟨cells, (h.congr hread₂).addSid sid⟩, rfl, h.keeps.total_le⟩
    rw [Option.bind_eq_bind, hwrite]
    simp [hok, hfree₂]

end Device

end Upnp.Gena.Linked
