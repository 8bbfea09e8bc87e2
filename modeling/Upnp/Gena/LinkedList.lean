import Upnp.Gena.Linked

/-!
# The list functions refine the list model

Each function on a linked subscription list does to the list of its nodes what
its counterpart in `Upnp.Gena.ServiceTable` and `Upnp.Gena.Event` does, faults on
no list that is properly linked, and leaves it properly linked; what other
lists hold is not touched.
-/

namespace Upnp.Gena.Linked

open Upnp.Lib

/-- The nodes of a subscription list, with their addresses. -/
abbrev Nodes := List (Addr × Subscription)

/-- The links from `p` lead along these nodes, each linked once. -/
structure Chained (m : Mem) (p : Option Addr) (nodes : Nodes) : Prop where
  chain : Chain m p nodes
  nodup : (addrs nodes).Nodup

/-- A list was edited, and nothing else. -/
structure Frame (m : Mem) (nodes : Nodes) (m' : Mem) (nodes' : Nodes) : Prop where
  /-- What is linked was linked before, or comes from `malloc`. -/
  fresh : ∀ a ∈ addrs nodes', a ∈ addrs nodes ∨ a ∉ m
  /-- What is not in the list stays. -/
  kept : ∀ a ∈ m, a ∉ addrs nodes → m'.get a = m.get a
  /-- What left the list was freed. -/
  used : ∀ a ∈ m', a ∈ addrs nodes' ∨ a ∈ m ∧ a ∉ addrs nodes

/-- A service with the subscriptions that its list leads along. -/
def Service.toInfo (service : Service) (nodes : Nodes) : ServiceInfo where
  serviceId := service.serviceId
  udn := service.udn
  eventURL := service.eventURL
  active := service.active
  totalSubscriptions := service.totalSubscriptions
  subscriptionList := nodes.map Prod.snd

variable {m m' m'' : Mem} {service : Service} {p : Option Addr} {a b : Addr}
  {u v : Subscription} {nodes nodes' nodes'' pre post rest : Nodes} {now : Int} {sid : CString}

theorem Frame.refl (m : Mem) (nodes : Nodes) : Frame m nodes m nodes where
  fresh _ ha := .inl ha
  kept _ _ _ := rfl
  used a ha := by
    by_cases hmem : a ∈ addrs nodes
    · exact .inl hmem
    · exact .inr ⟨ha, hmem⟩

theorem Frame.trans (h : Frame m nodes m' nodes') (h' : Frame m' nodes' m'' nodes'') :
    Frame m nodes m'' nodes'' := by
  have hmem : ∀ a ∈ m, a ∉ addrs nodes → a ∈ m' := by
    intro a ha hnot
    by_contra hfree
    have := h.kept a ha hnot
    rw [Heap.get_eq_none.mpr hfree, eq_comm, Heap.get_eq_none] at this
    exact this ha
  refine ⟨fun a ha ↦ ?_, fun a ha hnot ↦ ?_, fun a ha ↦ ?_⟩
  · rcases h'.fresh a ha with ha' | ha'
    · exact h.fresh a ha'
    · by_contra! hc
      exact ha' (hmem a hc.2 hc.1)
  · have hnot' : a ∉ addrs nodes' := fun hc ↦ (h.fresh a hc).elim hnot (· ha)
    rw [h'.kept a (hmem a ha hnot) hnot', h.kept a ha hnot]
  · rcases h'.used a ha with ha' | ⟨ha', hnot'⟩
    · exact .inl ha'
    · exact .inr ((h.used a ha').resolve_left hnot')

/-! ## Unlinking -/

/-- Freeing a node that is linked to nothing frees it alone. -/
theorem freeSubscriptionList_single (ha : m.get a = some ⟨v, none⟩) :
    freeSubscriptionList m.size m (some a) = some (m.erase a) := by
  have hpos : 0 < m.size := List.length_pos_of_mem (AList.mem_keys.mpr (Heap.mem_of_get ha))
  obtain ⟨n, hn⟩ := Nat.exists_eq_succ_of_ne_zero hpos.ne'
  rw [hn]
  simp [freeSubscriptionList, ha, Heap.free_of_get ha]

theorem writeNode_of_get {next : Option Addr} (ha : m.get a = some ⟨v, next⟩)
    (f : Subscription → Subscription) :
    writeNode m a f = some (m.insert a ⟨f v, next⟩) := by
  simp [writeNode, ha, Heap.set_of_get ha]

theorem writeNext_of_get {next : Option Addr} (ha : m.get a = some ⟨v, next⟩)
    (next' : Option Addr) : writeNext m a next' = some (m.insert a ⟨v, next'⟩) := by
  simp [writeNext, ha, Heap.set_of_get ha]

/-- The memory without a node, and with a change in a list that no longer has the node. -/
theorem Frame.unlink (hread : ∀ c, c ∉ addrs nodes' → m'.get c = if c = a then none else m.get c)
    (hnodes : ∀ c, c ∈ addrs nodes ↔ c = a ∨ c ∈ addrs nodes') : Frame m nodes m' nodes' where
  fresh c hc := .inl ((hnodes c).mpr (.inr hc))
  kept c _ hc := by
    rw [hnodes, not_or] at hc
    rw [hread c hc.2, if_neg hc.1]
  used c hc := by
    by_cases hmem : c ∈ addrs nodes'
    · exact .inl hmem
    · rw [Heap.mem_iff_get, hread c hmem] at hc
      split at hc
      · exact absurd rfl hc
      · rename_i hca
        exact .inr ⟨Heap.mem_iff_get.mpr hc, fun h ↦ ((hnodes c).mp h).elim hca hmem⟩

/-- The node at the head of a list is unlinked. -/
theorem unlink_head (h : Chained m service.subscriptionList ((a, v) :: rest)) :
    ∃ m' p, unlink m service none a = some (m',
      { service with
        subscriptionList := p, totalSubscriptions := service.totalSubscriptions - 1 }) ∧
      Chained m' p rest ∧ Frame m ((a, v) :: rest) m' rest := by
  obtain ⟨-, next, hget, hrest⟩ := h.chain
  have hnd := List.nodup_cons.mp h.nodup
  let m₁ : Mem := m.insert a ⟨v, none⟩
  have hget₁ : Heap.get m₁ a = some ⟨v, none⟩ := by simp [m₁, Heap.get_insert]
  have hread : ∀ c, Heap.get (m₁.erase a) c = if c = a then none else m.get c := by
    intro c
    by_cases hc : c = a <;> simp [m₁, Heap.get_erase, Heap.get_insert, hc]
  refine ⟨m₁.erase a, next, ?_, ⟨?_, hnd.2⟩, .unlink (fun c _ ↦ hread c) (by simp)⟩
  · simp [unlink, hget, writeNext_of_get hget, m₁, freeSubscriptionList_single hget₁]
  · refine hrest.congr fun c hc ↦ ?_
    rw [hread, if_neg]
    rintro rfl
    exact hnd.1 hc

/-- A node behind another one is unlinked. -/
theorem unlink_behind (h : Chained m p (pre ++ (b, u) :: (a, v) :: rest)) (service : Service) :
    ∃ m', unlink m service (some b) a =
        some (m', { service with totalSubscriptions := service.totalSubscriptions - 1 }) ∧
      Chained m' p (pre ++ (b, u) :: rest) ∧
      Frame m (pre ++ (b, u) :: (a, v) :: rest) m' (pre ++ (b, u) :: rest) := by
  obtain ⟨r, hpre, hsplit⟩ := seg_append.mp h.chain
  obtain ⟨rfl, _, hgetb, rfl, next, hgeta, hrest⟩ := hsplit
  have hnd := h.nodup
  simp only [addrs_append, addrs_cons, List.nodup_append, List.nodup_cons, List.mem_cons,
    not_or] at hnd
  obtain ⟨hndpre, ⟨⟨hba, hbrest⟩, harest, hndrest⟩, hdisj⟩ := hnd
  have hpa : ∀ c ∈ addrs pre, c ≠ b ∧ c ≠ a := fun c hc ↦
    ⟨hdisj c hc b (.inl rfl), hdisj c hc a (.inr (.inl rfl))⟩
  let m₁ : Mem := m.insert b ⟨u, next⟩
  let m₂ : Mem := m₁.insert a ⟨v, none⟩
  have hget₁ : Heap.get m₁ a = some ⟨v, next⟩ := by
    simp [m₁, Heap.get_insert, Ne.symm hba, hgeta]
  have hget₂ : Heap.get m₂ a = some ⟨v, none⟩ := by simp [m₂, Heap.get_insert]
  have hread : ∀ c, c ≠ b → Heap.get (m₂.erase a) c = if c = a then none else m.get c := by
    intro c hc
    by_cases hca : c = a <;> simp [m₁, m₂, Heap.get_erase, Heap.get_insert, hc, hca]
  have hsame : ∀ c, c ≠ b → c ≠ a → Heap.get (m₂.erase a) c = m.get c := by
    intro c hb ha
    rw [hread c hb, if_neg ha]
  have hlink : Heap.get (m₂.erase a) b = some ⟨u, next⟩ := by
    simp [m₁, m₂, Heap.get_erase, Heap.get_insert, hba]
  refine ⟨m₂.erase a, ?_, ⟨seg_append.mpr ⟨some b, ?_, rfl, next, hlink, ?_⟩, ?_⟩,
    .unlink (fun c hc ↦ hread c ?_) fun c ↦ ?_⟩
  · simp [unlink, hgeta, writeNext_of_get hgetb, writeNext_of_get hget₁, m₁, m₂,
      freeSubscriptionList_single hget₂]
  · exact hpre.congr fun c hc ↦ hsame c (hpa c hc).1 (hpa c hc).2
  · refine hrest.congr fun c hc ↦ hsame c ?_ ?_
    · rintro rfl
      exact hbrest hc
    · rintro rfl
      exact harest hc
  · simp only [addrs_append, addrs_cons, List.nodup_append, List.nodup_cons, List.mem_cons]
    exact ⟨hndpre, ⟨hbrest, hndrest⟩, fun c hc d hd ↦ hdisj c hc d (hd.imp_right .inr)⟩
  · rintro rfl
    simp at hc
  · simp only [addrs_append, addrs_cons, List.mem_append, List.mem_cons]
    tauto

/-- A list was edited and is in order again. -/
structure Edit (m : Mem) (nodes : Nodes) (m' : Mem) (p : Option Addr) (nodes' : Nodes) : Prop where
  chained : Chained m' p nodes'
  frame : Frame m nodes m' nodes'

theorem Edit.refl (h : Chained m p nodes) : Edit m nodes m p nodes := ⟨h, .refl m nodes⟩

theorem Edit.trans {q : Option Addr} (h : Edit m nodes m' p nodes')
    (h' : Edit m' nodes' m'' q nodes'') : Edit m nodes m'' q nodes'' :=
  ⟨h'.chained, h.frame.trans h'.frame⟩

/-- A node of a list is unlinked, wherever it stands. -/
theorem unlink_spec (h : Chained m service.subscriptionList (pre ++ (a, v) :: rest)) :
    ∃ m' p, unlink m service (pre.getLast?.map Prod.fst) a = some (m',
        { service with
          subscriptionList := p, totalSubscriptions := service.totalSubscriptions - 1 }) ∧
      Edit m (pre ++ (a, v) :: rest) m' p (pre ++ rest) := by
  rcases List.eq_nil_or_concat pre with rfl | ⟨pre, ⟨b, u⟩, rfl⟩
  · obtain ⟨m', p, heq, hch, hfr⟩ := unlink_head h
    exact ⟨m', p, heq, hch, hfr⟩
  · rw [List.concat_eq_append] at h ⊢
    simp only [List.append_assoc, List.cons_append, List.nil_append] at h ⊢
    obtain ⟨m', heq, hch, hfr⟩ := unlink_behind h service
    exact ⟨m', service.subscriptionList, by simpa using heq, hch, hfr⟩

/-- A value is written to a node that keeps its place. -/
theorem writeNode_spec (h : Chained m p (pre ++ (a, v) :: rest))
    (f : Subscription → Subscription) :
    ∃ m', writeNode m a f = some m' ∧
      Edit m (pre ++ (a, v) :: rest) m' p (pre ++ (a, f v) :: rest) := by
  obtain ⟨next, hget, hseg⟩ := h.chain.write h.nodup (f v)
  have hsame : addrs (pre ++ (a, f v) :: rest) = addrs (pre ++ (a, v) :: rest) := by simp
  refine ⟨_, writeNode_of_get hget f, ⟨hseg, hsame ▸ h.nodup⟩, ?_, ?_, ?_⟩
  · intro c hc
    exact .inl (hsame ▸ hc)
  · intro c _ hc
    rw [Heap.get_insert, if_neg]
    rintro rfl
    simp at hc
  · intro c hc
    rw [hsame]
    by_cases hmem : c ∈ addrs (pre ++ (a, v) :: rest)
    · exact .inl hmem
    · refine .inr ⟨?_, hmem⟩
      have hca : c ≠ a := by
        rintro rfl
        simp at hmem
      rwa [Heap.mem_iff_get, Heap.get_insert, if_neg hca, ← Heap.mem_iff_get] at hc

/-! ## Look-ups by SID -/

/-- The first node with a SID, if there is one. -/
theorem split_sid (sid : CString) (nodes : Nodes) :
    (∀ x ∈ nodes, x.2.sid ≠ sid) ∨ ∃ pre a v rest, nodes = pre ++ (a, v) :: rest ∧
      (∀ x ∈ pre, x.2.sid ≠ sid) ∧ v.sid = sid := by
  induction nodes with
  | nil => exact .inl (by simp)
  | cons x nodes ih =>
    by_cases hx : x.2.sid = sid
    · exact .inr ⟨[], x.1, x.2, nodes, rfl, by simp, hx⟩
    · rcases ih with hall | ⟨pre, a, v, rest, rfl, hpre, hv⟩
      · exact .inl (by simpa [hx] using hall)
      · exact .inr ⟨x :: pre, a, v, rest, rfl, by simpa [hx] using hpre, hv⟩

/-- The node before the rest of a list, when `previous` is before the list. -/
private theorem previous_cons (x : Addr × Subscription) (pre : Nodes) (previous : Option Addr) :
    ((x :: pre).getLast?.map Prod.fst).or previous = (pre.getLast?.map Prod.fst).or (some x.1) := by
  rw [List.getLast?_cons]
  cases pre.getLast? <;> rfl

/-- `RemoveSubscriptionSID` steps over nodes with other SIDs. -/
theorem removeLoop_seg {q r : Option Addr} (hs : Seg m q pre r) (hsid : ∀ x ∈ pre, x.2.sid ≠ sid)
    (previous : Option Addr) (n : Nat) :
    removeLoop sid (pre.length + n) m service previous q =
      removeLoop sid n m service ((pre.getLast?.map Prod.fst).or previous) r := by
  induction pre generalizing q previous with
  | nil =>
    obtain rfl : q = r := hs
    simp
  | cons x pre ih =>
    obtain ⟨a, v⟩ := x
    obtain ⟨rfl, next, hget, hs⟩ := hs
    have hv : sid ≠ v.sid := fun heq ↦ hsid (a, v) (by simp) heq.symm
    rw [List.length_cons, Nat.add_right_comm, removeLoop]
    simp only [hget, Option.bind_eq_bind, Option.bind_some, if_neg hv,
      ih hs fun y hy ↦ hsid y (by simp [hy]), previous_cons]

/-- `GetSubscriptionSID` steps over nodes with other SIDs. -/
theorem findLoop_seg {q r : Option Addr} (hs : Seg m q pre r) (hsid : ∀ x ∈ pre, x.2.sid ≠ sid)
    (previous : Option Addr) (n : Nat) :
    findLoop sid m (pre.length + n) previous q =
      findLoop sid m n ((pre.getLast?.map Prod.fst).or previous) r := by
  induction pre generalizing q previous with
  | nil =>
    obtain rfl : q = r := hs
    simp
  | cons x pre ih =>
    obtain ⟨a, v⟩ := x
    obtain ⟨rfl, next, hget, hs⟩ := hs
    have hv : v.sid ≠ sid := hsid (a, v) (by simp)
    rw [List.length_cons, Nat.add_right_comm, findLoop]
    simp only [hget, Option.bind_eq_bind, Option.bind_some, if_neg hv,
      ih hs fun y hy ↦ hsid y (by simp [hy]), previous_cons]

theorem removeLoop_none (n : Nat) (previous : Option Addr) :
    removeLoop sid n m service previous none = some (m, service) := by
  cases n <;> rfl

theorem findLoop_none (n : Nat) (previous : Option Addr) :
    findLoop sid m n previous none = some (previous, none) := by
  cases n <;> rfl

/-- A search by SID among nodes that are split at the first one with the SID. -/
private theorem split_find? (a : Addr) (rest : Nodes) (hpre : ∀ x ∈ pre, x.2.sid ≠ sid) (hv : v.sid = sid) :
    ((pre ++ (a, v) :: rest).map Prod.snd).find? (·.sid = sid) = some v ∧
      ((pre ++ (a, v) :: rest).map Prod.snd).eraseP (·.sid = sid) =
        (pre ++ rest).map Prod.snd := by
  induction pre with
  | nil => simp [hv]
  | cons x pre ih =>
    have hx : x.2.sid ≠ sid := hpre x (by simp)
    simpa [hx] using ih fun y hy ↦ hpre y (by simp [hy])

/-- What removal by SID does to the list model, when there is a node with the SID. -/
theorem toInfo_remove (hpre : ∀ x ∈ pre, x.2.sid ≠ sid) (hv : v.sid = sid) (p : Option Addr) :
    Gena.removeSubscriptionSID sid (service.toInfo (pre ++ (a, v) :: rest)) =
      Service.toInfo { service with
        subscriptionList := p, totalSubscriptions := service.totalSubscriptions - 1 }
        (pre ++ rest) := by
  obtain ⟨-, herase⟩ := split_find? a rest hpre hv
  have hany : (service.toInfo (pre ++ (a, v) :: rest)).subscriptionList.any (·.sid = sid) :=
    List.any_eq_true.mpr ⟨v, by simp [Service.toInfo], by simpa using hv⟩
  unfold Gena.removeSubscriptionSID
  rw [if_pos hany]
  simp [Service.toInfo] at herase ⊢
  exact herase

/-- `RemoveSubscriptionSID` refines the list model. -/
theorem removeSubscriptionSID_spec (sid : CString)
    (h : Chained m service.subscriptionList nodes) :
    ∃ m' service' nodes', removeSubscriptionSID sid m service = some (m', service') ∧
      Edit m nodes m' service'.subscriptionList nodes' ∧
      Gena.removeSubscriptionSID sid (service.toInfo nodes) = service'.toInfo nodes' ∧
      nodes' = nodes.eraseP (·.2.sid = sid) := by
  have hlen : nodes.length ≤ m.size := h.chain.length_le h.nodup
  rcases split_sid sid nodes with hall | ⟨pre, a, v, rest, rfl, hpre, hv⟩
  · refine ⟨m, service, nodes, ?_, .refl h, ?_, ?_⟩
    · rw [removeSubscriptionSID, ← Nat.add_sub_cancel' hlen, removeLoop_seg h.chain hall,
        removeLoop_none]
    · have hany : ¬ (service.toInfo nodes).subscriptionList.any (·.sid = sid) := by
        simpa [Service.toInfo] using hall
      rw [Gena.removeSubscriptionSID, if_neg hany]
    · exact (List.eraseP_of_forall_not (by simpa using hall)).symm
  · obtain ⟨r, hseg, rfl, next, hget, hrest⟩ := seg_append.mp h.chain
    obtain ⟨m', p, heq, hedit⟩ := unlink_spec h
    refine ⟨m', _, _, ?_, hedit, toInfo_remove hpre hv p, ?_⟩
    · have hsize : m.size = pre.length + ((m.size - pre.length - 1) + 1) := by
        simp at hlen
        omega
      rw [removeSubscriptionSID, hsize, removeLoop_seg hseg hpre, removeLoop, Option.or_none]
      simp [hget, hv, heq]
    · rw [List.eraseP_append_right _ (by simpa using hpre),
        List.eraseP_cons_of_pos (by simpa using hv)]

/-- `GetSubscriptionSID` refines the list model: it finds nothing, frees the expired node that it
finds, or returns the node that it finds. -/
theorem getSubscriptionSID_spec (now : Int) (sid : CString)
    (h : Chained m service.subscriptionList nodes) :
    (∃ m' service' nodes', getSubscriptionSID now sid m service = some (m', service', none) ∧
      Edit m nodes m' service'.subscriptionList nodes' ∧
      Gena.getSubscriptionSID now sid (service.toInfo nodes) = (service'.toInfo nodes', none) ∧
      nodes' = nodes.eraseP fun x ↦ x.2.sid = sid ∧ x.2.expired now) ∨
    ∃ pre a v rest, nodes = pre ++ (a, v) :: rest ∧ (∀ x ∈ pre, x.2.sid ≠ sid) ∧ v.sid = sid ∧
      ¬ v.expired now ∧ getSubscriptionSID now sid m service = some (m, service, some a) ∧
      Gena.getSubscriptionSID now sid (service.toInfo nodes) = (service.toInfo nodes, some v) := by
  have hlen : nodes.length ≤ m.size := h.chain.length_le h.nodup
  rcases split_sid sid nodes with hall | ⟨pre, a, v, rest, rfl, hpre, hv⟩
  · refine .inl ⟨m, service, nodes, ?_, .refl h, ?_, ?_⟩
    · rw [getSubscriptionSID, ← Nat.add_sub_cancel' hlen, findLoop_seg h.chain hall, findLoop_none]
      rfl
    · have hfind : (service.toInfo nodes).subscriptionList.find? (·.sid = sid) = none := by
        simpa [Service.toInfo] using hall
      rw [Gena.getSubscriptionSID, hfind]
    · refine (List.eraseP_of_forall_not fun x hx ↦ ?_).symm
      simp [hall x hx]
  · obtain ⟨r, hseg, rfl, next, hget, hrest⟩ := seg_append.mp h.chain
    have hsize : m.size = pre.length + ((m.size - pre.length - 1) + 1) := by
      simp at hlen
      omega
    have hfind : findLoop sid m m.size none service.subscriptionList =
        some (pre.getLast?.map Prod.fst, some a) := by
      rw [hsize, findLoop_seg hseg hpre, findLoop, Option.or_none]
      simp [hget, hv]
    have hmodel : (service.toInfo (pre ++ (a, v) :: rest)).subscriptionList.find? (·.sid = sid) =
        some v := (split_find? a rest hpre hv).1
    by_cases he : v.expired now
    · obtain ⟨m', p, heq, hedit⟩ := unlink_spec h
      refine .inl ⟨m', { service with
        subscriptionList := p, totalSubscriptions := service.totalSubscriptions - 1 },
        pre ++ rest, ?_, hedit, ?_, ?_⟩
      · simp [getSubscriptionSID, hfind, hget, he, heq]
      · rw [Gena.getSubscriptionSID, hmodel]
        simp only [he, if_true, toInfo_remove hpre hv p]
      · rw [List.eraseP_append_right _ (by simpa using fun c s hx hs ↦ absurd hs (hpre _ hx)),
          List.eraseP_cons_of_pos (by simp [hv, he])]
    · refine .inr ⟨pre, a, v, rest, rfl, hpre, hv, he, ?_, ?_⟩
      · simp [getSubscriptionSID, hfind, hget, he]
      · rw [Gena.getSubscriptionSID, hmodel]
        simp [he]

end Upnp.Gena.Linked
