import Mathlib
import Upnp.Gena.LinkedList

/-!
# Walks over a subscription list

`GetFirstSubscription` and `GetNextSubscription` free the expired nodes that
they come across and step over the inactive ones.  A walk with them keeps the
order of what it does not free, and visits each active node that it keeps once.
-/

namespace Upnp.Gena.Linked

open Upnp.Lib

variable {m m' : Mem} {service : Service} {p : Option Addr} {a b : Addr} {u v : Subscription}
  {nodes nodes' pre rest : Nodes} {now : Int} {clock : Nat → Int}

/-! ## One step -/

/-- What `GetNextSubscription` does to the nodes behind its current one. -/
structure Advance where
  /-- The inactive nodes that it steps over. -/
  skipped : Nodes
  /-- The expired nodes that it frees. -/
  freed : Nodes
  /-- The nodes from the one that it returns on. -/
  next : Nodes

/-- `GetNextSubscription` on the nodes behind its current one. -/
def advance (now : Int) : Nodes → Advance
  | [] => ⟨[], [], []⟩
  | x :: rest =>
    if x.2.expired now then { advance now rest with freed := x :: (advance now rest).freed }
    else if x.2.active then ⟨[], [], x :: rest⟩
    else { advance now rest with skipped := x :: (advance now rest).skipped }

/-- The nodes that are left behind the current one. -/
def Advance.kept (r : Advance) : Nodes := r.skipped ++ r.next

theorem advance_next_length (now : Int) (rest : Nodes) :
    (advance now rest).next.length ≤ rest.length := by
  induction rest with
  | nil => simp [advance]
  | cons x rest ih =>
    unfold advance
    split
    · exact Nat.le_succ_of_le ih
    split
    · exact Nat.le_refl _
    · exact Nat.le_succ_of_le ih

/-- The service with the count of nodes reduced. -/
def Service.less (service : Service) (n : Nat) : Service :=
  { service with totalSubscriptions := service.totalSubscriptions - n }

/-- The service with another first node. -/
def Service.headAt (service : Service) (p : Option Addr) : Service :=
  { service with subscriptionList := p }

@[simp] theorem Service.headAt_subscriptionList (service : Service) (p : Option Addr) :
    (service.headAt p).subscriptionList = p := rfl

theorem Service.less_headAt (service : Service) (p : Option Addr) (n : Nat) :
    (service.headAt p).less n = (service.less n).headAt p := rfl

@[simp] theorem Service.less_zero (service : Service) : service.less 0 = service := by
  simp [less]

theorem Service.less_less (service : Service) (j k : Nat) :
    (service.less j).less k = service.less (j + k) := by
  simp only [less, Nat.cast_add]
  congr 1
  omega

/-- The loop of `GetNextSubscription` on a list that has its node `b`. -/
theorem nextLoop_spec (now : Int) {n : Nat} (hn : rest.length < n) (service : Service)
    (h : Chained m p (pre ++ (b, u) :: rest)) :
    ∃ m', nextLoop now n m service b =
        some (m', service.less (advance now rest).freed.length,
          (advance now rest).next.head?.map Prod.fst) ∧
      Edit m (pre ++ (b, u) :: rest) m' p (pre ++ (b, u) :: (advance now rest).kept) := by
  induction rest generalizing n m service pre b u with
  | nil =>
    obtain ⟨n, rfl⟩ := Nat.exists_eq_succ_of_ne_zero (Nat.ne_zero_of_lt hn)
    exact ⟨m, by simp [nextLoop, h.chain.last, advance], .refl h⟩
  | cons x rest ih =>
    obtain ⟨a, v⟩ := x
    obtain ⟨n, rfl⟩ := Nat.exists_eq_succ_of_ne_zero (Nat.ne_zero_of_lt hn)
    have hn : rest.length < n := by simpa using hn
    obtain ⟨_, -, rfl, _, hgetb, rfl, next, hgeta, -⟩ := seg_append.mp h.chain
    by_cases he : v.expired now
    · obtain ⟨m₁, hunlink, hch, hfr⟩ := unlink_behind h service
      obtain ⟨m', heq, hedit⟩ := ih hn (service.less 1) hch
      refine ⟨m', ?_, ?_⟩
      · have hrun : nextLoop now (n + 1) m service b = nextLoop now n m₁ (service.less 1) b := by
          simp [nextLoop, hgetb, hgeta, he, hunlink, Service.less]
        rw [hrun, heq, Service.less_less, advance]
        simp [he, Nat.add_comm]
      · have hkept : (advance now ((a, v) :: rest)).kept = (advance now rest).kept := by
          simp [advance, he, Advance.kept]
        rw [hkept]
        exact .trans ⟨hch, hfr⟩ hedit
    · by_cases hv : v.active
      · exact ⟨m, by simp [nextLoop, hgetb, hgeta, he, hv, advance],
          by simpa [advance, he, hv, Advance.kept] using Edit.refl h⟩
      · have hcons : pre ++ (b, u) :: (a, v) :: rest = (pre ++ [(b, u)]) ++ (a, v) :: rest := by
          simp
        obtain ⟨m', heq, hedit⟩ := ih hn service (hcons ▸ h)
        refine ⟨m', ?_, ?_⟩
        · have hrun : nextLoop now (n + 1) m service b = nextLoop now n m service a := by
            simp [nextLoop, hgetb, hgeta, he, hv]
          rw [hrun, heq]
          simp [advance, he, hv]
        · simpa [advance, he, hv, Advance.kept] using hedit

/-- `GetNextSubscription` from a node of the list. -/
theorem getNextSubscription_spec (now : Int) (service : Service)
    (h : Chained m p (pre ++ (b, u) :: rest)) :
    ∃ m', getNextSubscription now m service (some b) =
        some (m', service.less (advance now rest).freed.length,
          (advance now rest).next.head?.map Prod.fst) ∧
      Edit m (pre ++ (b, u) :: rest) m' p (pre ++ (b, u) :: (advance now rest).kept) := by
  have hlen := h.chain.length_le h.nodup
  refine nextLoop_spec now ?_ service h
  simp at hlen
  omega

/-- `GetFirstSubscription`. -/
theorem getFirstSubscription_spec (now : Int)
    (h : Chained m service.subscriptionList nodes) :
    ∃ m' p, getFirstSubscription now m service =
        some (m', (service.less (advance now nodes).freed.length).headAt p,
          (advance now nodes).next.head?.map Prod.fst) ∧
      Edit m nodes m' p (advance now nodes).kept := by
  let m₀ : Mem := m.alloc m.fresh ⟨default, service.subscriptionList⟩
  have hfresh : m.fresh ∉ m := m.fresh_notMem
  have hnot : m.fresh ∉ addrs nodes := by
    intro hmem
    obtain ⟨x, hx, heq⟩ := List.mem_map.mp hmem
    obtain ⟨next, hget⟩ := h.chain.mem x hx
    exact hfresh (heq ▸ Heap.mem_of_get hget)
  have hread₀ : ∀ c, c ≠ m.fresh → Heap.get m₀ c = m.get c := fun c hc ↦ by
    rw [Heap.get_alloc, if_neg hc]
  -- with `temp` before it the list is one that `GetNextSubscription` can step along
  have h₀ : Chained m₀ (some m.fresh) ([] ++ (m.fresh, default) :: nodes) := by
    refine ⟨⟨rfl, service.subscriptionList, ?_, h.chain.congr fun c hc ↦ hread₀ c ?_⟩,
      List.nodup_cons.mpr ⟨hnot, h.nodup⟩⟩
    · rw [Heap.get_alloc, if_pos rfl]
    · rintro rfl
      exact hnot hc
  obtain ⟨m₁, heq, hch, hfr⟩ := getNextSubscription_spec now service h₀
  rw [List.nil_append] at hch hfr
  obtain ⟨-, p, hget, hseg⟩ := hch.chain
  have hnd := List.nodup_cons.mp hch.nodup
  have hread₁ : ∀ c, c ≠ m.fresh → Heap.get (m₁.erase m.fresh) c = m₁.get c := fun c hc ↦ by
    rw [Heap.get_erase, if_neg hc]
  refine ⟨m₁.erase m.fresh, p, ?_, ⟨hseg.congr fun c hc ↦ hread₁ c ?_, hnd.2⟩, ?_, ?_, ?_⟩
  · simp only [getFirstSubscription, Option.bind_eq_bind]
    change (getNextSubscription now m₀ service (some m.fresh)).bind _ = _
    rw [heq]
    simp [hget, Heap.free_of_get hget, Service.headAt]
  · rintro rfl
    exact hnd.1 hc
  · intro c hc
    have hne : c ≠ m.fresh := by
      rintro rfl
      exact hnd.1 hc
    rcases hfr.fresh c (by simp [hc]) with hc' | hc'
    · exact .inl (by simpa [hne] using hc')
    · rw [← Heap.get_eq_none, hread₀ c hne, Heap.get_eq_none] at hc'
      exact .inr hc'
  · intro c hc hnotc
    have hne : c ≠ m.fresh := by
      rintro rfl
      exact hfresh hc
    rw [hread₁ c hne, hfr.kept c ?_ (by simpa [hne] using hnotc), hread₀ c hne]
    rwa [Heap.mem_iff_get, hread₀ c hne, ← Heap.mem_iff_get]
  · intro c hc
    have hne : c ≠ m.fresh := by
      rintro rfl
      rw [Heap.mem_iff_get, Heap.get_erase, if_pos rfl] at hc
      exact hc rfl
    rw [Heap.mem_iff_get, hread₁ c hne, ← Heap.mem_iff_get] at hc
    rcases hfr.used c hc with hc' | ⟨hc', hnotc⟩
    · exact .inl (by simpa [hne] using hc')
    · rw [Heap.mem_iff_get, hread₀ c hne, ← Heap.mem_iff_get] at hc'
      exact .inr ⟨hc', by simpa [hne] using hnotc⟩

/-! ## A walk -/

/-- What a walk does to the nodes of a list. -/
structure Walk where
  kept : Nodes
  freed : Nodes
  visited : Nodes

/-- A walk over nodes, before the `i`-th reading of the clock. -/
def walkNodes (clock : Nat → Int) : Nat → Nodes → Walk
  | _, [] => ⟨[], [], []⟩
  | i, x :: rest =>
    if x.2.expired (clock i) then
      { walkNodes clock i rest with freed := x :: (walkNodes clock i rest).freed }
    else if x.2.active then
      { walkNodes clock (i + 1) rest with
        kept := x :: (walkNodes clock (i + 1) rest).kept
        visited := x :: (walkNodes clock (i + 1) rest).visited }
    else { walkNodes clock i rest with kept := x :: (walkNodes clock i rest).kept }

/-- A walk is a step to its first visit and the walk from there. -/
theorem walkNodes_advance (clock : Nat → Int) (i : Nat) (nodes : Nodes) :
    walkNodes clock i nodes =
      match (advance (clock i) nodes).next with
      | [] => ⟨(advance (clock i) nodes).skipped, (advance (clock i) nodes).freed, []⟩
      | x :: rest =>
        ⟨(advance (clock i) nodes).skipped ++ x :: (walkNodes clock (i + 1) rest).kept,
          (advance (clock i) nodes).freed ++ (walkNodes clock (i + 1) rest).freed,
          x :: (walkNodes clock (i + 1) rest).visited⟩ := by
  induction nodes with
  | nil => rfl
  | cons x nodes ih =>
    by_cases he : x.2.expired (clock i)
    · simp only [walkNodes, he, if_true, advance, ih]
      cases (advance (clock i) nodes).next <;> rfl
    · by_cases hv : x.2.active
      · simp [walkNodes, he, hv, advance]
      · simp only [walkNodes, he, hv, if_false, advance, ih, Bool.false_eq_true]
        cases (advance (clock i) nodes).next <;> rfl

/-- The rest of a walk, from a node of the list. -/
theorem walkLoop_spec (clock : Nat → Int) {n : Nat} (i : Nat) (hn : rest.length < n)
    (service : Service) (h : Chained m p (pre ++ (a, v) :: rest)) :
    ∃ m', walkLoop clock n i m service (some a) =
        some (m', service.less (walkNodes clock i rest).freed.length,
          a :: addrs (walkNodes clock i rest).visited) ∧
      Edit m (pre ++ (a, v) :: rest) m' p (pre ++ (a, v) :: (walkNodes clock i rest).kept) := by
  induction n generalizing i m service pre a v rest with
  | zero => omega
  | succ n ih =>
    obtain ⟨m₁, hnext, hedit⟩ := getNextSubscription_spec (clock i) service h
    have hlen := advance_next_length (clock i) rest
    rw [walkNodes_advance]
    cases hn' : (advance (clock i) rest).next with
    | nil =>
      refine ⟨m₁, ?_, by simpa [Advance.kept, hn'] using hedit⟩
      cases n <;> simp [walkLoop, hnext, hn']
    | cons x rest' =>
      obtain ⟨b, w⟩ := x
      rw [hn'] at hlen
      have hkept : pre ++ (a, v) :: (advance (clock i) rest).kept =
          (pre ++ (a, v) :: (advance (clock i) rest).skipped) ++ (b, w) :: rest' := by
        simp [Advance.kept, hn']
      rw [hkept] at hedit
      obtain ⟨m', heq, hedit'⟩ := ih (i + 1)
        (by simp at hlen; omega) (service.less (advance (clock i) rest).freed.length) hedit.chained
      refine ⟨m', ?_, by simpa using hedit.trans hedit'⟩
      simp [walkLoop, hnext, hn', heq, Service.less_less]

/-- A walk over a list: the list is left with the nodes kept, each visit is to a node. -/
theorem walk_spec (clock : Nat → Int) (h : Chained m service.subscriptionList nodes) :
    ∃ m' p, walk clock m service =
        some (m', (service.less (walkNodes clock 0 nodes).freed.length).headAt p,
          addrs (walkNodes clock 0 nodes).visited) ∧
      Edit m nodes m' p (walkNodes clock 0 nodes).kept := by
  obtain ⟨m₁, p, hfirst, hedit⟩ := getFirstSubscription_spec (clock 0) h
  have hlen := advance_next_length (clock 0) nodes
  rw [walkNodes_advance]
  cases hn' : (advance (clock 0) nodes).next with
  | nil =>
    refine ⟨m₁, p, ?_, by simpa [Advance.kept, hn'] using hedit⟩
    cases hs : m₁.size <;> simp [walk, hfirst, hn', walkLoop, hs]
  | cons x rest =>
    obtain ⟨b, w⟩ := x
    have hkept : (advance (clock 0) nodes).kept =
        (advance (clock 0) nodes).skipped ++ (b, w) :: rest := by
      simp [Advance.kept, hn']
    rw [hkept] at hedit
    have hsize := hedit.chained.chain.length_le hedit.chained.nodup
    obtain ⟨m', heq, hedit'⟩ := walkLoop_spec clock (n := m₁.size) 1 (by simp at hsize; omega)
      ((service.less (advance (clock 0) nodes).freed.length).headAt p) hedit.chained
    refine ⟨m', p, ?_, hedit.trans hedit'⟩
    simp [walk, hfirst, hn', heq, Service.less_headAt, Service.less_less]

section WalkNodes

/-- A walk visits the active ones of the nodes that it keeps, in their order. -/
theorem walkNodes_visited (clock : Nat → Int) (i : Nat) (nodes : Nodes) :
    (walkNodes clock i nodes).visited = (walkNodes clock i nodes).kept.filter (·.2.active) := by
  induction nodes generalizing i with
  | nil => rfl
  | cons x nodes ih =>
    unfold walkNodes
    split
    · exact ih i
    split
    · rename_i hv
      simp [hv, ih]
    · rename_i hv
      simp [hv, ih]

/-- A walk keeps the order of the nodes that it does not free. -/
theorem walkNodes_kept_sublist (clock : Nat → Int) (i : Nat) (nodes : Nodes) :
    (walkNodes clock i nodes).kept.Sublist nodes := by
  induction nodes generalizing i with
  | nil => exact .slnil
  | cons x nodes ih =>
    unfold walkNodes
    split
    · exact .cons x (ih i)
    split
    · exact .cons_cons x (ih (i + 1))
    · exact .cons_cons x (ih i)

theorem walkNodes_length (clock : Nat → Int) (i : Nat) (nodes : Nodes) :
    (walkNodes clock i nodes).kept.length + (walkNodes clock i nodes).freed.length =
      nodes.length := by
  induction nodes generalizing i with
  | nil => rfl
  | cons x nodes ih =>
    unfold walkNodes
    split
    · have := ih i
      simp
      omega
    split
    · have := ih (i + 1)
      simp
      omega
    · have := ih i
      simp
      omega

theorem Subscription.expired_mono {s : Subscription} {now later : Int} (hle : now ≤ later)
    (h : s.expired now) : s.expired later := by
  simp only [Gena.Subscription.expired, ne_eq, Bool.and_eq_true, decide_eq_true_eq] at h ⊢
  exact ⟨h.1, by omega⟩

/-- Of the nodes that a walk does not keep, each was expired when it was freed. -/
theorem walkNodes_expired (hclock : Monotone clock) (i : Nat) (nodes : Nodes) :
    ∀ x ∈ nodes, x ∉ (walkNodes clock i nodes).kept →
      x.2.expired (clock (i + (walkNodes clock i nodes).visited.length)) := by
  induction nodes generalizing i with
  | nil => simp
  | cons y nodes ih =>
    intro x hx hnot
    by_cases he : y.2.expired (clock i)
    · have hwalk : walkNodes clock i (y :: nodes) =
          { walkNodes clock i nodes with freed := y :: (walkNodes clock i nodes).freed } := by
        simp [walkNodes, he]
      rw [hwalk] at hnot ⊢
      rcases List.mem_cons.mp hx with rfl | hx
      · exact Subscription.expired_mono (hclock (Nat.le_add_right _ _)) he
      · exact ih i x hx hnot
    · by_cases hv : y.2.active
      · simp only [walkNodes, he, hv, if_true, List.mem_cons, not_or, List.length_cons,
          Bool.false_eq_true, if_false] at hnot ⊢
        have := ih (i + 1) x ((List.mem_cons.mp hx).resolve_left hnot.1) hnot.2
        rwa [Nat.add_right_comm, Nat.add_assoc] at this
      · simp only [walkNodes, he, hv, List.mem_cons, not_or, Bool.false_eq_true,
          if_false] at hnot ⊢
        exact ih i x ((List.mem_cons.mp hx).resolve_left hnot.1) hnot.2

/-- Of the nodes that a walk keeps, none was expired when the walk began. -/
theorem walkNodes_not_expired (hclock : Monotone clock) (i : Nat) (nodes : Nodes) :
    ∀ x ∈ (walkNodes clock i nodes).kept, ¬ x.2.expired (clock i) := by
  induction nodes generalizing i with
  | nil => simp [walkNodes]
  | cons y nodes ih =>
    unfold walkNodes
    split
    · exact ih i
    rename_i he
    split
    · intro x hx
      rcases List.mem_cons.mp hx with rfl | hx
      · exact he
      · exact fun hc ↦ ih (i + 1) x hx (Subscription.expired_mono (hclock (Nat.le_succ i)) hc)
    · intro x hx
      rcases List.mem_cons.mp hx with rfl | hx
      · exact he
      · exact ih i x hx

end WalkNodes

/-! ## The loop of `genaNotifyAll` -/

section Broadcast

variable (env : NotifyEnv) (mk : Subscription → NotifyThreadStruct)

/-- The broadcast of the list model up to its first subscription is a step of the walk. -/
theorem broadcast_advance (i : Nat) (nodes : Nodes) :
    broadcast env mk i (nodes.map Prod.snd) =
      let r := advance (env.clock i) nodes
      let b := broadcast env mk i (r.next.map Prod.snd)
      { b with list := r.skipped.map Prod.snd ++ b.list, freed := r.freed.length + b.freed } := by
  induction nodes with
  | nil => rfl
  | cons x nodes ih =>
    by_cases he : x.2.expired (env.clock i)
    · simp [broadcast, advance, he, ih, Nat.add_right_comm]
    · by_cases hv : x.2.active
      · simp [advance, he, hv]
      · simp [broadcast, advance, he, hv, ih]

/-- The node that `GetNextSubscription` returns is active and not expired. -/
theorem advance_next_head {x : Addr × Subscription} (h : (advance now nodes).next = x :: rest) :
    x.2.active ∧ ¬ x.2.expired now := by
  induction nodes with
  | nil => simp [advance] at h
  | cons y nodes ih =>
    unfold advance at h
    split at h
    · exact ih h
    rename_i he
    split at h
    · rename_i hv
      obtain ⟨rfl, -⟩ := List.cons.inj h
      exact ⟨hv, he⟩
    · exact ih h

/-- The loop of `genaNotifyAll` from a node on refines the broadcast of the list model. -/
theorem notifyLoop_spec {n : Nat} (i : Nat) (hn : rest.length < n) (service : Service)
    (h : Chained m p (pre ++ (a, v) :: rest)) (hv : v.active)
    (he : ¬ v.expired (env.clock i)) :
    ∃ m' nodes', notifyLoop env n i m service (some a) =
        some (m', service.less (broadcast env mk i (v :: rest.map Prod.snd)).freed,
          (broadcast env mk i (v :: rest.map Prod.snd)).return_code) ∧
      Edit m (pre ++ (a, v) :: rest) m' p (pre ++ nodes') ∧
      nodes'.map Prod.snd = (broadcast env mk i (v :: rest.map Prod.snd)).list := by
  induction n generalizing i m service pre a v rest with
  | zero => omega
  | succ n ih =>
    by_cases hs : env.structAllocOk i
    swap
    · exact ⟨m, (a, v) :: rest, by simp [notifyLoop, hs, broadcast, he, hv], .refl h,
        by simp [hs, broadcast, he, hv]⟩
    obtain ⟨m₁, hwrite, hedit₁⟩ :=
      writeNode_spec h fun v ↦ { v with eventKey := bumpKey v.eventKey }
    by_cases hr : env.schedule i = 0
    swap
    · exact ⟨m₁, (a, { v with eventKey := bumpKey v.eventKey }) :: rest,
        by simp [notifyLoop, hs, hwrite, hr, broadcast, he, hv], hedit₁,
        by simp [hs, hr, broadcast, he, hv]⟩
    obtain ⟨m₂, hnext, hedit₂⟩ :=
      getNextSubscription_spec (env.clock (i + 1)) service hedit₁.chained
    have hlen := advance_next_length (env.clock (i + 1)) rest
    have hmodel : broadcast env mk i (v :: rest.map Prod.snd) =
        let b := broadcast env mk (i + 1) (rest.map Prod.snd)
        { b with
          list := { v with eventKey := bumpKey v.eventKey } :: b.list
          queued := mk v :: b.queued
          count := b.count + 1 } := by
      simp [broadcast, he, hv, hs, hr]
    rw [hmodel, broadcast_advance]
    cases hn' : (advance (env.clock (i + 1)) rest).next with
    | nil =>
      refine ⟨m₂, (a, { v with eventKey := bumpKey v.eventKey }) ::
        (advance (env.clock (i + 1)) rest).kept, ?_, hedit₁.trans hedit₂, ?_⟩
      · cases n <;> simp [notifyLoop, hs, hwrite, hr, hnext, hn', broadcast]
      · simp [Advance.kept, hn', broadcast]
    | cons x rest' =>
      obtain ⟨b, w⟩ := x
      rw [hn'] at hlen
      obtain ⟨hw, hew⟩ := advance_next_head hn'
      have hkept : pre ++ (a, { v with eventKey := bumpKey v.eventKey }) ::
          (advance (env.clock (i + 1)) rest).kept =
          (pre ++ (a, { v with eventKey := bumpKey v.eventKey }) ::
            (advance (env.clock (i + 1)) rest).skipped) ++ (b, w) :: rest' := by
        simp [Advance.kept, hn']
      rw [hkept] at hedit₂
      obtain ⟨m', nodes', heq, hedit₃, hlist⟩ := ih (i + 1) (by simp at hlen; omega)
        (service.less (advance (env.clock (i + 1)) rest).freed.length) hedit₂.chained hw hew
      refine ⟨m', (a, { v with eventKey := bumpKey v.eventKey }) ::
        (advance (env.clock (i + 1)) rest).skipped ++ nodes', ?_,
        by simpa using hedit₁.trans (hedit₂.trans hedit₃), ?_⟩
      · simp [notifyLoop, hs, hwrite, hr, hnext, hn', heq, Service.less_less]
      · simp [hlist, hn']

/-- The part of `genaNotifyAll` that walks over the list refines the broadcast of the list
model. -/
theorem notify_spec (h : Chained m service.subscriptionList nodes) :
    ∃ m₁ service₁ finger, getFirstSubscription (env.clock 0) m service =
        some (m₁, service₁, finger) ∧
      ∃ m' p nodes', notifyLoop env m₁.size 0 m₁ service₁ finger =
          some (m', (service.less (broadcast env mk 0 (nodes.map Prod.snd)).freed).headAt p,
            (broadcast env mk 0 (nodes.map Prod.snd)).return_code) ∧
        Edit m nodes m' p nodes' ∧
        nodes'.map Prod.snd = (broadcast env mk 0 (nodes.map Prod.snd)).list := by
  obtain ⟨m₁, p, hfirst, hedit⟩ := getFirstSubscription_spec (env.clock 0) h
  refine ⟨m₁, _, _, hfirst, ?_⟩
  rw [broadcast_advance]
  cases hn' : (advance (env.clock 0) nodes).next with
  | nil =>
    refine ⟨m₁, p, (advance (env.clock 0) nodes).kept, ?_, hedit, ?_⟩
    · cases m₁.size <;> simp [notifyLoop, broadcast, hn']
    · simp [Advance.kept, hn', broadcast]
  | cons x rest =>
    obtain ⟨b, w⟩ := x
    obtain ⟨hw, hew⟩ := advance_next_head hn'
    have hkept : (advance (env.clock 0) nodes).kept =
        (advance (env.clock 0) nodes).skipped ++ (b, w) :: rest := by
      simp [Advance.kept, hn']
    rw [hkept] at hedit
    have hsize := hedit.chained.chain.length_le hedit.chained.nodup
    obtain ⟨m', nodes', heq, hedit', hlist⟩ := notifyLoop_spec env mk (n := m₁.size) 0
      (by simp at hsize; omega)
      ((service.less (advance (env.clock 0) nodes).freed.length).headAt p) hedit.chained hw hew
    refine ⟨m', p, (advance (env.clock 0) nodes).skipped ++ nodes', ?_, hedit.trans hedit', ?_⟩
    · simp [heq, hn', Service.less_headAt, Service.less_less]
    · simp [hlist, hn']

end Broadcast

end Upnp.Gena.Linked
