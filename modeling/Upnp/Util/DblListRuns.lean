import Upnp.Util.DblList

/-!
# Lists and their sequences

Each operation on a list that stands for a sequence ends, without a fault, in a list that stands
for the sequence after the same operation.
-/

namespace Upnp.Util

open Upnp.Lib

variable {ι : Type} {h h' : Heap (DblListNode ι)} {a b node m new : Addr}

/-- The link of a node to the next one. -/
def nextLink (h : Heap (DblListNode ι)) (a : Addr) : Option Addr := (h.get a).bind DblListNode.next

/-- The link of a node to the one before. -/
def prevLink (h : Heap (DblListNode ι)) (a : Addr) : Option Addr := (h.get a).bind DblListNode.prev

theorem exists_get (ha : a ∈ h) : ∃ n, h.get a = some n :=
  Option.ne_none_iff_exists'.mp (Heap.mem_iff_get.mp ha)

theorem nextOf_eq (ha : a ∈ h) : nextOf h a = some (nextLink h a) := by
  obtain ⟨n, hn⟩ := exists_get ha
  unfold nextOf nextLink
  rw [hn]
  rfl

theorem prevOf_eq (ha : a ∈ h) : prevOf h a = some (prevLink h a) := by
  obtain ⟨n, hn⟩ := exists_get ha
  unfold prevOf prevLink
  rw [hn]
  rfl

/-- Some links of a heap were written. -/
structure Linked (h h' : Heap (DblListNode ι)) (next prev : Addr → Option Addr) : Prop where
  next_eq : nextLink h' = next
  prev_eq : prevLink h' = prev
  data_eq : dataOf h' = dataOf h
  mem_iff : ∀ a, a ∈ h' ↔ a ∈ h

/-- A node is written with the item it has. -/
theorem linked_insert {n : DblListNode ι} (hn : h.get a = some n) (n' : DblListNode ι)
    (hdata : n'.data = n.data) :
    Linked h (h.insert a n') (Function.update (nextLink h) a n'.next)
      (Function.update (prevLink h) a n'.prev) := by
  refine ⟨?_, ?_, ?_, ?_⟩
  · funext b
    unfold nextLink
    rw [Heap.get_insert, Function.update_apply]
    split <;> rfl
  · funext b
    unfold prevLink
    rw [Heap.get_insert, Function.update_apply]
    split <;> rfl
  · funext b
    unfold dataOf
    rw [Heap.get_insert]
    split
    · rename_i hb
      rw [hb, hn]
      exact hdata
    · rfl
  · intro b
    rw [AList.mem_insert]
    constructor
    · rintro (rfl | hb)
      · exact Heap.mem_of_get hn
      · exact hb
    · exact Or.inr

/-- A link to the next node is written. -/
theorem setNext_spec (ha : a ∈ h) (v : Option Addr) : ∃ h', setNext h a v = some h' ∧
    Linked h h' (Function.update (nextLink h) a v) (prevLink h) := by
  obtain ⟨n, hn⟩ := exists_get ha
  have hlinked := linked_insert hn { n with next := v } rfl
  have hprev : n.prev = prevLink h a := by rw [prevLink, hn, Option.bind_some]
  rw [hprev, Function.update_eq_self] at hlinked
  refine ⟨_, ?_, hlinked⟩
  unfold setNext
  rw [hn, Option.bind_some, ← hprev]
  exact Heap.set_of_get hn _

/-- A link to the node before is written. -/
theorem setPrev_spec (ha : a ∈ h) (v : Option Addr) : ∃ h', setPrev h a v = some h' ∧
    Linked h h' (nextLink h) (Function.update (prevLink h) a v) := by
  obtain ⟨n, hn⟩ := exists_get ha
  have hlinked := linked_insert hn { n with prev := v } rfl
  have hnext : n.next = nextLink h a := by rw [nextLink, hn, Option.bind_some]
  rw [hnext, Function.update_eq_self] at hlinked
  refine ⟨_, ?_, hlinked⟩
  unfold setPrev
  rw [hn, Option.bind_some, ← hnext]
  exact Heap.set_of_get hn _

/-! ## Putting a node in -/

variable {s s' : DblList ι} {t : DblSeq ι} {head tail : Addr}

/-- A node was linked in between two others. -/
structure PutBetween (s s' : DblList ι) (node m new : Addr) : Prop where
  links : Linked s.heap s'.heap
    (Function.update (Function.update (nextLink s.heap) new (some m)) node (some new))
    (Function.update (Function.update (prevLink s.heap) new (some node)) m (some new))
  rest : s' = { s with heap := s'.heap, len := s.len + 1 }

/-- `insertAfter` links a node in behind the one named. -/
theorem insertAfter_spec (hnode : node ∈ s.heap) (hm : m ∈ s.heap) (hnew : new ∈ s.heap)
    (hnext : nextLink s.heap node = some m) (hne : node ≠ new) :
    ∃ s', s.insertAfter node new = some s' ∧ PutBetween s s' node m new := by
  obtain ⟨h₁, e₁, l₁⟩ := setNext_spec hnew (some m)
  obtain ⟨h₂, e₂, l₂⟩ := setPrev_spec ((l₁.mem_iff new).mpr hnew) (some node)
  have hm₂ : m ∈ h₂ := (l₂.mem_iff m).mpr ((l₁.mem_iff m).mpr hm)
  have hnode₂ : node ∈ h₂ := (l₂.mem_iff node).mpr ((l₁.mem_iff node).mpr hnode)
  have hnext₂ : nextLink h₂ node = some m := by
    rw [l₂.next_eq, l₁.next_eq, Function.update_of_ne hne, hnext]
  obtain ⟨h₃, e₃, l₃⟩ := setPrev_spec hm₂ (some new)
  obtain ⟨h₄, e₄, l₄⟩ := setNext_spec ((l₃.mem_iff node).mpr hnode₂) (some new)
  refine ⟨{ s with heap := h₄, len := s.len + 1 }, ?_, ⟨?_, ?_, ?_, ?_⟩, rfl⟩
  · unfold DblList.insertAfter
    simp [nextOf_eq hnode, hnext, e₁, e₂, nextOf_eq hnode₂, hnext₂, e₃, e₄]
  · rw [l₄.next_eq, l₃.next_eq, l₂.next_eq, l₁.next_eq]
  · rw [l₄.prev_eq, l₃.prev_eq, l₂.prev_eq, l₁.prev_eq]
  · rw [l₄.data_eq, l₃.data_eq, l₂.data_eq, l₁.data_eq]
  · intro a
    rw [l₄.mem_iff, l₃.mem_iff, l₂.mem_iff, l₁.mem_iff]

/-- `insertBefore` links a node in before the one named. -/
theorem insertBefore_spec (hnode : node ∈ s.heap) (hm : m ∈ s.heap) (hnew : new ∈ s.heap)
    (hprev : prevLink s.heap m = some node) (hne : m ≠ new) :
    ∃ s', s.insertBefore m new = some s' ∧ PutBetween s s' node m new := by
  obtain ⟨h₁, e₁, l₁⟩ := setNext_spec hnew (some m)
  have hm₁ : m ∈ h₁ := (l₁.mem_iff m).mpr hm
  have hprev₁ : prevLink h₁ m = some node := by rw [l₁.prev_eq, hprev]
  obtain ⟨h₂, e₂, l₂⟩ := setPrev_spec ((l₁.mem_iff new).mpr hnew) (some node)
  have hm₂ : m ∈ h₂ := (l₂.mem_iff m).mpr hm₁
  have hnode₂ : node ∈ h₂ := (l₂.mem_iff node).mpr ((l₁.mem_iff node).mpr hnode)
  have hprev₂ : prevLink h₂ m = some node := by
    rw [l₂.prev_eq, l₁.prev_eq, Function.update_of_ne hne, hprev]
  obtain ⟨h₃, e₃, l₃⟩ := setNext_spec hnode₂ (some new)
  obtain ⟨h₄, e₄, l₄⟩ := setPrev_spec ((l₃.mem_iff m).mpr hm₂) (some new)
  refine ⟨{ s with heap := h₄, len := s.len + 1 }, ?_, ⟨?_, ?_, ?_, ?_⟩, rfl⟩
  · unfold DblList.insertBefore
    simp [e₁, prevOf_eq hm₁, hprev₁, e₂, prevOf_eq hm₂, hprev₂, e₃, e₄]
  · rw [l₄.next_eq, l₃.next_eq, l₂.next_eq, l₁.next_eq]
  · rw [l₄.prev_eq, l₃.prev_eq, l₂.prev_eq, l₁.prev_eq]
  · rw [l₄.data_eq, l₃.data_eq, l₂.data_eq, l₁.data_eq]
  · intro a
    rw [l₄.mem_iff, l₃.mem_iff, l₂.mem_iff, l₁.mem_iff]

/-! ## Lists that stand for sequences -/

/-- The nodes from sentinel to sentinel. -/
def chain (head tail : Addr) (items : List (Addr × ι)) : List Addr :=
  head :: (items.map Prod.fst ++ [tail])

/-- The list stands for the sequence: its links go from sentinel to sentinel both ways, through
the nodes in order; it counts them; and the nodes in memory are those, the callers' and the
sentinels. -/
structure Represents (head tail : Addr) (s : DblList ι) (t : DblSeq ι) : Prop where
  head_eq : s.head = head
  tail_eq : s.tail = tail
  links : DList (nextLink s.heap) (prevLink s.heap) (some head) (chain head tail t.items)
    (some tail)
  nodup : (chain head tail t.items ++ t.own.map Prod.fst).Nodup
  mem_iff : ∀ a, a ∈ s.heap ↔ a ∈ chain head tail t.items ++ t.own.map Prod.fst
  data_eq : ∀ x ∈ t.items ++ t.own, dataOf s.heap x.1 = some x.2
  len_eq : s.len = t.items.length
  destroyed_eq : s.destroyed = t.destroyed
  found_eq : s.found = t.found

/-- The addresses of a sequence are those of the sentinels and the nodes. -/
theorem used_iff {a : Addr} : t.Used head tail a ↔
    a ∈ chain head tail t.items ++ t.own.map Prod.fst := by
  unfold DblSeq.Used chain
  rw [List.cons_append, List.mem_cons, List.mem_append, List.mem_append, List.mem_singleton]
  tauto

/-- A new node is the caller's own. -/
theorem Represents.newNode (hr : Represents head tail s t) (item : ι)
    (hnew : ¬ t.Used head tail new) : ∃ s', s.newNode item new = some s' ∧
      Represents head tail s' { t with own := (new, item) :: t.own } := by
  rw [used_iff] at hnew
  have hfresh : new ∉ s.heap := fun hmem ↦ hnew ((hr.mem_iff new).mp hmem)
  have hget : ∀ b, b ≠ new →
      (s.heap.alloc new ⟨some item, none, none⟩).get b = s.heap.get b := by
    intro b hb
    rw [Heap.get_alloc, if_neg hb]
  have hne : ∀ b ∈ chain head tail t.items ++ t.own.map Prod.fst, b ≠ new := by
    rintro b hb rfl
    exact hnew hb
  refine ⟨_, if_neg hfresh, hr.head_eq, hr.tail_eq, ?_, ?_, ?_, ?_, hr.len_eq, hr.destroyed_eq,
    hr.found_eq⟩
  · refine DSeg.congr hr.links (fun b hb ↦ ?_) fun b hb ↦ ?_
    · rw [nextLink, hget b (hne b (List.mem_append_left _ hb)), nextLink]
    · rw [prevLink, hget b (hne b (List.mem_append_left _ hb)), prevLink]
  · rw [List.map_cons]
    exact List.nodup_middle.mpr (List.nodup_cons.mpr ⟨hnew, hr.nodup⟩)
  · intro b
    rw [List.map_cons, List.mem_append, List.mem_cons, Heap.mem_iff_get, Heap.get_alloc]
    have hmem := hr.mem_iff b
    rw [Heap.mem_iff_get, List.mem_append] at hmem
    split
    · simp [*]
    · simp only [hmem]
      tauto
  · intro x hx
    by_cases hxnew : x = (new, item)
    · rw [hxnew, dataOf, Heap.get_alloc, if_pos rfl]
      rfl
    · have hx' : x ∈ t.items ++ t.own := by
        simp only [List.mem_append, List.mem_cons] at hx ⊢
        tauto
      have hx₁ : x.1 ≠ new := by
        refine hne x.1 ?_
        simp only [chain, List.mem_append, List.mem_cons, List.mem_map] at hx' ⊢
        rcases hx' with hx' | hx'
        · exact .inl (.inr (.inl ⟨x, hx', rfl⟩))
        · exact .inr ⟨x, hx', rfl⟩
      rw [dataOf, hget _ hx₁]
      exact hr.data_eq x hx'

/-- The addresses of a sequence, in another order. -/
theorem chain_perm (head tail : Addr) (items own : List (Addr × ι)) :
    (chain head tail items ++ own.map Prod.fst).Perm
      (head :: tail :: (items ++ own).map Prod.fst) := by
  unfold chain
  rw [List.cons_append, List.append_assoc, List.map_append]
  exact (List.perm_middle).cons head

/-- A node of the caller's is linked in. -/
theorem Represents.put {items own : List (Addr × ι)} {item : ι} {A B : List Addr}
    (hr : Represents head tail s t) (hown : t.own.Perm ((new, item) :: own))
    (hitems : items.Perm ((new, item) :: t.items))
    (hchain : chain head tail t.items = A ++ node :: m :: B)
    (hchain' : chain head tail items = A ++ node :: new :: m :: B)
    (hput : PutBetween s s' node m new) :
    Represents head tail s' { t with items := items, own := own } := by
  have hall : (items ++ own).Perm (t.items ++ t.own) :=
    (hitems.append_right own).trans (List.perm_middle.symm.trans (hown.symm.append_left t.items))
  have hperm : (chain head tail items ++ own.map Prod.fst).Perm
      (chain head tail t.items ++ t.own.map Prod.fst) :=
    (chain_perm head tail items own).trans
      ((((hall.map Prod.fst).cons tail).cons head).trans (chain_perm head tail t.items t.own).symm)
  obtain ⟨hnd, -, hdisj⟩ := List.nodup_append.mp hr.nodup
  have hnew : ∀ y ∈ chain head tail t.items, y ≠ new := by
    intro y hy
    refine hdisj y hy new ?_
    exact (hown.map Prod.fst).mem_iff.mpr List.mem_cons_self
  have hcut : chain head tail t.items = (A ++ [node]) ++ m :: B := by
    rw [hchain, List.append_assoc]
    rfl
  have hlinks := hr.links
  rw [hcut] at hlinks hnd hnew
  have hprev : prevLink s.heap m = some node := by
    rw [hlinks.links.1, List.getLast?_concat]
  have hnode := hnew node (by simp)
  have hm := hnew m (by simp)
  rw [hput.rest]
  refine ⟨hr.head_eq, hr.tail_eq, ?_, ?_, ?_, ?_, ?_, hr.destroyed_eq, hr.found_eq⟩
  · have hfirst : (A ++ [node]).head?.or (some new) = some head := by
      have hhead := hlinks.first_eq
      rw [hhead]
      cases A <;> rfl
    have hinserted : DList (nextLink s'.heap) (prevLink s'.heap)
        ((A ++ [node]).head?.or (some new)) ((A ++ [node]) ++ new :: m :: B) (some tail) := by
      refine hlinks.insert hnd ?_ ?_ ?_ ?_
      · intro y hy
        rw [hput.links.next_eq, hprev, Function.update_apply, Function.update_of_ne (hnew y hy)]
        simp only [Option.some.injEq, eq_comm]
      · intro y hy
        rw [hput.links.prev_eq, Function.update_apply, Function.update_of_ne (hnew y hy)]
      · rw [hput.links.next_eq, Function.update_of_ne hnode.symm, Function.update_self]
      · rw [hput.links.prev_eq, Function.update_of_ne hm.symm, Function.update_self, hprev]
    rw [hfirst, List.append_assoc] at hinserted
    rw [hchain']
    exact hinserted
  · exact hperm.nodup_iff.mpr hr.nodup
  · intro a
    rw [hput.links.mem_iff, hr.mem_iff]
    exact hperm.mem_iff.symm
  · intro x hx
    rw [hput.links.data_eq]
    exact hr.data_eq x (hall.mem_iff.mp hx)
  · have hlength : items.length = t.items.length + 1 := hitems.length_eq
    change s.len + 1 = items.length
    rw [hr.len_eq, hlength]
    omega

/-- The nodes around a place in a list, and their links. -/
theorem Represents.around {A B : List Addr} (hr : Represents head tail s t)
    (hchain : chain head tail t.items = A ++ node :: m :: B) :
    node ∈ s.heap ∧ m ∈ s.heap ∧ nextLink s.heap node = some m ∧ prevLink s.heap m = some node := by
  have hmem : ∀ a ∈ chain head tail t.items, a ∈ s.heap := fun a ha ↦
    (hr.mem_iff a).mpr (List.mem_append_left _ ha)
  have hlinks := hr.links
  rw [hchain] at hmem hlinks
  have hnext := hlinks.links.2
  have hcut : A ++ node :: m :: B = (A ++ [node]) ++ m :: B := by
    rw [List.append_assoc]
    rfl
  rw [hcut] at hlinks
  have hprev := hlinks.links.1
  rw [List.getLast?_concat] at hprev
  exact ⟨hmem node (by simp), hmem m (by simp), hnext, hprev⟩

/-- A node of the caller's is put behind a node, or before the one that follows it. -/
theorem Represents.insert {items own : List (Addr × ι)} {item : ι} {A B : List Addr}
    (hr : Represents head tail s t) (hown : t.own.Perm ((new, item) :: own))
    (hitems : items.Perm ((new, item) :: t.items))
    (hchain : chain head tail t.items = A ++ node :: m :: B)
    (hchain' : chain head tail items = A ++ node :: new :: m :: B) :
    (∃ s', s.insertAfter node new = some s' ∧
        Represents head tail s' { t with items := items, own := own }) ∧
      ∃ s', s.insertBefore m new = some s' ∧
        Represents head tail s' { t with items := items, own := own } := by
  obtain ⟨hnode, hm, hnext, hprev⟩ := hr.around hchain
  obtain ⟨-, -, hdisj⟩ := List.nodup_append.mp hr.nodup
  have hmem : new ∈ t.own.map Prod.fst := (hown.map Prod.fst).mem_iff.mpr List.mem_cons_self
  have hne : ∀ a ∈ chain head tail t.items, a ≠ new := fun a ha ↦ hdisj a ha new hmem
  have hnew : new ∈ s.heap := (hr.mem_iff new).mpr (List.mem_append_right _ hmem)
  rw [hchain] at hne
  constructor
  · obtain ⟨s', hs', hput⟩ := insertAfter_spec hnode hm hnew hnext (hne node (by simp))
    exact ⟨s', hs', hr.put hown hitems hchain hchain' hput⟩
  · obtain ⟨s', hs', hput⟩ := insertBefore_spec hnode hm hnew hprev (hne m (by simp))
    exact ⟨s', hs', hr.put hown hitems hchain hchain' hput⟩

/-! ## Sequences cut at a node -/

variable {items items' : List (Addr × ι)} {x y : Addr × ι}

/-- What is put behind a node that is there. -/
theorem putAfter_spec (hput : putAfter node y items = some items') :
    ∃ l₁ x l₂, items = l₁ ++ x :: l₂ ∧ x.1 = node ∧ items' = l₁ ++ x :: y :: l₂ := by
  induction items generalizing items' with
  | nil => cases hput
  | cons x l ih =>
    rw [putAfter] at hput
    split at hput
    · rename_i hx
      obtain rfl := Option.some.inj hput
      exact ⟨[], x, l, rfl, hx, rfl⟩
    · obtain ⟨l', hl', rfl⟩ := Option.map_eq_some_iff.mp hput
      obtain ⟨l₁, z, l₂, rfl, hz, rfl⟩ := ih hl'
      exact ⟨x :: l₁, z, l₂, rfl, hz, rfl⟩

/-- What is put before a node that is there. -/
theorem putBefore_spec (hput : putBefore node y items = some items') :
    ∃ l₁ x l₂, items = l₁ ++ x :: l₂ ∧ x.1 = node ∧ items' = l₁ ++ y :: x :: l₂ := by
  induction items generalizing items' with
  | nil => cases hput
  | cons x l ih =>
    rw [putBefore] at hput
    split at hput
    · rename_i hx
      obtain rfl := Option.some.inj hput
      exact ⟨[], x, l, rfl, hx, rfl⟩
    · obtain ⟨l', hl', rfl⟩ := Option.map_eq_some_iff.mp hput
      obtain ⟨l₁, z, l₂, rfl, hz, rfl⟩ := ih hl'
      exact ⟨x :: l₁, z, l₂, rfl, hz, rfl⟩

/-- What is taken out was there. -/
theorem takeOut_spec (htake : takeOut node items = some (x, items')) :
    ∃ l₁ l₂, items = l₁ ++ x :: l₂ ∧ x.1 = node ∧ items' = l₁ ++ l₂ := by
  induction items generalizing items' with
  | nil => cases htake
  | cons z l ih =>
    rw [takeOut] at htake
    split at htake
    · rename_i hz
      cases htake
      exact ⟨[], l, rfl, hz, rfl⟩
    · obtain ⟨⟨w, l'⟩, hl', heq⟩ := Option.map_eq_some_iff.mp htake
      cases heq
      obtain ⟨l₁, l₂, rfl, hx, rfl⟩ := ih hl'
      exact ⟨z :: l₁, l₂, rfl, hx, rfl⟩

/-- The chain around a place in the sequence. -/
theorem chain_append (head tail : Addr) (l₁ l₂ : List (Addr × ι)) : ∃ A node m B,
    chain head tail (l₁ ++ l₂) = A ++ node :: m :: B ∧
      (∀ y : Addr × ι, chain head tail (l₁ ++ y :: l₂) = A ++ node :: y.1 :: m :: B) ∧
      (head :: l₁.map Prod.fst).getLast? = some node ∧
      (l₂.map Prod.fst ++ [tail]).head? = some m := by
  obtain ⟨A, node, hA⟩ : ∃ A node, head :: l₁.map Prod.fst = A ++ [node] :=
    ⟨_, _, (List.dropLast_append_getLast (List.cons_ne_nil _ _)).symm⟩
  obtain ⟨m, B, hB⟩ : ∃ m B, l₂.map Prod.fst ++ [tail] = m :: B :=
    List.exists_cons_of_ne_nil (by simp)
  have hchain : ∀ l : List Addr, head :: (l₁.map Prod.fst ++ l) = A ++ node :: l := by
    intro l
    rw [← List.cons_append, hA, List.append_assoc]
    rfl
  refine ⟨A, node, m, B, ?_, fun y ↦ ?_, ?_, ?_⟩
  · rw [chain, List.map_append, List.append_assoc, hB, hchain]
  · rw [chain, List.map_append, List.map_cons, List.append_assoc, List.cons_append, hB, hchain]
  · rw [hA, List.getLast?_concat]
  · rw [hB]
    rfl

section Steps

variable {own l₁ l₂ : List (Addr × ι)} {item : ι}

/-- A node of the caller's is put behind the last of some nodes. -/
theorem Represents.insertAfter (hr : Represents head tail s t)
    (hown : t.own.Perm ((new, item) :: own)) (hitems : t.items = l₁ ++ l₂)
    (hnode : (head :: l₁.map Prod.fst).getLast? = some node) :
    ∃ s', s.insertAfter node new = some s' ∧
      Represents head tail s' { t with items := l₁ ++ (new, item) :: l₂, own := own } := by
  obtain ⟨A, node', m, B, hchain, hchain', hlast, -⟩ :=
    chain_append head tail l₁ l₂
  obtain rfl : node' = node := Option.some.inj (hlast.symm.trans hnode)
  rw [← hitems] at hchain
  refine (hr.insert hown ?_ hchain (hchain' (new, item))).1
  rw [hitems]
  exact List.perm_middle

/-- A node of the caller's is put before the first of some nodes. -/
theorem Represents.insertBefore (hr : Represents head tail s t)
    (hown : t.own.Perm ((new, item) :: own)) (hitems : t.items = l₁ ++ l₂)
    (hm : (l₂.map Prod.fst ++ [tail]).head? = some m) :
    ∃ s', s.insertBefore m new = some s' ∧
      Represents head tail s' { t with items := l₁ ++ (new, item) :: l₂, own := own } := by
  obtain ⟨A, node, m', B, hchain, hchain', -, hfirst⟩ :=
    chain_append head tail l₁ l₂
  obtain rfl : m' = m := Option.some.inj (hfirst.symm.trans hm)
  rw [← hitems] at hchain
  refine (hr.insert hown ?_ hchain (hchain' (new, item))).2
  rw [hitems]
  exact List.perm_middle

/-- A new node is put behind the last of some nodes. -/
theorem Represents.addAfter (hr : Represents head tail s t) (hnew : ¬ t.Used head tail new)
    (item : ι) (hitems : t.items = l₁ ++ l₂)
    (hnode : (head :: l₁.map Prod.fst).getLast? = some node) :
    ∃ s', s.addAfter node item new = some s' ∧
      Represents head tail s' { t with items := l₁ ++ (new, item) :: l₂ } := by
  obtain ⟨s₁, hs₁, hr₁⟩ := hr.newNode item hnew
  obtain ⟨s₂, hs₂, hr₂⟩ := hr₁.insertAfter (List.Perm.refl _) hitems hnode
  refine ⟨s₂, ?_, hr₂⟩
  unfold DblList.addAfter
  rw [hs₁]
  exact hs₂

/-- A new node is put before the first of some nodes. -/
theorem Represents.addBefore (hr : Represents head tail s t) (hnew : ¬ t.Used head tail new)
    (item : ι) (hitems : t.items = l₁ ++ l₂)
    (hm : (l₂.map Prod.fst ++ [tail]).head? = some m) :
    ∃ s', s.addBefore m item new = some s' ∧
      Represents head tail s' { t with items := l₁ ++ (new, item) :: l₂ } := by
  obtain ⟨s₁, hs₁, hr₁⟩ := hr.newNode item hnew
  obtain ⟨s₂, hs₂, hr₂⟩ := hr₁.insertBefore (List.Perm.refl _) hitems hm
  refine ⟨s₂, ?_, hr₂⟩
  unfold DblList.addBefore
  rw [hs₁]
  exact hs₂

/-! ## Taking a node out -/

/-- The node is unlinked, as `remove` does before it frees anything. -/
def unlink (h : Heap (DblListNode ι)) (node : Addr) : Option (Heap (DblListNode ι)) := do
  let before ← prevOf h node
  let h ← setNext h (← before) (← nextOf h node)
  let behind ← nextOf h node
  let h ← setPrev h (← behind) (← prevOf h node)
  let h ← setNext h node none
  setPrev h node none

/-- What is left of the links when a node is unlinked. -/
theorem unlink_spec {b : Addr} (hb : b ∈ h) (hnode : node ∈ h) (hm : m ∈ h)
    (hprev : prevLink h node = some b) (hnext : nextLink h node = some m) (hbn : b ≠ node) :
    ∃ h', unlink h node = some h' ∧
      Linked h h' (Function.update (Function.update (nextLink h) b (some m)) node none)
        (Function.update (Function.update (prevLink h) m (some b)) node none) := by
  obtain ⟨h₁, e₁, l₁⟩ := setNext_spec hb (some m)
  have hnode₁ : node ∈ h₁ := (l₁.mem_iff node).mpr hnode
  have hnext₁ : nextLink h₁ node = some m := by
    rw [l₁.next_eq, Function.update_of_ne hbn.symm, hnext]
  have hprev₁ : prevLink h₁ node = some b := by rw [l₁.prev_eq, hprev]
  obtain ⟨h₂, e₂, l₂⟩ := setPrev_spec ((l₁.mem_iff m).mpr hm) (some b)
  obtain ⟨h₃, e₃, l₃⟩ := setNext_spec ((l₂.mem_iff node).mpr hnode₁) none
  obtain ⟨h₄, e₄, l₄⟩ := setPrev_spec ((l₃.mem_iff node).mpr ((l₂.mem_iff node).mpr hnode₁)) none
  refine ⟨h₄, ?_, ?_, ?_, ?_, ?_⟩
  · unfold unlink
    simp [prevOf_eq hnode, hprev, nextOf_eq hnode, hnext, e₁, nextOf_eq hnode₁, hnext₁,
      prevOf_eq hnode₁, hprev₁, e₂, e₃, e₄]
  · rw [l₄.next_eq, l₃.next_eq, l₂.next_eq, l₁.next_eq]
  · rw [l₄.prev_eq, l₃.prev_eq, l₂.prev_eq, l₁.prev_eq]
  · rw [l₄.data_eq, l₃.data_eq, l₂.data_eq, l₁.data_eq]
  · intro a
    rw [l₄.mem_iff, l₃.mem_iff, l₂.mem_iff, l₁.mem_iff]

/-- `remove`, in two parts. -/
theorem remove_eq (s : DblList ι) (node : Addr) (freeNodeMemory : Bool) :
    s.remove node freeNodeMemory = (unlink s.heap node).bind fun h ↦
      if freeNodeMemory then (dataOf h node).bind fun item ↦ (h.free node).map fun h ↦
        { s with heap := h, len := s.len - 1, destroyed := s.destroyed ++ [item] }
      else some { s with heap := h, len := s.len - 1 } := by
  unfold DblList.remove unlink
  simp only [Option.bind_eq_bind, Option.bind_assoc, Option.pure_def, Option.map_eq_bind]
  rfl

/-- An unlinked node is the caller's. -/
theorem Represents.unlink (hr : Represents head tail s t) {x : Addr × ι}
    (hitems : t.items = l₁ ++ x :: l₂) : ∃ h', unlink s.heap x.1 = some h' ∧
      Represents head tail { s with heap := h', len := s.len - 1 }
        { t with items := l₁ ++ l₂, own := x :: t.own } := by
  have hchain : chain head tail t.items =
      (head :: l₁.map Prod.fst) ++ x.1 :: (l₂.map Prod.fst ++ [tail]) := by
    rw [hitems, chain, List.map_append, List.map_cons, List.append_assoc]
    rfl
  have hchain' : chain head tail (l₁ ++ l₂) =
      (head :: l₁.map Prod.fst) ++ (l₂.map Prod.fst ++ [tail]) := by
    rw [chain, List.map_append, List.append_assoc]
    rfl
  have hlinks := hr.links
  have hmem : ∀ a ∈ chain head tail t.items, a ∈ s.heap := fun a ha ↦
    (hr.mem_iff a).mpr (List.mem_append_left _ ha)
  have hnd := (List.nodup_append.mp hr.nodup).1
  rw [hchain] at hlinks hmem hnd
  obtain ⟨hprev, hnext⟩ := hlinks.links
  obtain ⟨b, hb⟩ : ∃ b, (head :: l₁.map Prod.fst).getLast? = some b :=
    ⟨_, List.getLast?_eq_some_getLast (List.cons_ne_nil _ _)⟩
  obtain ⟨m, hm⟩ : ∃ m, (l₂.map Prod.fst ++ [tail]).head? = some m :=
    ⟨_, List.head?_eq_some_head (by simp)⟩
  have hbmem := List.mem_of_mem_getLast? hb
  have hmmem := List.mem_of_mem_head? hm
  obtain ⟨hx, hnd'⟩ := List.nodup_cons.mp (List.nodup_middle.mp hnd)
  have hne : ∀ y ∈ (head :: l₁.map Prod.fst) ++ (l₂.map Prod.fst ++ [tail]), y ≠ x.1 := by
    rintro y hy rfl
    exact hx hy
  rw [hb] at hprev
  rw [hm] at hnext
  obtain ⟨h', hunlink, hlinked⟩ := unlink_spec (hmem b (List.mem_append_left _ hbmem))
    (hmem x.1 (by simp)) (hmem m (List.mem_append_right _ (List.mem_cons_of_mem _ hmmem))) hprev
    hnext (hne b (List.mem_append_left _ hbmem))
  have hall : (l₁ ++ l₂ ++ x :: t.own).Perm (t.items ++ t.own) := by
    rw [hitems]
    exact List.perm_middle.trans (List.perm_middle.symm.append_right t.own)
  have hperm : (chain head tail (l₁ ++ l₂) ++ (x :: t.own).map Prod.fst).Perm
      (chain head tail t.items ++ t.own.map Prod.fst) :=
    (chain_perm head tail (l₁ ++ l₂) (x :: t.own)).trans
      ((((hall.map Prod.fst).cons tail).cons head).trans (chain_perm head tail t.items t.own).symm)
  refine ⟨h', hunlink, hr.head_eq, hr.tail_eq, ?_, hperm.nodup_iff.mpr hr.nodup, ?_, ?_, ?_,
    hr.destroyed_eq, hr.found_eq⟩
  · have hremoved : DList (nextLink h') (prevLink h')
        ((head :: l₁.map Prod.fst).head?.or (nextLink s.heap x.1))
        ((head :: l₁.map Prod.fst) ++ (l₂.map Prod.fst ++ [tail]))
        ((l₂.map Prod.fst ++ [tail]).getLast?.or (prevLink s.heap x.1)) := by
      refine hlinks.remove hnd ?_ ?_
      · intro y hy
        rw [hlinked.next_eq, Function.update_of_ne (hne y hy), Function.update_apply, hprev, hnext]
        simp only [Option.some.injEq, eq_comm]
      · intro y hy
        rw [hlinked.prev_eq, Function.update_of_ne (hne y hy), Function.update_apply, hprev, hnext]
        simp only [Option.some.injEq, eq_comm]
    rw [List.getLast?_concat] at hremoved
    change DList (nextLink h') (prevLink h') (some head) (chain head tail (l₁ ++ l₂)) (some tail)
    rw [hchain']
    exact hremoved
  · intro a
    rw [hlinked.mem_iff, hr.mem_iff]
    exact hperm.mem_iff.symm
  · intro y hy
    change dataOf h' y.1 = some y.2
    rw [hlinked.data_eq]
    exact hr.data_eq y (hall.mem_iff.mp hy)
  · change s.len - 1 = ((l₁ ++ l₂).length : Int)
    rw [hr.len_eq, hitems, List.length_append, List.length_append, List.length_cons]
    omega

/-- A node of the caller's is freed. -/
theorem Represents.free (hr : Represents head tail s t) {x : Addr × ι} (hown : t.own = x :: own) :
    ∃ h', dataOf s.heap x.1 = some x.2 ∧ s.heap.free x.1 = some h' ∧ Represents head tail
      { s with heap := h', destroyed := s.destroyed ++ [x.2] }
      { t with own := own, destroyed := t.destroyed ++ [x.2] } := by
  have hnd := hr.nodup
  have hmem := hr.mem_iff
  have hdata := hr.data_eq
  rw [hown, List.map_cons] at hnd
  rw [hown] at hmem hdata
  obtain ⟨hx, hnd'⟩ := List.nodup_cons.mp (List.nodup_middle.mp hnd)
  have hxmem : x.1 ∈ s.heap := (hmem x.1).mpr (by simp)
  have hget : ∀ b, b ≠ x.1 → Heap.get (s.heap.erase x.1) b = s.heap.get b := by
    intro b hb
    rw [Heap.get_erase, if_neg hb]
  have hne : ∀ b ∈ chain head tail t.items ++ own.map Prod.fst, b ≠ x.1 := by
    rintro b hb rfl
    exact hx hb
  refine ⟨s.heap.erase x.1, hdata x (by simp), if_pos hxmem, hr.head_eq, hr.tail_eq, ?_, hnd', ?_,
    ?_, hr.len_eq, ?_, hr.found_eq⟩
  · refine DSeg.congr hr.links (fun b hb ↦ ?_) fun b hb ↦ ?_
    · rw [nextLink, hget b (hne b (List.mem_append_left _ hb)), nextLink]
    · rw [prevLink, hget b (hne b (List.mem_append_left _ hb)), prevLink]
  · intro b
    rw [AList.mem_erase, hmem b, List.map_cons, List.mem_append, List.mem_append, List.mem_cons]
    constructor
    · rintro ⟨hb, hb'⟩
      tauto
    · intro hb
      have hb' := hne b (List.mem_append.mpr hb)
      tauto
  · intro y hy
    have hy₁ : y.1 ≠ x.1 := by
      refine hne y.1 ?_
      simp only [chain, List.mem_append, List.mem_cons, List.mem_map] at hy ⊢
      rcases hy with hy | hy
      · exact .inl (.inr (.inl ⟨y, hy, rfl⟩))
      · exact .inr ⟨y, hy, rfl⟩
    change dataOf (s.heap.erase x.1) y.1 = _
    rw [dataOf, hget _ hy₁]
    refine hdata y ?_
    simp only [List.mem_append, List.mem_cons] at hy ⊢
    tauto
  · exact congrArg (· ++ [x.2]) hr.destroyed_eq

/-- A node of the list is taken out: it becomes the caller's, or it is freed with its item. -/
theorem Represents.remove (hr : Represents head tail s t) {x : Addr × ι}
    (hitems : t.items = l₁ ++ x :: l₂) (freeNodeMemory : Bool) :
    ∃ s', s.remove x.1 freeNodeMemory = some s' ∧ Represents head tail s'
      (if freeNodeMemory then
        { t with items := l₁ ++ l₂, destroyed := t.destroyed ++ [x.2] }
      else { t with items := l₁ ++ l₂, own := x :: t.own }) := by
  obtain ⟨h', hunlink, hr'⟩ := hr.unlink hitems
  rw [remove_eq, hunlink, Option.bind_some]
  cases freeNodeMemory with
  | false => exact ⟨_, rfl, hr'⟩
  | true =>
    obtain ⟨h'', hdata, hfree, hr''⟩ := hr'.free rfl
    refine ⟨_, ?_, hr''⟩
    change (dataOf h' x.1).bind _ = _
    have hfree : h'.free x.1 = some h'' := hfree
    have hdata : dataOf h' x.1 = some x.2 := hdata
    rw [hdata, Option.bind_some, hfree]
    rfl

/-- What `remove` frees: the node named and no other. -/
theorem Represents.remove_frees (hr : Represents head tail s t)
    (hmem : node ∈ t.items.map Prod.fst) :
    ∃ s', s.remove node true = some s' ∧ ∀ a, a ∈ s'.heap ↔ a ∈ s.heap ∧ a ≠ node := by
  obtain ⟨x, hx, rfl⟩ := List.mem_map.mp hmem
  obtain ⟨l₁, l₂, hcut⟩ := List.append_of_mem hx
  obtain ⟨s', hs', hr'⟩ := hr.remove hcut true
  refine ⟨s', hs', fun a ↦ ?_⟩
  have hperm : (chain head tail t.items ++ t.own.map Prod.fst).Perm
      (x.1 :: (chain head tail (l₁ ++ l₂) ++ t.own.map Prod.fst)) := by
    rw [hcut, chain, chain, List.map_append, List.map_cons, List.map_append, List.append_assoc,
      List.append_assoc, ← List.cons_append, ← List.cons_append]
    exact (List.perm_middle).append_right _
  have hx := (List.nodup_cons.mp (hperm.nodup_iff.mp hr.nodup)).1
  rw [hr'.mem_iff, hr.mem_iff, hperm.mem_iff, List.mem_cons]
  change a ∈ chain head tail (l₁ ++ l₂) ++ t.own.map Prod.fst ↔ _
  constructor
  · intro ha
    refine ⟨.inr ha, ?_⟩
    rintro rfl
    exact hx ha
  · rintro ⟨rfl | ha, hne⟩
    · exact absurd rfl hne
    · exact ha

/-! ## Walks -/

/-- The nodes of the list fit into the memory. -/
theorem Represents.length_lt (hr : Represents head tail s t) : t.items.length < s.heap.size := by
  have hnd := (List.nodup_append.mp hr.nodup).1
  have hsub : chain head tail t.items ⊆ s.heap.keys := fun a ha ↦
    AList.mem_keys.mp ((hr.mem_iff a).mpr (List.mem_append_left _ ha))
  have hle := (List.subperm_of_subset hnd hsub).length_le
  have hlength : (chain head tail t.items).length = t.items.length + 2 := by
    rw [chain, List.length_cons, List.length_append, List.length_map, List.length_singleton]
  unfold Heap.size
  omega

/-- What follows the sentinel or a node. -/
theorem Represents.nextOf (hr : Represents head tail s t) (hitems : t.items = l₁ ++ l₂)
    (hnode : (head :: l₁.map Prod.fst).getLast? = some node) :
    nextOf s.heap node = some (l₂.map Prod.fst ++ [tail]).head? := by
  obtain ⟨A, node', m, B, hchain, -, hlast, hfirst⟩ := chain_append head tail l₁ l₂
  obtain rfl : node' = node := Option.some.inj (hlast.symm.trans hnode)
  rw [← hitems] at hchain
  obtain ⟨hmem, -, hnext, -⟩ := hr.around hchain
  rw [nextOf_eq hmem, hnext, hfirst]

/-- The sentinel at the end is no node of the list. -/
theorem Represents.ne_tail (hr : Represents head tail s t) {x : Addr × ι} (hx : x ∈ t.items) :
    x.1 ≠ tail := by
  have hnd := (List.nodup_append.mp hr.nodup).1
  obtain ⟨-, -, hdisj⟩ := List.nodup_append.mp (List.nodup_cons.mp hnd).2
  exact hdisj x.1 (List.mem_map_of_mem hx) tail (List.mem_singleton.mpr rfl)

/-- What comes after a place, without the sentinel. -/
theorem Represents.behind (hr : Represents head tail s t) (hitems : t.items = l₁ ++ l₂) :
    (if (l₂.map Prod.fst ++ [tail]).head? = some tail then none
      else (l₂.map Prod.fst ++ [tail]).head?) = (l₂.map Prod.fst).head? := by
  cases l₂ with
  | nil => exact if_pos rfl
  | cons x l₂ =>
    have hx : x ∈ t.items := by simp [hitems]
    refine if_neg fun heq ↦ ?_
    exact hr.ne_tail hx (Option.some.inj heq)

/-- What follows the sentinel at the start. -/
theorem Represents.first (hr : Represents head tail s t) :
    Util.nextOf s.heap head = some (t.items.map Prod.fst ++ [tail]).head? :=
  hr.nextOf (List.nil_append t.items).symm rfl

/-- `getFirstItem` gives the first node. -/
theorem Represents.getFirstItem (hr : Represents head tail s t) :
    s.getFirstItem = some (t.items.map Prod.fst).head? := by
  have hbehind := hr.behind (List.nil_append t.items).symm
  unfold DblList.getFirstItem
  rw [hr.head_eq, hr.tail_eq, hr.first]
  exact congrArg some hbehind

/-- `next` gives the node behind. -/
theorem Represents.next (hr : Represents head tail s t) {x : Addr × ι}
    (hitems : t.items = l₁ ++ x :: l₂) : s.next (some x.1) = some (l₂.map Prod.fst).head? := by
  have hcut : t.items = (l₁ ++ [x]) ++ l₂ := by
    rw [hitems, List.append_assoc]
    rfl
  have hlast : (head :: (l₁ ++ [x]).map Prod.fst).getLast? = some x.1 := by
    rw [List.map_append, ← List.cons_append]
    exact List.getLast?_concat
  have hlen : s.len ≠ 0 := by
    rw [hr.len_eq, hitems, List.length_append, List.length_cons]
    omega
  have hnext := hr.nextOf hcut hlast
  have hbehind := hr.behind hcut
  unfold DblList.next
  rw [if_neg hlen]
  change ((Util.nextOf s.heap x.1).bind fun behind ↦ some _) = _
  rw [hr.tail_eq, hnext]
  exact congrArg some hbehind

/-- `removeAll` takes out all nodes in order. -/
theorem Represents.removeAllLoop (freeNodeMemory : Bool) (fuel : Nat)
    (hr : Represents head tail s t) (hfuel : t.items.length < fuel) :
    ∃ s', DblList.removeAllLoop freeNodeMemory fuel s = some s' ∧ Represents head tail s'
      (if freeNodeMemory then
        { t with items := [], destroyed := t.destroyed ++ t.items.map Prod.snd }
      else { t with items := [], own := t.items.reverse ++ t.own }) := by
  induction fuel generalizing s t with
  | zero => exact absurd hfuel (Nat.not_lt_zero _)
  | succ fuel ih =>
    unfold DblList.removeAllLoop
    rw [hr.head_eq, hr.tail_eq, hr.first]
    cases hitems : t.items with
    | nil =>
      refine ⟨s, if_pos rfl, ?_⟩
      have hsame : t = { t with items := [] } := by rw [← hitems]
      rw [hsame] at hr
      cases freeNodeMemory <;> simpa using hr
    | cons x l =>
      have hx : x.1 ≠ tail := hr.ne_tail (by simp [hitems])
      have hcut : t.items = [] ++ x :: l := hitems
      obtain ⟨s₁, hs₁, hr₁⟩ := hr.remove hcut freeNodeMemory
      have hlt : l.length < fuel := by
        rw [hitems] at hfuel
        exact Nat.lt_of_succ_lt_succ hfuel
      change ∃ s', (if some x.1 = some tail then some s
        else (s.remove x.1 freeNodeMemory).bind (DblList.removeAllLoop freeNodeMemory fuel)) =
          some s' ∧ _
      rw [if_neg (mt Option.some.inj hx), hs₁, Option.bind_some]
      cases freeNodeMemory with
      | true =>
        obtain ⟨s', hs', hr'⟩ := ih hr₁ hlt
        refine ⟨s', hs', ?_⟩
        simpa using hr'
      | false =>
        obtain ⟨s', hs', hr'⟩ := ih hr₁ hlt
        refine ⟨s', hs', ?_⟩
        simpa using hr'

/-- The empty list stands for the empty sequence. -/
theorem represents_empty (hne : head ≠ tail) :
    Represents head tail (DblList.empty head tail : DblList ι) DblSeq.empty := by
  have hget : ∀ a, (DblList.empty head tail : DblList ι).heap.get a =
      if a = tail then some ⟨none, none, some head⟩
      else if a = head then some ⟨none, some tail, none⟩ else none := by
    intro a
    change (Heap.alloc (Heap.alloc ∅ head _) tail _).get a = _
    rw [Heap.get_alloc, Heap.get_alloc]
    rfl
  refine ⟨rfl, rfl, ⟨rfl, ?_, ?_⟩, ?_, ?_, ?_, rfl, rfl, rfl⟩
  · rw [prevLink, hget, if_neg hne, if_pos rfl]
    rfl
  · rw [nextLink, hget, if_neg hne, if_pos rfl]
    refine ⟨rfl, ?_, ?_, rfl⟩
    · rw [prevLink, hget, if_pos rfl]
      rfl
    · rw [nextLink, hget, if_pos rfl]
      rfl
  · exact List.nodup_cons.mpr ⟨by simpa [DblSeq.empty] using hne, List.nodup_singleton tail⟩
  · intro a
    rw [Heap.mem_iff_get, hget]
    change _ ↔ a ∈ [head, tail]
    rw [List.mem_cons, List.mem_singleton]
    split
    · simp [*]
    · split <;> simp [*]
  · intro x hx
    cases hx

/-! ## Steps of sequences -/

/-- A new node is put into a sequence at an address not in use. -/
theorem add_eq_some {items : Option (List (Addr × ι))} {t' : DblSeq ι}
    (h : t.add head tail new items = some t') :
    ¬ t.Used head tail new ∧ ∃ items', items = some items' ∧ t' = { t with items := items' } := by
  unfold DblSeq.add at h
  split at h
  · cases h
  · rename_i hnew
    obtain ⟨items', hitems, rfl⟩ := Option.map_eq_some_iff.mp h
    exact ⟨hnew, items', hitems, rfl⟩

/-- A node that is put into a sequence was the caller's. -/
theorem insert_eq_some {put : Addr × ι → List (Addr × ι) → Option (List (Addr × ι))}
    {t' : DblSeq ι} (h : t.insert new put = some t') :
    ∃ item own items', t.own.Perm ((new, item) :: own) ∧ put (new, item) t.items = some items' ∧
      t' = { t with items := items', own := own } := by
  obtain ⟨⟨x, own⟩, htake, hput⟩ := Option.bind_eq_some_iff.mp h
  obtain ⟨items', hitems, rfl⟩ := Option.map_eq_some_iff.mp hput
  obtain ⟨l₁, l₂, hown, hx, rfl⟩ := takeOut_spec htake
  obtain ⟨a, item⟩ := x
  obtain rfl : a = new := hx
  refine ⟨item, l₁ ++ l₂, items', ?_, hitems, rfl⟩
  rw [hown]
  exact List.perm_middle

/-- The last of some nodes that end in one. -/
theorem getLast?_chain (head : Addr) (l : List (Addr × ι)) (x : Addr × ι) :
    (head :: (l ++ [x]).map Prod.fst).getLast? = some x.1 := by
  rw [List.map_append, ← List.cons_append]
  exact List.getLast?_concat

variable [DecidableEq ι]

/-- The loop of `find`, from a place on. -/
theorem Represents.findLoop (compareItems : Option (ι → ι → Bool)) (item : ι)
    (hr : Represents head tail s t) (fuel : Nat) (hitems : t.items = l₁ ++ l₂)
    (hfuel : l₂.length < fuel) :
    DblList.findLoop compareItems s item fuel (l₂.map Prod.fst).head? =
      some ((l₂.find? fun x ↦ DblList.matchesItem compareItems x.2 item).map Prod.fst) := by
  induction l₂ generalizing l₁ fuel with
  | nil =>
    obtain ⟨fuel, rfl⟩ := Nat.exists_eq_add_one_of_ne_zero (Nat.ne_of_gt hfuel)
    rfl
  | cons x l₂ ih =>
    obtain ⟨fuel, rfl⟩ := Nat.exists_eq_add_one_of_ne_zero (Nat.ne_of_gt (Nat.zero_lt_of_lt hfuel))
    have hdata := hr.data_eq x (by simp [hitems])
    change ((dataOf s.heap x.1).bind fun data ↦ _) = _
    rw [hdata, Option.bind_some, List.find?_cons]
    cases hmatch : DblList.matchesItem compareItems x.2 item with
    | true => exact if_pos rfl
    | false =>
      have hcut : t.items = (l₁ ++ [x]) ++ l₂ := by
        rw [hitems, List.append_assoc]
        rfl
      refine (if_neg Bool.false_ne_true).trans ?_
      rw [hr.next hitems]
      exact ih fuel hcut (Nat.lt_of_succ_lt_succ hfuel)

/-- `find` returns the first node whose item matches. -/
theorem Represents.find (compareItems : Option (ι → ι → Bool)) (item : ι)
    (hr : Represents head tail s t) : s.find compareItems item =
      some ((t.items.find? fun x ↦ DblList.matchesItem compareItems x.2 item).map Prod.fst) := by
  unfold DblList.find
  rw [hr.getFirstItem]
  exact hr.findLoop compareItems item s.heap.size (List.nil_append t.items).symm hr.length_lt

/-! ## Runs -/

/-- **Each operation that a sequence allows ends on a list that stands for it, without a fault, in
a list that stands for the sequence after the operation.** -/
theorem Represents.step {compareItems : Option (ι → ι → Bool)} {op : DblOp ι} {t' : DblSeq ι}
    (hr : Represents head tail s t) (hstep : DblSeq.step compareItems head tail t op = some t') :
    ∃ s', DblList.step compareItems s op = some s' ∧ Represents head tail s' t' := by
  cases op with
  | newNode item new =>
    rw [DblSeq.step] at hstep
    split at hstep
    · cases hstep
    · rename_i hnew
      cases hstep
      exact hr.newNode item hnew
  | addBeforeHead item new =>
    obtain ⟨hnew, items', hitems, rfl⟩ := add_eq_some hstep
    obtain rfl := Option.some.inj hitems
    obtain ⟨s', hs', hr'⟩ := hr.addAfter hnew item (List.nil_append t.items).symm rfl
    refine ⟨s', ?_, hr'⟩
    rw [DblList.step, DblList.addBeforeHead, hr.head_eq]
    exact hs'
  | addAfterTail item new =>
    obtain ⟨hnew, items', hitems, rfl⟩ := add_eq_some hstep
    obtain rfl := Option.some.inj hitems
    obtain ⟨s', hs', hr'⟩ := hr.addBefore hnew item (List.append_nil t.items).symm rfl
    refine ⟨s', ?_, hr'⟩
    rw [DblList.step, DblList.addAfterTail, hr.tail_eq]
    exact hs'
  | addAfter node item new =>
    obtain ⟨hnew, items', hitems, rfl⟩ := add_eq_some hstep
    obtain ⟨l₁, x, l₂, hcut, rfl, rfl⟩ := putAfter_spec hitems
    rw [List.append_cons] at hcut
    have hadded := hr.addAfter hnew item hcut (getLast?_chain head l₁ x)
    rw [← List.append_cons] at hadded
    exact hadded
  | addBefore node item new =>
    obtain ⟨hnew, items', hitems, rfl⟩ := add_eq_some hstep
    obtain ⟨l₁, x, l₂, hcut, rfl, rfl⟩ := putBefore_spec hitems
    exact hr.addBefore hnew item hcut rfl
  | insertAfter node newNode =>
    obtain ⟨item, own, items', hown, hitems, rfl⟩ := insert_eq_some hstep
    obtain ⟨l₁, x, l₂, hcut, rfl, rfl⟩ := putAfter_spec hitems
    rw [List.append_cons] at hcut
    have hinserted := hr.insertAfter hown hcut (getLast?_chain head l₁ x)
    rw [← List.append_cons] at hinserted
    exact hinserted
  | insertBefore node newNode =>
    obtain ⟨item, own, items', hown, hitems, rfl⟩ := insert_eq_some hstep
    obtain ⟨l₁, x, l₂, hcut, rfl, rfl⟩ := putBefore_spec hitems
    exact hr.insertBefore hown hcut rfl
  | remove node freeNodeMemory =>
    obtain ⟨⟨x, items'⟩, htake, rfl⟩ := Option.map_eq_some_iff.mp hstep
    obtain ⟨l₁, l₂, hcut, rfl, rfl⟩ := takeOut_spec htake
    exact hr.remove hcut freeNodeMemory
  | removeAll freeNodeMemory =>
    obtain ⟨s', hs', hr'⟩ := hr.removeAllLoop freeNodeMemory s.heap.size hr.length_lt
    refine ⟨s', hs', ?_⟩
    rw [DblSeq.step] at hstep
    cases freeNodeMemory <;> cases hstep <;> exact hr'
  | find item =>
    cases hstep
    have hfind := hr.find compareItems item
    refine ⟨{ s with found := s.found ++ [(t.items.find? fun x ↦
      DblList.matchesItem compareItems x.2 item).map Prod.fst] }, ?_, ?_⟩
    · rw [DblList.step, hfind]
      rfl
    · exact ⟨hr.head_eq, hr.tail_eq, hr.links, hr.nodup, hr.mem_iff, hr.data_eq, hr.len_eq,
        hr.destroyed_eq, congrArg (· ++ [_]) hr.found_eq⟩

/-- A run of a sequence is followed by a list that stands for it. -/
theorem Represents.run {compareItems : Option (ι → ι → Bool)} {t' : DblSeq ι}
    (hr : Represents head tail s t) (ops : List (DblOp ι))
    (hrun : (dblSeq compareItems head tail).run t ops = some t') :
    ∃ s', (dblList compareItems head tail).run s ops = some s' ∧ Represents head tail s' t' := by
  induction ops generalizing s t with
  | nil =>
    cases hrun
    exact ⟨s, rfl, hr⟩
  | cons op ops ih =>
    obtain ⟨t₁, ht₁, hrest⟩ := Option.bind_eq_some_iff.mp hrun
    obtain ⟨s₁, hs₁, hr₁⟩ := hr.step ht₁
    obtain ⟨s', hs', hr'⟩ := ih hr₁ hrest
    refine ⟨s', ?_, hr'⟩
    rw [Machine.run_cons]
    exact Option.bind_eq_some_iff.mpr ⟨s₁, hs₁, hs'⟩

/-- **A list stands for the sequence after the same operations.**  Whatever the operations on the
nodes of the list are, none of them faults; the links lead from sentinel to sentinel both ways
through the nodes of the sequence, with their items; the count is the number of items; `find` gave
what is first in the sequence; and `remove` frees the node named and no other. -/
theorem run_represents (compareItems : Option (ι → ι → Bool)) (hne : head ≠ tail)
    (ops : List (DblOp ι)) {t : DblSeq ι}
    (hrun : (dblSeq compareItems head tail).run DblSeq.empty ops = some t) :
    ∃ s, (dblList compareItems head tail).run (DblList.empty head tail) ops = some s ∧
      Represents head tail s t ∧
      ∀ node ∈ t.items.map Prod.fst, ∃ s', s.remove node true = some s' ∧
        ∀ a, a ∈ s'.heap ↔ a ∈ s.heap ∧ a ≠ node := by
  obtain ⟨s, hs, hr⟩ := (represents_empty hne).run ops hrun
  exact ⟨s, hs, hr, fun node hnode ↦ hr.remove_frees hnode⟩

/-- A node put behind the last, one before the first, and the last taken out and freed. -/
theorem run_represents_example :
    ∃ s, (dblList none 1 2).run (DblList.empty 1 2)
        [.addAfterTail 'a' 3, .addBeforeHead 'b' 4, .find 'a', .remove 3 true] = some s ∧
      Represents 1 2 s ⟨[(4, 'b')], [], ['a'], [some 3]⟩ ∧
      ∀ node ∈ [4], ∃ s', s.remove node true = some s' ∧
        ∀ a, a ∈ s'.heap ↔ a ∈ s.heap ∧ a ≠ node :=
  run_represents none (by decide) _ rfl

end Steps

end Upnp.Util
