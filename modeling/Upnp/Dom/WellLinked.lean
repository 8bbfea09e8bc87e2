import Mathlib.Data.List.Perm.Subperm
import Mathlib.Logic.Relation
import Upnp.Dom.NodeAct
import Upnp.Lib.DoublyLinked

/-!
# Well linked documents

Every node has a list of children and a list of attributes.  In a well linked
store the siblings in each list are linked both ways, each node is in the list
of its parent and in no other, and no node is its own ancestor.  The searches of
`NodeAct.cpp` end in such a store.
-/

namespace Upnp.Dom

open Upnp.Lib

/-- The lists of a node. -/
inductive Side where
  | child
  | attr
deriving DecidableEq, Repr

namespace NodeAct

/-- The list that a node is put into. -/
def side (x : NodeAct) : Side := if x.nodeType = .ATTRIBUTE_NODE then .attr else .child

/-- `FirstChild` or `FirstAttr`. -/
def first (x : NodeAct) : Side → Option Addr
  | .child => x.firstChild
  | .attr => x.firstAttr

/-- `LastChild` or `LastAttr`. -/
def last (x : NodeAct) : Side → Option Addr
  | .child => x.lastChild
  | .attr => x.lastAttr

end NodeAct

namespace Store

/-- `NextSibling`. -/
def next (d : Store) (a : Addr) : Option Addr := (d.get a).bind (·.nextSibling)

/-- `PrevSibling`. -/
def prev (d : Store) (a : Addr) : Option Addr := (d.get a).bind (·.prevSibling)

/-- `ParentNode`. -/
def parent (d : Store) (a : Addr) : Option Addr := (d.get a).bind (·.parentNode)

/-- `a` is the parent of `b`. -/
def IsParent (d : Store) (a b : Addr) : Prop := d.parent b = some a

/-- The links are those of documents in which node `a` has the lists `L · a`. -/
structure WellLinked (d : Store) (L : Side → Addr → List Addr) : Prop where
  /-- Each list is linked both ways, from the first to the last node. -/
  list : ∀ s a x, d.get a = some x → DList d.next d.prev (x.first s) (L s a) (x.last s)
  nodup : ∀ s a, (L s a).Nodup
  /-- A node is in the list of its parent, and in no other. -/
  mem : ∀ s a c, c ∈ L s a ↔ ∃ y, d.get c = some y ∧ y.parentNode = some a ∧ y.side = s
  parent_mem : ∀ a c, d.parent c = some a → a ∈ d.nodes
  acyclic : ∀ a, ¬ Relation.TransGen d.IsParent a a
  owner_mem : ∀ a x, d.get a = some x → x.ownerNode ∈ d.nodes

variable {d d' : Store} {L L' : Side → Addr → List Addr} {s : Side} {a b c p : Addr}
  {x y : NodeAct}

theorem mem_of_get (h : d.get a = some x) : a ∈ d.nodes := Heap.mem_of_get h

theorem exists_get (h : a ∈ d.nodes) : ∃ x, d.get a = some x :=
  Option.ne_none_iff_exists'.mp (Heap.mem_iff_get.mp h)

/-- As `WellLinked`, without the links from a node to the ends of its lists. -/
structure Linked (d : Store) (L : Side → Addr → List Addr) : Prop where
  list : ∀ s a, DList d.next d.prev (L s a).head? (L s a) (L s a).getLast?
  nodup : ∀ s a, (L s a).Nodup
  mem : ∀ s a c, c ∈ L s a ↔ ∃ y, d.get c = some y ∧ y.parentNode = some a ∧ y.side = s
  parent_mem : ∀ a c, d.parent c = some a → a ∈ d.nodes
  acyclic : ∀ a, ¬ Relation.TransGen d.IsParent a a
  owner_mem : ∀ a x, d.get a = some x → x.ownerNode ∈ d.nodes

/-- `FirstChild` or `FirstAttr` is the first node of the list. -/
def FirstLink (d : Store) (L : Side → Addr → List Addr) (s : Side) (a : Addr) : Prop :=
  ∀ x, d.get a = some x → x.first s = (L s a).head?

/-- `LastChild` or `LastAttr` is the last node of the list. -/
def LastLink (d : Store) (L : Side → Addr → List Addr) (s : Side) (a : Addr) : Prop :=
  ∀ x, d.get a = some x → x.last s = (L s a).getLast?

namespace Linked

theorem mem_nodes (h : d.Linked L) (hc : c ∈ L s a) : c ∈ d.nodes := by
  obtain ⟨y, hy, -⟩ := (h.mem s a c).mp hc
  exact mem_of_get hy

theorem parent_eq (h : d.Linked L) (hc : c ∈ L s a) : d.parent c = some a := by
  obtain ⟨y, hy, hp, -⟩ := (h.mem s a c).mp hc
  rw [parent, hy]
  exact hp

/-- No node is in two lists. -/
theorem place_eq (h : d.Linked L) {s' : Side} {a' : Addr} (hc : c ∈ L s a)
    (hc' : c ∈ L s' a') : s = s' ∧ a = a' := by
  obtain ⟨y, hy, hp, hs⟩ := (h.mem s a c).mp hc
  obtain ⟨y', hy', hp', hs'⟩ := (h.mem s' a' c).mp hc'
  obtain rfl := Option.some.inj (hy.symm.trans hy')
  exact ⟨hs.symm.trans hs', Option.some.inj (hp.symm.trans hp')⟩

theorem length_le (h : d.Linked L) (s : Side) (a : Addr) : (L s a).length ≤ d.nodes.size :=
  (List.Nodup.subperm (h.nodup s a) fun _ hc ↦ h.mem_nodes hc).length_le

theorem nil_of_notMem (h : d.Linked L) (ha : a ∉ d.nodes) (s : Side) : L s a = [] := by
  refine List.eq_nil_iff_forall_not_mem.mpr fun c hc ↦ ha ?_
  exact h.parent_mem a c (h.parent_eq hc)

theorem wellLinked (h : d.Linked L) (hfirst : ∀ s a, d.FirstLink L s a)
    (hlast : ∀ s a, d.LastLink L s a) : d.WellLinked L where
  list s a x hx := by
    rw [hfirst s a x hx, hlast s a x hx]
    exact h.list s a
  nodup := h.nodup
  mem := h.mem
  parent_mem := h.parent_mem
  acyclic := h.acyclic
  owner_mem := h.owner_mem

end Linked

namespace WellLinked

theorem firstLink (h : d.WellLinked L) (s : Side) (a : Addr) : d.FirstLink L s a :=
  fun x hx ↦ (h.list s a x hx).first_eq

theorem lastLink (h : d.WellLinked L) (s : Side) (a : Addr) : d.LastLink L s a :=
  fun x hx ↦ (h.list s a x hx).last_eq

theorem linked (h : d.WellLinked L) : d.Linked L where
  list s a := by
    cases hx : d.get a with
    | some x =>
      have hl := h.list s a x hx
      rw [h.firstLink s a x hx, h.lastLink s a x hx] at hl
      exact hl
    | none =>
      have hnil : L s a = [] := by
        refine List.eq_nil_iff_forall_not_mem.mpr fun c hc ↦ ?_
        obtain ⟨y, hy, hp, -⟩ := (h.mem s a c).mp hc
        have ha := h.parent_mem a c (by rw [parent, hy]; exact hp)
        exact Heap.mem_iff_get.mp ha hx
      rw [hnil]
      exact ⟨rfl, rfl⟩
  nodup := h.nodup
  mem := h.mem
  parent_mem := h.parent_mem
  acyclic := h.acyclic
  owner_mem := h.owner_mem

end WellLinked

/-! ## Searches along siblings -/

/-- The search along a list ends, with the right answer. -/
theorem siblingLoop_eq {l : List Addr} {b p t : Option Addr} {n : Nat}
    (h : DSeg d.next d.prev b p l t none) (hmem : ∀ c ∈ l, c ∈ d.nodes) (hn : l.length ≤ n) :
    d.siblingLoop a n p = some (decide (a ∈ l)) := by
  induction l generalizing b p n with
  | nil =>
    obtain ⟨rfl, -⟩ := h
    cases n <;> rfl
  | cons c l ih =>
    obtain ⟨rfl, -, hl⟩ := h
    rw [List.forall_mem_cons] at hmem
    obtain ⟨n, rfl⟩ := Nat.exists_eq_succ_of_ne_zero (Nat.ne_zero_of_lt hn)
    obtain ⟨x, hx⟩ := exists_get hmem.1
    have hnext : d.next c = x.nextSibling := by rw [next, hx]; rfl
    rw [hnext] at hl
    unfold siblingLoop
    by_cases hc : c = a
    · simp [hc]
    · have hc' : ¬ a = c := fun heq ↦ hc heq.symm
      simp [hc, hc', hx, ih hl hmem.2 (Nat.le_of_succ_le_succ hn)]

/-- Which lists `findNode` looks at. -/
def Looks (x : NodeAct) : Side → Prop
  | .child => True
  | .attr => x.nodeType = .ELEMENT_NODE

instance (x : NodeAct) : (s : Side) → Decidable (Looks x s)
  | .child => inferInstanceAs (Decidable True)
  | .attr => inferInstanceAs (Decidable (_ = _))

theorem WellLinked.findNode_spec (h : d.WellLinked L) (hx : d.get a = some x) (c : Addr) :
    ∃ r, d.findNode a c = some r ∧ (r = true ↔ ∃ s, Looks x s ∧ c ∈ L s a) := by
  have hloop : ∀ s, d.siblingLoop c d.nodes.size (x.first s) = some (decide (c ∈ L s a)) :=
    fun s ↦ siblingLoop_eq (h.list s a x hx) (fun _ hc ↦ h.linked.mem_nodes hc) (h.linked.length_le s a)
  have hchild : d.siblingLoop c d.nodes.size x.firstChild = _ := hloop .child
  have hattr : d.siblingLoop c d.nodes.size x.firstAttr = _ := hloop .attr
  have hex : (∃ s, Looks x s ∧ c ∈ L s a) ↔
      c ∈ L .child a ∨ x.nodeType = .ELEMENT_NODE ∧ c ∈ L .attr a := by
    constructor
    · rintro ⟨s, hs, hc⟩
      cases s with
      | child => exact .inl hc
      | attr => exact .inr ⟨hs, hc⟩
    · rintro (hc | ⟨ht, hc⟩)
      · exact ⟨.child, trivial, hc⟩
      · exact ⟨.attr, ht, hc⟩
  rw [hex]
  by_cases ht : x.nodeType = .ELEMENT_NODE <;> simp [findNode, hx, hchild, hattr, ht]

/-- The node found is in one list, of the kind it belongs to. -/
theorem WellLinked.mem_of_findNode (h : d.WellLinked L) (hx : d.get a = some x)
    (hc : d.get c = some y) (hf : d.findNode a c = some true) :
    Looks x y.side ∧ c ∈ L y.side a := by
  obtain ⟨r, hr, hspec⟩ := h.findNode_spec hx c
  obtain ⟨s, hs, hmem⟩ := hspec.mp (Option.some.inj (hr.symm.trans hf))
  obtain ⟨y', hy', -, rfl⟩ := (h.mem s a c).mp hmem
  obtain rfl := Option.some.inj (hc.symm.trans hy')
  exact ⟨hs, hmem⟩

/-! ## The depth of a tree -/

/-- The tree below a node has at most this many levels. -/
def HasDepth (L : Side → Addr → List Addr) : Nat → Addr → Prop
  | 0, _ => False
  | n + 1, a => ∀ c ∈ L .child a, HasDepth L n c

/-- As no node is its own ancestor, there are at most as many levels as nodes. -/
theorem WellLinked.hasDepth (h : d.WellLinked L) (ha : a ∈ d.nodes) :
    HasDepth L d.nodes.size a := by
  -- `A` are the nodes from the root of the search to `a`, which are all different
  have key : ∀ n (A : List Addr) a, A.Nodup → (∀ b ∈ A, b ∈ d.nodes) →
      (∀ b ∈ A, Relation.ReflTransGen d.IsParent b a) → d.nodes.size < n + A.length →
      HasDepth L n a := by
    intro n
    induction n with
    | zero =>
      intro A a hnd hmem _ hlen
      have hsub : A.Subperm d.nodes.keys := List.Nodup.subperm hnd hmem
      have hle := hsub.length_le
      simp only [Heap.size] at hlen
      omega
    | succ n ih =>
      intro A a hnd hmem hup hlen c hc
      have hpar : d.IsParent a c := h.linked.parent_eq hc
      refine ih (c :: A) c (List.nodup_cons.mpr ⟨fun hcA ↦ ?_, hnd⟩) ?_ ?_ ?_
      · exact h.acyclic c (Relation.TransGen.tail' (hup c hcA) hpar)
      · exact List.forall_mem_cons.mpr ⟨h.linked.mem_nodes hc, hmem⟩
      · exact List.forall_mem_cons.mpr ⟨.refl, fun b hb ↦ (hup b hb).tail hpar⟩
      · simp only [List.length_cons]
        omega
  refine key _ [a] a (List.nodup_singleton a) ?_ ?_ (Nat.lt_succ_self _)
  · simpa using ha
  · simpa using Relation.ReflTransGen.refl

/-! ## Searches in a tree -/

/-- The loop over the children ends if the calls for them do, and finds what they or `findNode`
find. -/
theorem WellLinked.kidLoop_some (h : d.WellLinked L) (hx : d.get a = some x)
    {search : Addr → Bool → Option Bool} {l : List Addr} {b p t : Option Addr} {n : Nat}
    {found : Bool} (hl : DSeg d.next d.prev b p l t none) (hmem : ∀ k ∈ l, k ∈ d.nodes)
    (hn : l.length ≤ n)
    (hsearch : ∀ k ∈ l, ∀ f, ∃ r, search k f = some r ∧
      (f = true → r = true) ∧ (r = true → f = true ∨ ∃ s q, c ∈ L s q)) :
    ∃ r, d.kidLoop a c search n p found = some r ∧
      (found = true → r = true) ∧ (r = true → found = true ∨ ∃ s q, c ∈ L s q) := by
  induction l generalizing b p n found with
  | nil =>
    obtain ⟨rfl, -⟩ := hl
    exact ⟨found, by cases n <;> rfl, id, .inl⟩
  | cons k l ih =>
    obtain ⟨rfl, -, hl⟩ := hl
    rw [List.forall_mem_cons] at hmem hsearch
    obtain ⟨n, rfl⟩ := Nat.exists_eq_succ_of_ne_zero (Nat.ne_zero_of_lt hn)
    obtain ⟨y, hy⟩ := exists_get hmem.1
    obtain ⟨r₁, hr₁, hmono₁, hfound₁⟩ := hsearch.1 found
    have hnext : d.next k = y.nextSibling := by rw [next, hy]; rfl
    rw [hnext] at hl
    obtain ⟨f, hfind, hspec⟩ := h.findNode_spec hx c
    cases f with
    | true =>
      obtain ⟨s, -, hs⟩ := hspec.mp rfl
      exact ⟨true, by simp [kidLoop, hr₁, hfind], fun _ ↦ rfl, fun _ ↦ .inr ⟨s, a, hs⟩⟩
    | false =>
      obtain ⟨r, hr, hmono, hfound⟩ := ih hl hmem.2 (Nat.le_of_succ_le_succ hn) hsearch.2
      exact ⟨r, by simp [kidLoop, hr₁, hfind, hy, hr], fun hf ↦ hmono (hmono₁ hf),
        fun hr ↦ (hfound hr).elim hfound₁ .inr⟩

/-- `findNodeFromRef` ends.  It keeps a `Found` that is set, and sets it only for a node that has
a parent. -/
theorem WellLinked.findNodeFromRef_some (h : d.WellLinked L) {n : Nat} (ha : a ∈ d.nodes)
    (hdepth : HasDepth L n a) (found : Bool) :
    ∃ r, d.findNodeFromRef c n a found = some r ∧
      (found = true → r = true) ∧ (r = true → found = true ∨ ∃ s q, c ∈ L s q) := by
  induction n generalizing a found with
  | zero => exact hdepth.elim
  | succ n ih =>
    obtain ⟨x, hx⟩ := exists_get ha
    obtain ⟨r, hr, hspec⟩ := h.kidLoop_some (c := c) hx (h.list .child a x hx)
      (fun k hk ↦ h.linked.mem_nodes hk) (h.linked.length_le .child a)
      fun k hk f ↦ ih (h.linked.mem_nodes hk) (hdepth k hk) f
    refine ⟨r, ?_, hspec⟩
    rw [findNodeFromRef, hx]
    exact hr

end Store

end Upnp.Dom
