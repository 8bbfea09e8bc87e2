import Upnp.Dom.LinkInvariant

/-!
# Copies of nodes

`cloneNode` of `NodeAct.cpp`: the copy constructor takes over the name, the value and the owner of a
node, and appends a copy of each child.  Trees are compared down to every depth.
-/

namespace Upnp.Dom

open Upnp.Lib

/-- What `new` returns, for the memory that is in use. -/
structure Allocator where
  new : Heap NodeAct → Addr
  fresh : ∀ h, new h ∉ h

/-- The copy constructor, but for the children. -/
def copied (other : NodeAct) : NodeAct :=
  { nodeType := other.nodeType, nodeName := other.nodeName, nodeValue := other.nodeValue,
    parentNode := none, firstChild := none, lastChild := none, ownerNode := other.ownerNode,
    nextSibling := none, prevSibling := none, firstAttr := none, lastAttr := none }

namespace Store

/-- The loop of the copy constructor over the children from `mykid`, with the calls of `cloneNode`.
An exception would leave the constructor. -/
def cloneLoop (this : Addr) (clone : Addr → Store → Option (Store × Addr)) :
    Nat → Option Addr → Store → Option Store
  | _, none, d => some d
  | 0, some _, _ => none
  | n + 1, some mykid, d => do
    let (d, newChild) ← clone mykid d
    match ← d.appendChild this newChild with
    | (_, .NOT_FOUND_ERR) => none
    | (d, .done) =>
      let x ← d.get mykid
      cloneLoop this clone n x.nextSibling d

/-- `cloneNode`, on a tree of some depth: the store and the copy. -/
def cloneNode (m : Allocator) (deep : Bool) : Nat → Addr → Store → Option (Store × Addr)
  | 0, _, _ => none
  | n + 1, a, d => do
    let other ← d.get a
    let this := m.new d.nodes
    let d' := d.withNew this (copied other)
    if deep then
      let d' ← cloneLoop this (cloneNode m true n) d.nodes.size other.firstChild d'
      some (d', this)
    else some (d', this)

/-- `cloneNode`, as it is called. -/
def clone (m : Allocator) (deep : Bool) (a : Addr) (d : Store) : Option (Store × Addr) :=
  cloneNode m deep d.nodes.size a d

end Store

/-! ## Trees -/

/-- The type, the name and the value of a node. -/
abbrev NodeAct.Content := NodeType × CString × Option CString

def NodeAct.content (x : NodeAct) : NodeAct.Content := (x.nodeType, x.nodeName, x.nodeValue)

/-- A node with its attributes and its children. -/
inductive Tree where
  | node (content : Option NodeAct.Content) (attributes children : List Tree)

namespace Store

def content (d : Store) (a : Addr) : Option NodeAct.Content := (d.get a).map NodeAct.content

/-- The tree of a node, down to a depth. -/
def tree (d : Store) (L : Side → Addr → List Addr) : Nat → Addr → Tree
  | 0, a => .node (d.content a) [] []
  | n + 1, a => .node (d.content a) ((L .attr a).map (tree d L n)) ((L .child a).map (tree d L n))

/-- The tree of a node without its attributes. -/
def bareTree (d : Store) (L : Side → Addr → List Addr) : Nat → Addr → Tree
  | 0, a => .node (d.content a) [] []
  | n + 1, a => .node (d.content a) [] ((L .child a).map (bareTree d L n))

/-- `b` is a child of `a`. -/
def IsChild (L : Side → Addr → List Addr) (a b : Addr) : Prop := b ∈ L .child a

/-- `b` is a child or an attribute of `a`. -/
def IsBelow (L : Side → Addr → List Addr) (a b : Addr) : Prop := ∃ s, b ∈ L s a

/-- The node `c` is a copy of `a`: it is linked to nothing and shares no node, and everything that was
there before is unchanged. -/
structure IsCopy (d : Store) (L : Side → Addr → List Addr) (deep : Bool) (a : Addr) (d' : Store)
    (L' : Side → Addr → List Addr) (c : Addr) : Prop where
  links : d'.WellLinked L'
  unchanged : ∀ b ∈ d.nodes, d'.get b = d.get b
  separate : ∀ b, Relation.ReflTransGen (IsBelow L') c b → b ∉ d.nodes
  alone : ∃ y, d'.get c = some y ∧ y.parentNode = none ∧ y.nextSibling = none ∧ y.prevSibling = none
  content : d'.content c = d.content a
  attributes : ∀ n, (L' .attr c).map (d'.tree L' n) = (L .attr a).map (d.tree L n)
  children : if deep then ∀ n, (L' .child c).map (d'.tree L' n) = (L .child a).map (d.tree L n)
    else L' .child c = []

/-- `cloneNode` gives a copy. -/
def ClonesRight (m : Allocator) (d : Store) (L : Side → Addr → List Addr) (deep : Bool) (a : Addr) :
    Prop :=
  ∃ d' L' c, d.clone m deep a = some (d', c) ∧ IsCopy d L deep a d' L' c

/-- No node that is copied has attributes, and children are copied only as long as no search has
found a node. -/
def Cloneable (d : Store) (L : Side → Addr → List Addr) (deep : Bool) (a : Addr) : Prop :=
  if deep then (∀ b, Relation.ReflTransGen (IsChild L) a b → L .attr b = []) ∧
    (d.found = false ∨ L .child a = [])
  else L .attr a = []

variable {d d' e e' : Store} {L L' M M' : Side → Addr → List Addr} {m : Allocator} {a b c k p : Addr}
  {x y z : NodeAct} {n : Nat} {S : Addr → Prop} {deep : Bool}

/-! ## Trees that agree -/

/-- A set of nodes whose trees are the same in two stores. -/
structure Agree (d : Store) (L : Side → Addr → List Addr) (e : Store)
    (M : Side → Addr → List Addr) (S : Addr → Prop) : Prop where
  closed : ∀ q, S q → ∀ s, ∀ k ∈ L s q, S k
  content : ∀ q, S q → e.content q = d.content q
  lists : ∀ q, S q → ∀ s, M s q = L s q

theorem Agree.tree_eq (h : Agree d L e M S) (ha : S a) (n : Nat) : e.tree M n a = d.tree L n a := by
  induction n generalizing a with
  | zero => rw [tree, tree, h.content a ha]
  | succ n ih =>
    have hmap : ∀ s, (L s a).map (e.tree M n) = (L s a).map (d.tree L n) := fun s ↦
      List.map_congr_left fun k hk ↦ ih (h.closed a ha s k hk)
    rw [tree, tree, h.content a ha, h.lists a ha, h.lists a ha, hmap, hmap]

theorem Agree.bareTree_eq (h : Agree d L e M S) (ha : S a) (n : Nat) :
    e.bareTree M n a = d.bareTree L n a := by
  induction n generalizing a with
  | zero => rw [bareTree, bareTree, h.content a ha]
  | succ n ih =>
    have hmap : (L .child a).map (e.bareTree M n) = (L .child a).map (d.bareTree L n) :=
      List.map_congr_left fun k hk ↦ ih (h.closed a ha .child k hk)
    rw [bareTree, bareTree, h.content a ha, h.lists a ha, hmap]

theorem Agree.hasDepth (h : Agree d L e M S) (ha : S a) (hdepth : HasDepth L n a) :
    HasDepth M n a := by
  induction n generalizing a with
  | zero => exact hdepth.elim
  | succ n ih =>
    intro k hk
    rw [h.lists a ha] at hk
    exact ih (h.closed a ha .child k hk) (hdepth k hk)

/-- A node without attributes below it has the tree without attributes. -/
theorem tree_eq_bareTree (h : ∀ b, Relation.ReflTransGen (IsChild L) a b → L .attr b = []) (n : Nat) :
    d.tree L n a = d.bareTree L n a := by
  induction n generalizing a with
  | zero => rfl
  | succ n ih =>
    have hmap : (L .child a).map (d.tree L n) = (L .child a).map (d.bareTree L n) :=
      List.map_congr_left fun k hk ↦ ih fun b hb ↦ h b (hb.head hk)
    rw [tree, bareTree, h a .refl, hmap, List.map_nil]

/-- A tree that is one without attributes has none. -/
theorem attr_eq_nil (h : ∀ n, d.tree L n a = d.bareTree L n a)
    (hb : Relation.ReflTransGen (IsChild L) a b) : L .attr b = [] := by
  induction hb using Relation.ReflTransGen.head_induction_on with
  | refl =>
    have hone := h 1
    rw [tree, bareTree] at hone
    injection hone with _ hattr
    exact List.map_eq_nil_iff.mp hattr
  | head hac _ ih =>
    apply ih
    intro n
    have hsucc := h (n + 1)
    rw [tree, bareTree] at hsucc
    injection hsucc with _ _ hchildren
    exact List.map_inj_left.mp hchildren _ hac

/-! ## The copy -/

/-- A store `e` has grown from `d` by the node `c`, which is linked to no node of `d`. -/
structure Grown (d : Store) (L : Side → Addr → List Addr) (x : NodeAct) (e : Store)
    (M : Side → Addr → List Addr) (c : Addr) : Prop where
  links : e.WellLinked M
  found : e.found = false
  kept : ∀ b ∈ d.nodes, e.get b = d.get b
  lists : ∀ b ∈ d.nodes, ∀ s, M s b = L s b
  new : c ∉ d.nodes
  get : ∃ y, e.get c = some y ∧ y.content = x.content ∧ y.parentNode = none ∧
    y.nextSibling = none ∧ y.prevSibling = none
  attr : M .attr c = []

namespace Grown

theorem mem (h : Grown d L x e M c) : c ∈ e.nodes := by
  obtain ⟨y, hy, -⟩ := h.get
  exact mem_of_get hy

theorem mem_of_mem (h : Grown d L x e M c) (hb : b ∈ d.nodes) : b ∈ e.nodes := by
  obtain ⟨y, hy⟩ := exists_get hb
  exact mem_of_get ((h.kept b hb).trans hy)

theorem parent_eq (h : Grown d L x e M c) : e.parent c = none := by
  obtain ⟨y, hy, -, hpar, -⟩ := h.get
  exact (parent_of_get hy).trans hpar

theorem agree (hl : d.WellLinked L) (h : Grown d L x e M c) : Agree d L e M (· ∈ d.nodes) where
  closed q _ s k hk := hl.linked.mem_nodes hk
  content q hq := by rw [content, content, h.kept q hq]
  lists q hq s := h.lists q hq s

/-- No node that was there before is below a new one. -/
theorem notMem_below (hl : d.WellLinked L) (h : Grown d L x e M c) (hb : b ∉ d.nodes) {s : Side}
    (hk : k ∈ M s b) : k ∉ d.nodes := by
  intro hmem
  have hpar := h.links.linked.parent_eq hk
  rw [parent, h.kept k hmem] at hpar
  exact hb (hl.parent_mem b k hpar)

end Grown

/-- The copies of children, one behind the other. -/
structure Building (d : Store) (L : Side → Addr → List Addr) (x : NodeAct) (e : Store)
    (M : Side → Addr → List Addr) (c : Addr) (l : List Addr) : Prop extends Grown d L x e M c where
  kids : ∀ n, (M .child c).map (e.tree M n) = l.map (d.bareTree L n)

theorem lone_copied (x : NodeAct) : Lone (copied x) where
  parent := rfl
  first s := by cases s <;> rfl
  last s := by cases s <;> rfl

theorem notMem_of_parent (h : d.WellLinked L) (hpar : d.parent c = none) (s : Side) (a : Addr) :
    c ∉ L s a := h.linked.notMem hpar

/-- The new node, before its first child is copied. -/
theorem building_nil (h : d.WellLinked L) (hx : d.get a = some x) (hc : c ∉ d.nodes)
    (hfound : d.found = false) : Building d L x (d.withNew c (copied x)) L c [] where
  links := h.withNew hc (lone_copied x) (.inr (h.owner_mem a x hx))
  found := hfound
  kept b hb := by
    have hne : b ≠ c := fun heq ↦ hc (heq ▸ hb)
    rw [get_withNew, if_neg hne]
  lists _ _ _ := rfl
  new := hc
  get := ⟨copied x, (get_withNew d c c _).trans (if_pos rfl), rfl, rfl, rfl, rfl⟩
  attr := h.linked.nil_of_notMem hc .attr
  kids n := by
    rw [h.linked.nil_of_notMem hc .child]
    rfl

/-- The lists of the new nodes hold no node of the first store. -/
theorem Building.notMem_lists (hl : d.WellLinked L) {l : List Addr} (h : Building d L x e M c l)
    (hcopy : Grown e M z e' M' p) {q : Addr} (hq : q ∉ d.nodes) {s : Side} (hb : b ∈ M' s q) :
    b ∉ d.nodes := by
  by_cases hqe : q ∈ e.nodes
  · rw [hcopy.lists q hqe] at hb
    exact h.notMem_below hl hq hb
  · exact fun hmem ↦ hcopy.notMem_below h.links hqe hb (h.mem_of_mem hmem)

/-- A copy that is appended leaves the nodes of the first store. -/
theorem Building.kept_append (hl : d.WellLinked L) {l : List Addr} (h : Building d L x e M c l)
    (hcopy : Grown e M z e' M' p) {e'' : Store} {o : List Addr} {owner : Addr}
    (hwrote : Wrote e' e'' (relinked c p (M .child c).getLast? .child o owner))
    (hclosed : ∀ S, Closed M' S → S p → ∀ b ∈ o, S b) : ∀ b ∈ d.nodes, e''.get b = d.get b := by
  have hp : p ∉ d.nodes := fun hmem ↦ hcopy.new (h.mem_of_mem hmem)
  intro b hb
  obtain ⟨v, hv⟩ := exists_get hb
  have hv' : e'.get b = some v :=
    ((hcopy.kept b (h.mem_of_mem hb)).trans (h.kept b hb)).trans hv
  have hbc : b ≠ c := fun heq ↦ h.new (heq ▸ hb)
  have hbp : b ≠ p := fun heq ↦ hp (heq ▸ hb)
  have hbo : b ∉ o := fun hbo ↦
    hclosed (· ∉ d.nodes) (fun _ hq _ hk ↦ h.notMem_lists hl hcopy hq hk) hp b hbo hb
  have hlast : (M .child c).getLast? ≠ some b := fun hlast ↦
    h.notMem_below hl h.new (List.mem_of_mem_getLast? hlast) hb
  rw [hwrote.get_some hv', hv, relinked, linkedLast, loosened]
  simp only [hbc, hbp, hbo, hlast, false_and, or_false, if_false]

/-- A copy of a child is appended. -/
theorem Building.append (hl : d.WellLinked L) {l : List Addr} (h : Building d L x e M c l)
    (hk : k ∈ d.nodes) (hside : z.side = .child)
    (hcopy : Grown e M z e' M' p) (htree : ∀ n, e'.tree M' n p = e.bareTree M n k) :
    ∃ e'' M'', e'.appendChild c p = some (e'', .done) ∧ Building d L x e'' M'' c (l ++ [k]) := by
  obtain ⟨y, hy, hcontent, hpar, hnext, hprev⟩ := h.get
  obtain ⟨w, hw, hwcontent, hwpar, -⟩ := hcopy.get
  have hy' : e'.get c = some y := (hcopy.kept c h.mem).trans hy
  have hne : c ≠ p := fun heq ↦ hcopy.new (heq ▸ h.mem)
  have hcpar : e'.parent c = none := (parent_of_get hy').trans hpar
  have hwside : w.side = .child := (side_eq (congrArg Prod.fst hwcontent)).trans hside
  have hup : ¬ Relation.ReflTransGen e'.IsParent p c := by
    intro hup
    rcases Relation.ReflTransGen.cases_tail hup with heq | ⟨q, -, hq⟩
    · exact hne heq
    · rw [IsParent, hcpar] at hq
      cases hq
  obtain ⟨e'', o, heq, hlinks, hwrote, hclosed⟩ :=
    hcopy.links.append_wrote hy' hw hwpar hup hcopy.found
  rw [hwside] at hlinks hwrote
  have hlist : M' .child c = M .child c := hcopy.lists c h.mem .child
  rw [hlist] at hlinks hwrote
  have hkept := h.kept_append hl hcopy hwrote hclosed
  -- no content is written, and no list but that of the copies
  have hcontents : ∀ q, e''.content q = e'.content q := by
    intro q
    rw [Store.content, Store.content, hwrote.get, Option.map_map]
    rfl
  have hagree : Agree e' M' e'' (withList M' .child c (M .child c ++ [p])) (· ≠ c) := by
    refine ⟨fun q _ s b hb ↦ ?_, fun q _ ↦ hcontents q, fun q hq s ↦ ?_⟩
    · rintro rfl
      exact notMem_of_parent hcopy.links hcpar _ _ hb
    · exact withList_of_ne fun hplace ↦ hq hplace.2
  have hagree' : Agree e M e' M' (· ∈ e.nodes) := hcopy.agree h.links
  refine ⟨e'', _, heq, ⟨⟨hlinks, ?_, hkept, fun b hb s ↦ ?_, h.new, ?_, ?_⟩, fun n ↦ ?_⟩⟩
  · exact hwrote.found.trans hcopy.found
  · have hbc : b ≠ c := fun heq ↦ h.new (heq ▸ hb)
    rw [withList_of_ne fun hplace ↦ hbc hplace.2, hcopy.lists b (h.mem_of_mem hb), h.lists b hb]
  · have hlast : (M .child c).getLast? ≠ some c := fun hlast ↦
      notMem_of_parent h.links h.parent_eq _ _ (List.mem_of_mem_getLast? hlast)
    refine ⟨_, hwrote.get_some hy', hcontent, ?_, ?_, ?_⟩
    · exact (if_neg hne).trans hpar
    · rw [next_relinked, if_neg hlast, if_neg hne, hnext]
    · rw [prev_relinked, if_neg hne, hprev]
  · rw [withList_of_ne (by rintro ⟨⟨⟩, -⟩), hcopy.lists c h.mem, h.attr]
  · have hold : (M .child c).map (e''.tree (withList M' .child c (M .child c ++ [p])) n) =
        (M .child c).map (e.tree M n) := by
      refine List.map_congr_left fun b hb ↦ ?_
      have hbc : b ≠ c := fun heq ↦ notMem_of_parent h.links h.parent_eq _ _ (heq ▸ hb)
      exact (hagree.tree_eq hbc n).trans (hagree'.tree_eq (h.links.linked.mem_nodes hb) n)
    rw [withList_self, List.map_append, List.map_append, hold, h.kids n, List.map_singleton,
      List.map_singleton, hagree.tree_eq hne.symm n, htree n, (h.agree hl).bareTree_eq hk n]

/-- The copy of a node in a store: what the loop needs of it. -/
def Copies (clone : Addr → Store → Option (Store × Addr)) (n : Nat) : Prop :=
  ∀ d L a x, d.WellLinked L → d.found = false → d.get a = some x → HasDepth L n a →
    ∃ e M c, clone a d = some (e, c) ∧ Grown d L x e M c ∧ ∀ i, e.tree M i c = d.bareTree L i a

/-- The loop copies the children that are left. -/
theorem cloneLoop_spec {clone : Addr → Store → Option (Store × Addr)} {l₀ l : List Addr}
    {prev first last : Option Addr} {fuel : Nat} (hclone : Copies clone n) (hl : d.WellLinked L)
    (h : Building d L x e M c l₀) (hseg : DSeg d.next d.prev prev first l last none)
    (hmem : ∀ k ∈ l, k ∈ L .child a ∧ HasDepth L n k) (hfuel : l.length ≤ fuel) :
    ∃ e' M', cloneLoop c clone fuel first e = some e' ∧ Building d L x e' M' c (l₀ ++ l) := by
  induction l generalizing prev first fuel l₀ e M with
  | nil =>
    obtain ⟨rfl, -⟩ := hseg
    refine ⟨e, M, by cases fuel <;> rfl, ?_⟩
    rw [List.append_nil]
    exact h
  | cons k l ih =>
    obtain ⟨rfl, -, hseg⟩ := hseg
    obtain ⟨fuel, rfl⟩ := Nat.exists_eq_succ_of_ne_zero (Nat.ne_zero_of_lt hfuel)
    rw [List.forall_mem_cons] at hmem
    obtain ⟨⟨hk, hdepth⟩, hmem⟩ := hmem
    obtain ⟨z, hz, -, hside⟩ := (hl.mem .child a k).mp hk
    have hkmem := mem_of_get hz
    have hz' : e.get k = some z := (h.kept k hkmem).trans hz
    obtain ⟨e₁, M₁, p, h₁, hgrown, htree⟩ :=
      hclone e M k z h.links h.found hz' ((h.agree hl).hasDepth hkmem hdepth)
    obtain ⟨e₂, M₂, h₂, hbuilding⟩ := h.append hl hkmem hside hgrown htree
    rw [next_of_get hz] at hseg
    obtain ⟨e₃, M₃, h₃, hdone⟩ := ih hbuilding hseg hmem (Nat.le_of_succ_le_succ hfuel)
    have hz₂ : e₂.get k = some z := (hbuilding.kept k hkmem).trans hz
    refine ⟨e₃, M₃, ?_, ?_⟩
    · simp [cloneLoop, h₁, h₂, hz₂, h₃]
    · rw [List.append_assoc] at hdone
      exact hdone

/-- A deep copy is the tree without its attributes. -/
theorem cloneNode_spec (m : Allocator) (n : Nat) : Copies (cloneNode m true n) n := by
  induction n with
  | zero =>
    intro d L a x _ _ _ hdepth
    exact hdepth.elim
  | succ n ih =>
    intro d L a x hl hfound hx hdepth
    obtain ⟨e, M, h₁, hbuilding⟩ := cloneLoop_spec ih hl
      (building_nil hl hx (m.fresh d.nodes) hfound) (hl.list .child a x hx)
      (fun k hk ↦ ⟨hk, hdepth k hk⟩) (hl.linked.length_le .child a)
    have hrun : cloneNode m true (n + 1) a d = some (e, m.new d.nodes) := by
      change cloneLoop _ _ _ x.firstChild _ = _ at h₁
      simp [cloneNode, hx, h₁]
    refine ⟨e, M, m.new d.nodes, hrun, hbuilding.toGrown, fun i ↦ ?_⟩
    have hcontent : e.content (m.new d.nodes) = d.content a := by
      obtain ⟨y, hy, hycontent, -⟩ := hbuilding.get
      rw [content, content, hy, hx, Option.map_some, Option.map_some, hycontent]
    cases i with
    | zero => rw [tree, bareTree, hcontent]
    | succ i =>
      rw [tree, bareTree, hcontent, hbuilding.attr, hbuilding.kids i, List.nil_append]
      rfl

/-! ## A set `Found` -/

/-- Once a search has found a node, a copied child is a null dereference away. -/
theorem cloneNode_of_found (m : Allocator) (hl : d.WellLinked L) (hfound : d.found = true)
    (hx : d.get a = some x) (h : cloneNode m true n a d = some (e, c)) :
    x.firstChild = none ∧ e = d.withNew c (copied x) ∧ c = m.new d.nodes := by
  induction n generalizing a d x e c with
  | zero => cases h
  | succ n ih =>
    cases hfirst : x.firstChild with
    | none =>
      have hloop : cloneLoop (m.new d.nodes) (cloneNode m true n) d.nodes.size none
          (d.withNew (m.new d.nodes) (copied x)) = some (d.withNew (m.new d.nodes) (copied x)) := by
        cases d.nodes.size <;> rfl
      simp [cloneNode, hx, hfirst, hloop] at h
      obtain ⟨rfl, rfl⟩ := h
      exact ⟨rfl, rfl, rfl⟩
    | some k =>
      exfalso
      set this := m.new d.nodes with hthis
      have hnew : this ∉ d.nodes := m.fresh d.nodes
      have hl' : (d.withNew this (copied x)).WellLinked L :=
        hl.withNew hnew (lone_copied x) (.inr (hl.owner_mem a x hx))
      simp only [cloneNode, hx, hfirst, Option.bind_eq_bind, Option.bind_some, if_true, ← hthis,
        Option.bind_eq_some_iff] at h
      obtain ⟨e₁, h₁, -⟩ := h
      cases hsize : d.nodes.size with
      | zero =>
        rw [hsize] at h₁
        cases h₁
      | succ fuel =>
        rw [hsize, cloneLoop, Option.bind_eq_bind, Option.bind_eq_some_iff] at h₁
        obtain ⟨⟨d₁, c₁⟩, h₁, h₂⟩ := h₁
        have hkmem : k ∈ L .child a := by
          have hhead := hl.firstLink .child a x hx
          change x.firstChild = _ at hhead
          rw [hfirst] at hhead
          exact List.mem_of_mem_head? hhead.symm
        obtain ⟨w, hw⟩ := exists_get (mem_withNew.mpr (.inr (hl.linked.mem_nodes hkmem)) :
          k ∈ (d.withNew this (copied x)).nodes)
        obtain ⟨-, rfl, rfl⟩ := ih hl' hfound hw h₁
        set d₀ := d.withNew this (copied x) with hd₀
        set c₁ := m.new d₀.nodes with hc₁
        have hnew₁ : c₁ ∉ d₀.nodes := m.fresh d₀.nodes
        have hl₁ : (d₀.withNew c₁ (copied w)).WellLinked L :=
          hl'.withNew hnew₁ (lone_copied w) (.inr (hl'.owner_mem k w hw))
        have hmem : this ∈ (d₀.withNew c₁ (copied w)).nodes :=
          mem_withNew.mpr (.inr (mem_withNew.mpr (.inl rfl)))
        have hnone := hl₁.appendChild_of_found hmem
          ((get_withNew d₀ c₁ c₁ (copied w)).trans (if_pos rfl)) rfl hfound
        simp [hnone] at h₂

/-! ## When a copy is right -/

/-- The links determine the lists. -/
theorem WellLinked.lists_unique (h : d.WellLinked L) (h' : d.WellLinked L') : L = L' := by
  funext s a
  by_cases ha : a ∈ d.nodes
  · obtain ⟨x, hx⟩ := exists_get ha
    exact (h.list s a x hx).unique (h'.list s a x hx)
  · rw [h.linked.nil_of_notMem ha, h'.linked.nil_of_notMem ha]

/-- The lists of a node that has just been copied without its children. -/
theorem nil_of_withNew (hl : (d.withNew c (copied x)).WellLinked L) (s : Side) : L s c = [] := by
  have hget := (get_withNew d c c (copied x)).trans (if_pos rfl)
  have hhead := hl.firstLink s c (copied x) hget
  rw [(lone_copied x).first] at hhead
  exact List.head?_eq_none_iff.mp hhead.symm

/-- A node without children, or one whose children are left out. -/
theorem isCopy_withNew (hl : d.WellLinked L) (hx : d.get a = some x) (hc : c ∉ d.nodes)
    (hattr : L .attr a = []) (hchild : deep = true → L .child a = []) :
    IsCopy d L deep a (d.withNew c (copied x)) L c := by
  have hl' := hl.withNew hc (lone_copied x) (.inr (hl.owner_mem a x hx))
  have hget := (get_withNew d c c (copied x)).trans (if_pos rfl)
  refine ⟨hl', fun b hb ↦ ?_, fun b hb ↦ ?_, ⟨_, hget, rfl, rfl, rfl⟩, ?_, fun n ↦ ?_, ?_⟩
  · have hne : b ≠ c := fun heq ↦ hc (heq ▸ hb)
    rw [get_withNew, if_neg hne]
  · rcases Relation.ReflTransGen.cases_head hb with rfl | ⟨k, ⟨s, hk⟩, -⟩
    · exact hc
    · rw [nil_of_withNew hl' s] at hk
      cases hk
  · rw [content, content, hget, hx]
    rfl
  · rw [hattr, nil_of_withNew hl' .attr]
    rfl
  · split_ifs with hdeep
    · intro n
      rw [hchild hdeep, nil_of_withNew hl' .child]
      rfl
    · exact nil_of_withNew hl' .child

/-- What has grown from a store is a copy when the trees are the same. -/
theorem Grown.isCopy (hl : d.WellLinked L) (hx : d.get a = some x) (h : Grown d L x e M c)
    (htree : ∀ n, e.tree M n c = d.tree L n a) : IsCopy d L true a e M c := by
  obtain ⟨y, hy, hcontent, hpar, hnext, hprev⟩ := h.get
  have hlists : ∀ n, (M .attr c).map (e.tree M n) = (L .attr a).map (d.tree L n) ∧
      (M .child c).map (e.tree M n) = (L .child a).map (d.tree L n) := by
    intro n
    have hsucc := htree (n + 1)
    rw [tree, tree] at hsucc
    injection hsucc with _ hattr hchild
    exact ⟨hattr, hchild⟩
  refine ⟨h.links, h.kept, fun b hb ↦ ?_, ⟨y, hy, hpar, hnext, hprev⟩, ?_, fun n ↦ (hlists n).1,
    fun n ↦ (hlists n).2⟩
  · induction hb with
    | refl => exact h.new
    | tail _ hk ih =>
      obtain ⟨s, hk⟩ := hk
      exact h.notMem_below hl ih hk
  · rw [content, content, hy, hx, Option.map_some, Option.map_some, hcontent]

/-- The trees of a deep copy are the same. -/
theorem IsCopy.tree_eq (h : IsCopy d L true a e M c) (n : Nat) : e.tree M n c = d.tree L n a := by
  cases n with
  | zero => rw [tree, tree, h.content]
  | succ n =>
    have hchildren : ∀ n, _ := h.children
    rw [tree, tree, h.content, h.attributes, hchildren]

theorem clone_shallow (hx : d.get a = some x) (hsize : d.nodes.size ≠ 0) :
    d.clone m false a = some (d.withNew (m.new d.nodes) (copied x), m.new d.nodes) := by
  obtain ⟨n, hn⟩ := Nat.exists_eq_succ_of_ne_zero hsize
  simp [clone, hn, cloneNode, hx]

theorem size_ne_zero (h : d.WellLinked L) (ha : a ∈ d.nodes) : d.nodes.size ≠ 0 := by
  intro hsize
  have hdepth := h.hasDepth ha
  rw [hsize] at hdepth
  exact hdepth

theorem clone_childless (hl : d.WellLinked L) (hx : d.get a = some x) (hchild : L .child a = []) :
    d.clone m true a = some (d.withNew (m.new d.nodes) (copied x), m.new d.nodes) := by
  obtain ⟨n, hn⟩ := Nat.exists_eq_succ_of_ne_zero (size_ne_zero hl (mem_of_get hx))
  have hfirst : x.firstChild = none := by
    have hhead := hl.firstLink .child a x hx
    rw [hchild] at hhead
    exact hhead
  simp [clone, hn, cloneNode, hx, hfirst, cloneLoop]

/-- A deep copy of a store in which no search has found a node. -/
theorem clone_deep_iff (hl : d.WellLinked L) (hx : d.get a = some x) (hfound : d.found = false) :
    ClonesRight m d L true a ↔ ∀ b, Relation.ReflTransGen (IsChild L) a b → L .attr b = [] := by
  obtain ⟨e, M, c, hrun, hgrown, htree⟩ :=
    cloneNode_spec m d.nodes.size d L a x hl hfound hx (hl.hasDepth (mem_of_get hx))
  constructor
  · rintro ⟨e', M', c', hrun', hcopy⟩ b hb
    obtain ⟨rfl, rfl⟩ := Prod.mk.inj (Option.some.inj (hrun.symm.trans hrun'))
    obtain rfl := hgrown.links.lists_unique hcopy.links
    exact attr_eq_nil (fun n ↦ (hcopy.tree_eq n).symm.trans (htree n)) hb
  · intro h
    exact ⟨e, M, c, hrun, hgrown.isCopy hl hx fun n ↦
      (htree n).trans (tree_eq_bareTree h n).symm⟩

end Store

/-- Memory is taken behind all that is in use. -/
def Allocator.behind : Allocator where
  new := Heap.fresh
  fresh := Heap.fresh_notMem

end Upnp.Dom
