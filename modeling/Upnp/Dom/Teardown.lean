import Upnp.Dom.TagNames

/-!
# Teardown

`deleteNodeAct` of `NodeAct.cpp`: what is below a node is freed leaf by leaf, each time from the
first child of the first child on.  A freed node is no longer in the heap, so that to touch it, or
to free it again, is a fault.

While this goes on the nodes above the leaf have no last child, and the next leaf a link back to
the one just freed.  `Shape` says what is still in order: the first children and the siblings
behind them.
-/

namespace Upnp.Dom

open Upnp.Lib

namespace Store

/-- `delete`, of a node. -/
def free (d : Store) (a : Addr) : Option Store :=
  (d.nodes.free a).map fun nodes ↦ { d with nodes := nodes }

/-- The loop over the attributes, with the nodes it frees. -/
def deleteAttrs : Nat → Store → Option Addr → Option (Store × List Addr)
  | _, d, none => some (d, [])
  | 0, _, some _ => none
  | n + 1, d, some attr => do
    let x ← d.get attr
    let na1 := x.nextSibling
    let d ← d.free attr
    let (d, freed) ← deleteAttrs n d na1
    some (d, attr :: freed)

/-- The attributes of an element are freed. -/
def deleteAttrsOf (d : Store) (na : Addr) : Option (Store × List Addr) := do
  let x ← d.get na
  if x.nodeType = .ELEMENT_NODE then
    let (d, freed) ← deleteAttrs d.nodes.size d x.firstAttr
    let d ← d.modify na fun x ↦ { x with firstAttr := none, lastAttr := none }
    some (d, freed)
  else some (d, [])

/-- `deleteNodeTree`, on a tree of some depth, with the nodes it frees. -/
def deleteNodeTree (d : Store) (this : Addr) : Nat → Addr → Option (Store × List Addr)
  | 0, _ => none
  | n + 1, na => do
    let x ← d.get na
    match x.firstChild with
    | some child => deleteNodeTree d this n child
    | none =>
      let d ← d.modifyAt x.parentNode fun nap ↦
        { nap with firstChild := x.nextSibling, lastChild := none }
      let (d, freed) ← d.deleteAttrsOf na
      if na ≠ this then
        let d ← d.free na
        some (d, freed ++ [na])
      else some (d, freed)

/-- The loop of `deleteNodeAct`. -/
def deleteLoop (this : Addr) : Nat → Store → Option (Store × List Addr)
  | 0, _ => none
  | n + 1, d => do
    let x ← d.get this
    match x.firstChild with
    | none => some (d, [])
    | some _ =>
      let (d, freed) ← d.deleteNodeTree this d.nodes.size this
      let (d, freed') ← deleteLoop this n d
      some (d, freed ++ freed')

/-- `deleteNodeAct`: the store and the nodes freed, in order. -/
def deleteNodeAct (d : Store) (this : Addr) : Option (Store × List Addr) :=
  deleteLoop this d.nodes.size d

end Store

/-! ## Shapes -/

/-- A list of siblings: the first with its attributes and the nodes below it, and those behind. -/
inductive Shape where
  | nil
  | node (a : Addr) (attrs : List Addr) (kids rest : Shape)

namespace Shape

/-- All nodes, in the order in which they are freed. -/
def nodes : Shape → List Addr
  | nil => []
  | node a attrs kids rest => kids.nodes ++ attrs ++ a :: rest.nodes

/-- What is left without the first leaf. -/
def dropLeaf : Shape → Shape
  | nil => nil
  | node _ _ nil rest => rest
  | node a attrs (node a' attrs' kids' rest') rest =>
    node a attrs (node a' attrs' kids' rest').dropLeaf rest

/-- The first leaf with its attributes. -/
def leaf : Shape → List Addr
  | nil => []
  | node a attrs nil _ => attrs ++ [a]
  | node _ _ (node a' attrs' kids' rest') _ => (node a' attrs' kids' rest').leaf

/-- The nodes are those of the first leaf and then the others. -/
theorem leaf_append (f : Shape) : f.leaf ++ f.dropLeaf.nodes = f.nodes := by
  induction f with
  | nil => rfl
  | node a attrs kids rest ih _ =>
    cases kids with
    | nil => simp [leaf, dropLeaf, nodes]
    | node a' attrs' kids' rest' =>
      rw [leaf, dropLeaf, nodes, nodes, ← ih]
      simp only [List.append_assoc]

theorem mem_nodes_of_mem_leaf {f : Shape} {b : Addr} (hb : b ∈ f.leaf) : b ∈ f.nodes := by
  rw [← f.leaf_append]
  exact List.mem_append_left _ hb

theorem mem_nodes_of_mem_dropLeaf {f : Shape} {b : Addr} (hb : b ∈ f.dropLeaf.nodes) :
    b ∈ f.nodes := by
  rw [← f.leaf_append]
  exact List.mem_append_right _ hb

theorem nodup_dropLeaf {f : Shape} (hnd : f.nodes.Nodup) : f.dropLeaf.nodes.Nodup := by
  rw [← f.leaf_append] at hnd
  exact (List.nodup_append.mp hnd).2.1

/-- The parts of a shape have their own nodes. -/
structure Distinct (a : Addr) (attrs : List Addr) (kids rest : Shape) : Prop where
  nodup_kids : kids.nodes.Nodup
  nodup_attrs : attrs.Nodup
  notMem_kids : a ∉ kids.nodes
  notMem_attrs : a ∉ attrs
  notMem_rest : a ∉ rest.nodes
  kids_attrs : ∀ b ∈ kids.nodes, b ∉ attrs
  kids_rest : ∀ b ∈ kids.nodes, b ∉ rest.nodes
  attrs_rest : ∀ b ∈ attrs, b ∉ rest.nodes

theorem distinct_of_nodup {a : Addr} {attrs : List Addr} {kids rest : Shape}
    (hnd : (node a attrs kids rest).nodes.Nodup) : Distinct a attrs kids rest := by
  rw [nodes, List.append_assoc] at hnd
  obtain ⟨hkids, hnd, hbelow⟩ := List.nodup_append.mp hnd
  obtain ⟨hattrs, hnd, hbeside⟩ := List.nodup_append.mp hnd
  constructor
  · exact hkids
  · exact hattrs
  · exact fun h ↦ hbelow a h a (List.mem_append_right _ List.mem_cons_self) rfl
  · exact fun h ↦ hbeside a h a List.mem_cons_self rfl
  · exact (List.nodup_cons.mp hnd).1
  · exact fun b hb h ↦ hbelow b hb b (List.mem_append_left _ h) rfl
  · exact fun b hb h ↦ hbelow b hb b (List.mem_append_right _ (List.mem_cons_of_mem _ h)) rfl
  · exact fun b hb h ↦ hbeside b hb b (List.mem_cons_of_mem _ h) rfl

/-- A leaf is at least one node. -/
theorem leaf_ne_nil (a : Addr) (attrs : List Addr) (kids rest : Shape) :
    (node a attrs kids rest).leaf ≠ [] := by
  induction kids generalizing a attrs rest with
  | nil => exact List.append_ne_nil_of_right_ne_nil _ (List.cons_ne_nil _ _)
  | node a' attrs' kids' rest' ih _ => exact ih a' attrs' rest'

/-- How far the first leaf is down. -/
def depth : Shape → Nat
  | nil => 0
  | node _ _ kids _ => kids.depth + 1

theorem depth_le (f : Shape) : f.depth ≤ f.nodes.length := by
  induction f with
  | nil => exact Nat.le_refl 0
  | node a attrs kids rest ih _ =>
    rw [depth, nodes, List.length_append, List.length_append, List.length_cons]
    omega

end Shape

namespace Store

variable {d d' d'' : Store} {L : Side → Addr → List Addr} {s : Side} {a b c p this : Addr}
  {x y z : NodeAct} {link : Option Addr} {attrs l : List Addr} {f kids rest : Shape}

/-- The nodes of a list follow one another along `NextSibling`. -/
def Chained (d : Store) : Option Addr → List Addr → Prop
  | link, [] => link = none
  | link, a :: l => link = some a ∧ ∃ x, d.get a = some x ∧ Chained d x.nextSibling l

/-- The attributes of a node. -/
def HasAttrs (d : Store) (x : NodeAct) (attrs : List Addr) : Prop :=
  if x.nodeType = .ELEMENT_NODE then d.Chained x.firstAttr attrs else attrs = []

/-- The nodes of a shape, reached through a link from their parent. -/
def Holds (d : Store) (p : Addr) : Option Addr → Shape → Prop
  | link, .nil => link = none
  | link, .node a attrs kids rest => link = some a ∧ ∃ x, d.get a = some x ∧
      x.parentNode = some p ∧ d.HasAttrs x attrs ∧ Holds d a x.firstChild kids ∧
      Holds d p x.nextSibling rest

/-- A list is read as it was where its nodes are. -/
theorem Chained.congr (h : d.Chained link l) (heq : ∀ b ∈ l, d'.get b = d.get b) :
    d'.Chained link l := by
  induction l generalizing link with
  | nil => exact h
  | cons a l ih =>
    obtain ⟨rfl, x, hx, hl⟩ := h
    obtain ⟨ha, heq⟩ := List.forall_mem_cons.mp heq
    exact ⟨rfl, x, ha.trans hx, ih hl heq⟩

theorem HasAttrs.congr (h : d.HasAttrs x attrs) (heq : ∀ b ∈ attrs, d'.get b = d.get b) :
    d'.HasAttrs x attrs := by
  unfold HasAttrs at h ⊢
  split
  · rename_i ht
    rw [if_pos ht] at h
    exact h.congr heq
  · rename_i ht
    rw [if_neg ht] at h
    exact h

/-- A shape is read as it was where its nodes are. -/
theorem Holds.congr (h : d.Holds p link f) (heq : ∀ b ∈ f.nodes, d'.get b = d.get b) :
    d'.Holds p link f := by
  induction f generalizing p link with
  | nil => exact h
  | node a attrs kids rest ihKids ihRest =>
    obtain ⟨rfl, x, hx, hpar, hattrs, hkids, hrest⟩ := h
    have hmem : ∀ b, b ∈ kids.nodes ∨ b ∈ attrs ∨ b = a ∨ b ∈ rest.nodes →
        b ∈ (Shape.node a attrs kids rest).nodes := by
      intro b hb
      simpa [Shape.nodes] using hb
    refine ⟨rfl, x, (heq a (hmem a (.inr (.inr (.inl rfl))))).trans hx, hpar, ?_, ?_, ?_⟩
    · exact hattrs.congr fun b hb ↦ heq b (hmem b (.inr (.inl hb)))
    · exact ihKids hkids fun b hb ↦ heq b (hmem b (.inl hb))
    · exact ihRest hrest fun b hb ↦ heq b (hmem b (.inr (.inr (.inr hb))))

/-- The nodes of a shape are in memory. -/
theorem Chained.mem (h : d.Chained link l) : ∀ b ∈ l, b ∈ d.nodes := by
  induction l generalizing link with
  | nil => exact fun b hb ↦ absurd hb List.not_mem_nil
  | cons a l ih =>
    obtain ⟨rfl, x, hx, hl⟩ := h
    exact List.forall_mem_cons.mpr ⟨mem_of_get hx, ih hl⟩

theorem HasAttrs.mem (h : d.HasAttrs x attrs) : ∀ b ∈ attrs, b ∈ d.nodes := by
  unfold HasAttrs at h
  split at h
  · exact h.mem
  · rw [h]
    exact fun b hb ↦ absurd hb List.not_mem_nil

theorem Holds.mem (h : d.Holds p link f) : ∀ b ∈ f.nodes, b ∈ d.nodes := by
  induction f generalizing p link with
  | nil => exact fun b hb ↦ absurd hb List.not_mem_nil
  | node a attrs kids rest ihKids ihRest =>
    obtain ⟨rfl, x, hx, hpar, hattrs, hkids, hrest⟩ := h
    intro b hb
    simp only [Shape.nodes, List.mem_append, List.mem_cons] at hb
    rcases hb with (hb | hb) | rfl | hb
    · exact ihKids hkids b hb
    · exact hattrs.mem b hb
    · exact mem_of_get hx
    · exact ihRest hrest b hb

/-- What is below a node is less than what is in memory. -/
theorem Holds.length_lt (h : d.Holds a link f) (hmem : a ∈ d.nodes) (hnd : f.nodes.Nodup)
    (ha : a ∉ f.nodes) : f.nodes.length < d.nodes.size := by
  have hsub : (a :: f.nodes).Subperm d.nodes.keys :=
    List.Nodup.subperm (List.nodup_cons.mpr ⟨ha, hnd⟩) (List.forall_mem_cons.mpr ⟨hmem, h.mem⟩)
  exact Nat.lt_of_succ_le hsub.length_le

/-! ## What is freed -/

/-- The nodes of a list were freed, and nothing else was changed but for some nodes. -/
structure Freed (d d' : Store) (l : List Addr) (changed : Addr → Prop) : Prop where
  gone : ∀ b ∈ l, b ∉ d'.nodes
  kept : ∀ b, b ∉ l → (b ∈ d'.nodes ↔ b ∈ d.nodes)
  same : ∀ b, b ∉ l → ¬ changed b → d'.get b = d.get b

/-- A node that is in memory is freed, alone. -/
theorem free_spec (ha : a ∈ d.nodes) :
    ∃ d', d.free a = some d' ∧ Freed d d' [a] fun _ ↦ False := by
  refine ⟨{ d with nodes := d.nodes.erase a }, ?_, ?_, ?_, ?_⟩
  · unfold free Heap.free
    rw [if_pos ha]
    rfl
  · intro b hb
    rw [List.mem_singleton.mp hb]
    exact fun hmem ↦ (AList.mem_erase.mp hmem).1 rfl
  · intro b hb
    have hne : b ≠ a := fun heq ↦ hb (List.mem_singleton.mpr heq)
    exact ⟨fun hmem ↦ (AList.mem_erase.mp hmem).2, fun hmem ↦ AList.mem_erase.mpr ⟨hne, hmem⟩⟩
  · intro b hb _
    have hne : b ≠ a := fun heq ↦ hb (List.mem_singleton.mpr heq)
    exact (Heap.get_erase d.nodes a b).trans (if_neg hne)

theorem Freed.refl (d : Store) (changed : Addr → Prop) : Freed d d [] changed :=
  ⟨fun _ hb ↦ absurd hb List.not_mem_nil, fun _ _ ↦ Iff.rfl, fun _ _ _ ↦ rfl⟩

/-- What is freed in two parts. -/
theorem Freed.trans {l' : List Addr} {changed changed' : Addr → Prop} (h : Freed d d' l changed)
    (h' : Freed d' d'' l' changed') : Freed d d'' (l ++ l') fun b ↦ changed b ∨ changed' b := by
  refine ⟨?_, ?_, ?_⟩
  · intro b hb
    rcases List.mem_append.mp hb with hb | hb
    · by_cases hb' : b ∈ l'
      · exact h'.gone b hb'
      · exact fun hmem ↦ h.gone b hb ((h'.kept b hb').mp hmem)
    · exact h'.gone b hb
  · intro b hb
    rw [List.mem_append, not_or] at hb
    rw [h'.kept b hb.2, h.kept b hb.1]
  · intro b hb hch
    rw [List.mem_append, not_or] at hb
    rw [not_or] at hch
    rw [h'.same b hb.2 hch.2, h.same b hb.1 hch.1]

/-- What is freed need not be said to be changed. -/
theorem Freed.mono {changed changed' : Addr → Prop} (h : Freed d d' l changed)
    (himp : ∀ b, b ∉ l → changed b → changed' b) : Freed d d' l changed' :=
  ⟨h.gone, h.kept, fun b hb hch ↦ h.same b hb fun hb' ↦ hch (himp b hb hb')⟩

/-- A node is written, and nothing freed. -/
theorem modify_freed (hx : d.get a = some x) (g : NodeAct → NodeAct) :
    ∃ d', d.modify a g = some d' ∧ Freed d d' [] (· = a) ∧ d'.get a = some (g x) := by
  obtain ⟨d', hd', hw⟩ := modify_spec (mem_of_get hx) g
  refine ⟨d', hd', ⟨fun _ hb ↦ absurd hb List.not_mem_nil, fun _ _ ↦ hw.mem_iff, ?_⟩, ?_⟩
  · intro b _ hb
    rw [hw.get b]
    cases d.get b <;> simp [hb]
  · rw [hw.get_some hx, if_pos rfl]

/-- The loop over the attributes frees them all. -/
theorem deleteAttrs_spec {n : Nat} (h : d.Chained link l) (hnd : l.Nodup) (hn : l.length ≤ n) :
    ∃ d', deleteAttrs n d link = some (d', l) ∧ Freed d d' l fun _ ↦ False := by
  induction l generalizing d link n with
  | nil =>
    obtain rfl : link = none := h
    exact ⟨d, by cases n <;> rfl, Freed.refl d _⟩
  | cons a l ih =>
    obtain ⟨rfl, x, hx, hl⟩ := h
    obtain ⟨ha, hnd⟩ := List.nodup_cons.mp hnd
    obtain ⟨n, rfl⟩ := Nat.exists_eq_add_one_of_ne_zero (Nat.ne_of_gt (Nat.lt_of_lt_of_le
      (Nat.succ_pos l.length) hn))
    obtain ⟨d₁, hd₁, hf₁⟩ := free_spec (mem_of_get hx)
    have hl₁ : d₁.Chained x.nextSibling l := by
      refine hl.congr fun b hb ↦ hf₁.same b ?_ id
      intro hba
      exact ha (List.mem_singleton.mp hba ▸ hb)
    obtain ⟨d₂, hd₂, hf₂⟩ := ih hl₁ hnd (Nat.le_of_succ_le_succ hn)
    refine ⟨d₂, ?_, (hf₁.trans hf₂).mono fun _ _ h ↦ h.elim id id⟩
    rw [deleteAttrs, hx]
    change (d.free a).bind _ = _
    rw [hd₁]
    change (deleteAttrs n d₁ x.nextSibling).bind _ = _
    rw [hd₂]
    rfl

/-- The attributes of a node are freed. -/
theorem deleteAttrsOf_spec (hx : d.get a = some x) (h : d.HasAttrs x attrs) (hnd : attrs.Nodup)
    (ha : a ∉ attrs) :
    ∃ d', d.deleteAttrsOf a = some (d', attrs) ∧ Freed d d' attrs (· = a) ∧ a ∈ d'.nodes := by
  unfold HasAttrs at h
  unfold deleteAttrsOf
  rw [hx]
  split at h
  · rename_i ht
    have hle : attrs.length ≤ d.nodes.size :=
      (List.Nodup.subperm hnd fun b hb ↦ h.mem b hb).length_le
    obtain ⟨d₁, hd₁, hf₁⟩ := deleteAttrs_spec h hnd hle
    have hx₁ : d₁.get a = some x := (hf₁.same a ha id).trans hx
    obtain ⟨d₂, hd₂, hf₂, hx₂⟩ :=
      modify_freed hx₁ fun x ↦ { x with firstAttr := none, lastAttr := none }
    refine ⟨d₂, ?_, ?_, mem_of_get hx₂⟩
    · change (if x.nodeType = .ELEMENT_NODE then (deleteAttrs d.nodes.size d x.firstAttr).bind _
        else _) = _
      rw [if_pos ht, hd₁]
      change (d₁.modify a _).bind _ = _
      rw [hd₂]
      rfl
    · have hf := hf₁.trans hf₂
      rw [List.append_nil] at hf
      exact hf.mono fun b _ h ↦ h.elim False.elim id
  · rename_i ht
    obtain rfl := h
    refine ⟨d, ?_, Freed.refl d _, mem_of_get hx⟩
    change (if x.nodeType = .ELEMENT_NODE then _ else some (d, [])) = _
    rw [if_neg ht]

/-- A first child that is a leaf is unlinked and freed, with its attributes. -/
theorem deleteNodeTree_leaf (n : Nat) (hz : d.get p = some z) (hx : d.get a = some x)
    (hpar : x.parentNode = some p) (hleaf : x.firstChild = none) (h : d.HasAttrs x attrs)
    (hnd : attrs.Nodup) (ha : a ∉ attrs) (hp : p ∉ attrs) (hpa : p ≠ a) (hthis : a ≠ this) :
    ∃ d', d.deleteNodeTree this (n + 1) a = some (d', attrs ++ [a]) ∧
      Freed d d' (attrs ++ [a]) (· = p) ∧
      d'.get p = some { z with firstChild := x.nextSibling, lastChild := none } := by
  obtain ⟨d₁, hd₁, hf₁, hz₁⟩ := modify_freed hz
    fun nap ↦ { nap with firstChild := x.nextSibling, lastChild := none }
  have hx₁ : d₁.get a = some x := (hf₁.same a List.not_mem_nil hpa.symm).trans hx
  have h₁ : d₁.HasAttrs x attrs := h.congr fun b hb ↦
    hf₁.same b List.not_mem_nil fun heq ↦ hp (heq ▸ hb)
  obtain ⟨d₂, hd₂, hf₂, hmem₂⟩ := deleteAttrsOf_spec hx₁ h₁ hnd ha
  obtain ⟨d₃, hd₃, hf₃⟩ := free_spec hmem₂
  refine ⟨d₃, ?_, ?_, ?_⟩
  · rw [deleteNodeTree, hx]
    change (match x.firstChild with
      | some child => deleteNodeTree d this n child
      | none => (d.modifyAt x.parentNode fun nap ↦
        { nap with firstChild := x.nextSibling, lastChild := none }).bind _) = _
    rw [hleaf, hpar]
    change (d.modify p _).bind _ = _
    rw [hd₁]
    change (d₁.deleteAttrsOf a).bind _ = _
    rw [hd₂]
    change (if a ≠ this then (d₂.free a).bind _ else _) = _
    rw [if_pos hthis, hd₃]
    rfl
  · have hf := hf₁.trans (hf₂.trans hf₃)
    rw [List.nil_append] at hf
    refine hf.mono fun b hb hch ↦ ?_
    rcases hch with hch | rfl | hch
    · exact hch
    · exact absurd (List.mem_append_right _ (List.mem_singleton.mpr rfl)) hb
    · exact hch.elim
  · rw [hf₃.same p (fun heq ↦ hpa (List.mem_singleton.mp heq)) id, hf₂.same p hp hpa, hz₁]

/-- The call goes down to the first child. -/
theorem deleteNodeTree_child (n : Nat) (hz : d.get p = some z) (hfirst : z.firstChild = some a) :
    d.deleteNodeTree this (n + 1) p = d.deleteNodeTree this n a := by
  rw [deleteNodeTree, hz]
  change (match z.firstChild with
    | some child => deleteNodeTree d this n child
    | none => _) = _
  rw [hfirst]

/-- The first leaf below a node is freed, and what is left is in order. -/
theorem deleteNodeTree_spec {n : Nat} (hz : d.get p = some z) (h : d.Holds p z.firstChild f)
    (hne : f ≠ .nil) (hnd : f.nodes.Nodup) (hp : p ∉ f.nodes) (hthis : this ∉ f.nodes)
    (hn : f.depth < n) : ∃ d' link last, d.deleteNodeTree this n p = some (d', f.leaf) ∧
      Freed d d' f.leaf (fun b ↦ b = p ∨ b ∈ f.nodes) ∧
      d'.get p = some { z with firstChild := link, lastChild := last } ∧
      d'.Holds p link f.dropLeaf ∧ (f.dropLeaf = .nil → last = none) := by
  induction f generalizing d p z n with
  | nil => exact absurd rfl hne
  | node a attrs kids rest ihKids _ =>
    obtain ⟨hfirst, x, hx, hpar, hattrs, hkids, hrest⟩ := h
    obtain ⟨n, rfl⟩ := Nat.exists_eq_add_one_of_ne_zero (Nat.ne_of_gt (Nat.zero_lt_of_lt hn))
    have hparts := Shape.distinct_of_nodup hnd
    simp only [Shape.nodes, List.mem_append, List.mem_cons, not_or] at hp hthis
    rw [deleteNodeTree_child n hz hfirst]
    have hdepth : kids.depth < n := Nat.lt_of_succ_lt_succ hn
    cases kids with
    | nil =>
      obtain ⟨n, rfl⟩ := Nat.exists_eq_add_one_of_ne_zero (Nat.ne_of_gt (Nat.zero_lt_of_lt hdepth))
      obtain ⟨d', hd', hf, hz'⟩ := deleteNodeTree_leaf n hz hx hpar hkids hattrs hparts.nodup_attrs
        hparts.notMem_attrs hp.1.2 hp.2.1 (Ne.symm hthis.2.1)
      refine ⟨d', x.nextSibling, none, hd', hf.mono fun b _ hb ↦ .inl hb, hz', ?_, fun _ ↦ rfl⟩
      refine hrest.congr fun b hb ↦ hf.same b ?_ ?_
      · intro hmem
        rcases List.mem_append.mp hmem with hmem | hmem
        · exact hparts.attrs_rest b hmem hb
        · exact hparts.notMem_rest (List.mem_singleton.mp hmem ▸ hb)
      · rintro rfl
        exact hp.2.2 hb
    | node a' attrs' kids' rest' =>
      obtain ⟨d', link, last, hd', hf, hx', hholds, -⟩ := ihKids hx hkids (fun h ↦ nomatch h)
        hparts.nodup_kids hparts.notMem_kids hthis.1.1 hdepth
      -- only the node `a` and what is below it is another than before
      have hsame : ∀ b, b ∉ (Shape.node a' attrs' kids' rest').nodes → b ≠ a →
          d'.get b = d.get b := by
        intro b hb hba
        refine hf.same b (mt Shape.mem_nodes_of_mem_leaf hb) ?_
        rintro (heq | hmem)
        · exact hba heq
        · exact hb hmem
      refine ⟨d', z.firstChild, z.lastChild, hd', hf.mono ?_, ?_, ?_, fun h ↦ nomatch h⟩
      · intro b _ hb
        refine .inr ?_
        rw [Shape.nodes]
        simp only [List.mem_append, List.mem_cons]
        rcases hb with rfl | hb
        · exact .inr (.inl rfl)
        · exact .inl (.inl hb)
      · rw [hsame p hp.1.1 hp.2.1, hz]
      · refine ⟨hfirst, _, hx', hpar, ?_, hholds, ?_⟩
        · refine HasAttrs.congr (d := d) hattrs fun b hb ↦ hsame b ?_ ?_
          · exact fun hmem ↦ hparts.kids_attrs b hmem hb
          · exact fun heq ↦ hparts.notMem_attrs (heq ▸ hb)
        · refine hrest.congr fun b hb ↦ hsame b ?_ ?_
          · exact fun hmem ↦ hparts.kids_rest b hmem hb
          · exact fun heq ↦ hparts.notMem_rest (heq ▸ hb)

/-- The loop ends at a node without children. -/
theorem deleteLoop_leaf (n : Nat) (hx : d.get a = some x) (hfirst : x.firstChild = none) :
    deleteLoop a (n + 1) d = some (d, []) := by
  rw [deleteLoop, hx]
  change (match x.firstChild with
    | none => some (d, [])
    | some _ => _) = _
  rw [hfirst]

/-- One turn of the loop, and the others. -/
theorem deleteLoop_child {n : Nat} {l' : List Addr} (hx : d.get a = some x)
    (hfirst : x.firstChild = some b)
    (htree : d.deleteNodeTree a d.nodes.size a = some (d', l))
    (hloop : deleteLoop a n d' = some (d'', l')) :
    deleteLoop a (n + 1) d = some (d'', l ++ l') := by
  rw [deleteLoop, hx]
  change (match x.firstChild with
    | none => some (d, [])
    | some _ => (deleteNodeTree d a d.nodes.size a).bind _) = _
  rw [hfirst]
  change (deleteNodeTree d a d.nodes.size a).bind _ = _
  rw [htree]
  change (deleteLoop a n d').bind _ = _
  rw [hloop]
  rfl

/-- The loop frees all that is below the node, in order. -/
theorem deleteLoop_spec {n : Nat} (hx : d.get a = some x) (h : d.Holds a x.firstChild f)
    (hnd : f.nodes.Nodup) (ha : a ∉ f.nodes) (hlast : f = .nil → x.lastChild = none)
    (hn : f.nodes.length < n) : ∃ d', deleteLoop a n d = some (d', f.nodes) ∧
      Freed d d' f.nodes (· = a) ∧
      d'.get a = some { x with firstChild := none, lastChild := none } := by
  induction n generalizing d x f with
  | zero => exact absurd hn (Nat.not_lt_zero _)
  | succ n ih =>
    cases f with
    | nil =>
      refine ⟨d, deleteLoop_leaf n hx h, Freed.refl d _, ?_⟩
      have hlast := hlast rfl
      obtain ⟨nodeType, nodeName, nodeValue, parentNode, firstChild, lastChild⟩ := x
      obtain rfl : firstChild = none := h
      obtain rfl : lastChild = none := hlast
      exact hx
    | node b attrs kids rest =>
      have hsize := Nat.lt_of_le_of_lt (Shape.node b attrs kids rest).depth_le
        (h.length_lt (mem_of_get hx) hnd ha)
      obtain ⟨d₁, link, last, hd₁, hf₁, hx₁, h₁, hlast₁⟩ :=
        deleteNodeTree_spec hx h (fun h ↦ nomatch h) hnd ha ha hsize
      have hcut := (Shape.node b attrs kids rest).leaf_append
      have hless : (Shape.node b attrs kids rest).dropLeaf.nodes.length < n := by
        have hpos := List.length_pos_of_ne_nil (Shape.leaf_ne_nil b attrs kids rest)
        have hlength := congrArg List.length hcut
        rw [List.length_append] at hlength
        omega
      obtain ⟨d₂, hd₂, hf₂, hx₂⟩ := ih hx₁ h₁ (Shape.nodup_dropLeaf hnd)
        (mt Shape.mem_nodes_of_mem_dropLeaf ha) hlast₁ hless
      refine ⟨d₂, ?_, ?_, hx₂⟩
      · rw [← hcut]
        exact deleteLoop_child hx h.1 hd₁ hd₂
      · have hf := hf₁.trans hf₂
        rw [hcut] at hf
        refine hf.mono fun c hc hch ↦ ?_
        rcases hch with (hch | hch) | hch
        · exact hch
        · exact absurd hch hc
        · exact hch

/-! ## Trees of documents -/

/-- The nodes of which the attributes are freed. -/
def IsElement (d : Store) (a : Addr) : Prop := ∃ x, d.get a = some x ∧ x.nodeType = .ELEMENT_NODE

/-- A node goes with an element, or is one of its attributes. -/
def Attached (d : Store) (L : Side → Addr → List Addr) (e b : Addr) : Prop :=
  b = e ∨ d.IsElement e ∧ b ∈ L .attr e

/-- The nodes below a node. -/
def Below (L : Side → Addr → List Addr) (a b : Addr) : Prop :=
  Relation.TransGen (fun a b ↦ b ∈ L .child a) a b

/-- The nodes that go with a node: those below it, and the attributes of the elements there. -/
def Subtree (d : Store) (L : Side → Addr → List Addr) (a b : Addr) : Prop :=
  ∃ e, Below L a e ∧ d.Attached L e b

/-- The attributes of an element, which are freed with it. -/
def attrsOf (d : Store) (L : Side → Addr → List Addr) (a : Addr) : List Addr :=
  if (d.get a).any (·.nodeType = .ELEMENT_NODE) then L .attr a else []

/-- The shape of a list of siblings, down to some depth. -/
def shapeOf (d : Store) (L : Side → Addr → List Addr) : Nat → List Addr → Shape
  | 0, _ => .nil
  | n + 1, l =>
    l.foldr (fun c rest ↦ .node c (d.attrsOf L c) (shapeOf d L n (L .child c)) rest) .nil

variable {n : Nat}

theorem mem_attrsOf : b ∈ d.attrsOf L a ↔ d.IsElement a ∧ b ∈ L .attr a := by
  have hiff : (d.get a).any (·.nodeType = .ELEMENT_NODE) = true ↔ d.IsElement a := by
    simp only [IsElement, Option.any_eq_true, decide_eq_true_eq]
  rw [attrsOf, ← hiff]
  split
  · rename_i ht
    exact ⟨fun hb ↦ ⟨ht, hb⟩, fun hb ↦ hb.2⟩
  · rename_i ht
    exact ⟨fun hb ↦ absurd hb List.not_mem_nil, fun hb ↦ absurd hb.1 ht⟩

theorem shapeOf_cons (d : Store) (L : Side → Addr → List Addr) (n : Nat) (c : Addr)
    (l : List Addr) : shapeOf d L (n + 1) (c :: l) =
      .node c (d.attrsOf L c) (shapeOf d L n (L .child c)) (shapeOf d L (n + 1) l) := rfl

/-- The links of a list, followed. -/
theorem chained_of_dseg {q t : Option Addr} (h : DSeg d.next d.prev q link l t none)
    (hmem : ∀ b ∈ l, b ∈ d.nodes) : d.Chained link l := by
  induction l generalizing q link with
  | nil => exact h.1
  | cons a l ih =>
    obtain ⟨rfl, -, hl⟩ := h
    obtain ⟨ha, hmem⟩ := List.forall_mem_cons.mp hmem
    obtain ⟨x, hx⟩ := exists_get ha
    have hnext : d.next a = x.nextSibling := by rw [next, hx, Option.bind_some]
    rw [hnext] at hl
    exact ⟨rfl, x, hx, ih hl hmem⟩

/-- The attributes of a node are those of its list. -/
theorem WellLinked.hasAttrs (h : d.WellLinked L) (hx : d.get a = some x) :
    d.HasAttrs x (d.attrsOf L a) := by
  unfold HasAttrs attrsOf
  rw [hx, Option.any_some]
  by_cases ht : x.nodeType = .ELEMENT_NODE
  · rw [if_pos ht, if_pos (decide_eq_true ht)]
    exact chained_of_dseg (h.list .attr a x hx) fun b hb ↦ h.linked.mem_nodes hb
  · rw [if_neg ht, if_neg (mt of_decide_eq_true ht)]

/-- The nodes below a node are in the shape of its children. -/
theorem WellLinked.holds_shapeOf (h : d.WellLinked L) {q t : Option Addr}
    (hl : DSeg d.next d.prev q link l t none) (hmem : ∀ c ∈ l, c ∈ L .child p)
    (hdepth : ∀ c ∈ l, HasDepth L n c) : d.Holds p link (d.shapeOf L n l) := by
  induction n generalizing p l link q t with
  | zero =>
    cases l with
    | nil => exact hl.1
    | cons c l => exact (hdepth c List.mem_cons_self).elim
  | succ n ih =>
    induction l generalizing link q with
    | nil => exact hl.1
    | cons c l ihl =>
      obtain ⟨rfl, -, hl⟩ := hl
      obtain ⟨hc, hmem⟩ := List.forall_mem_cons.mp hmem
      obtain ⟨hdc, hdepth⟩ := List.forall_mem_cons.mp hdepth
      obtain ⟨x, hx, hpar, -⟩ := (h.mem .child p c).mp hc
      have hnext : d.next c = x.nextSibling := by rw [next, hx, Option.bind_some]
      rw [hnext] at hl
      rw [shapeOf_cons]
      refine ⟨rfl, x, hx, hpar, h.hasAttrs hx, ?_, ihl hl hmem hdepth⟩
      exact ih (h.list .child c x hx) (fun e he ↦ he) hdc

/-- The nodes of a shape are the siblings, those below them, and the attributes of both. -/
theorem mem_shapeOf (hdepth : ∀ c ∈ l, HasDepth L n c) :
    b ∈ (d.shapeOf L n l).nodes ↔ ∃ c ∈ l, ∃ e,
      Relation.ReflTransGen (fun a b ↦ b ∈ L .child a) c e ∧ d.Attached L e b := by
  induction n generalizing l with
  | zero =>
    cases l with
    | nil => simp [shapeOf, Shape.nodes]
    | cons c l => exact (hdepth c List.mem_cons_self).elim
  | succ n ih =>
    induction l with
    | nil => simp [shapeOf, Shape.nodes]
    | cons c l ihl =>
      obtain ⟨hdc, hdepth⟩ := List.forall_mem_cons.mp hdepth
      rw [shapeOf_cons, Shape.nodes, List.mem_append, List.mem_append, List.mem_cons, ihl hdepth,
        ih hdc, mem_attrsOf]
      constructor
      · rintro ((⟨k, hk, e, hke, hb⟩ | hb) | rfl | ⟨c', hc', hb⟩)
        · exact ⟨c, List.mem_cons_self, e, .head hk hke, hb⟩
        · exact ⟨c, List.mem_cons_self, c, .refl, .inr hb⟩
        · exact ⟨b, List.mem_cons_self, b, .refl, .inl rfl⟩
        · exact ⟨c', List.mem_cons_of_mem c hc', hb⟩
      · rintro ⟨c', hc', e, hce, hb⟩
        rcases List.mem_cons.mp hc' with rfl | hc'
        · rcases Relation.ReflTransGen.cases_head hce with rfl | ⟨k, hk, hke⟩
          · exact hb.elim (fun heq ↦ .inr (.inl heq)) fun hb ↦ .inl (.inr hb)
          · exact .inl (.inl ⟨k, hk, e, hke, hb⟩)
        · exact .inr (.inr ⟨c', hc', e, hce, hb⟩)

/-- What goes with a node has the node above it. -/
theorem WellLinked.above_of_attached (h : d.WellLinked L) {e : Addr}
    (hce : Relation.ReflTransGen (fun a b ↦ b ∈ L .child a) c e) (hb : d.Attached L e b) :
    Relation.ReflTransGen d.IsParent c b := by
  have hup : Relation.ReflTransGen d.IsParent c e :=
    hce.lift id fun _ _ hk ↦ h.linked.parent_eq hk
  rcases hb with rfl | ⟨-, hb⟩
  · exact hup
  · exact hup.tail (h.linked.parent_eq hb)

theorem WellLinked.above_of_mem (h : d.WellLinked L) (hdepth : ∀ c ∈ l, HasDepth L n c)
    (hb : b ∈ (d.shapeOf L n l).nodes) : ∃ c ∈ l, Relation.ReflTransGen d.IsParent c b := by
  obtain ⟨c, hc, e, hce, hb⟩ := (mem_shapeOf hdepth).mp hb
  exact ⟨c, hc, h.above_of_attached hce hb⟩

/-- The node itself is not in the shape of its children. -/
theorem WellLinked.notMem_shapeOf (h : d.WellLinked L) (hdepth : HasDepth L (n + 1) a) :
    a ∉ (d.shapeOf L n (L .child a)).nodes := by
  intro hmem
  obtain ⟨c, hc, hca⟩ := h.above_of_mem hdepth hmem
  exact h.acyclic a (.head' (h.linked.parent_eq hc) hca)

/-- No attribute of a node is in the shape of its children. -/
theorem WellLinked.attr_notMem_shapeOf (h : d.WellLinked L) (hdepth : HasDepth L (n + 1) a)
    (hb : b ∈ L .attr a) : b ∉ (d.shapeOf L n (L .child a)).nodes := by
  intro hmem
  obtain ⟨c, hc, e, hce, rfl | ⟨-, hbe⟩⟩ := (mem_shapeOf hdepth).mp hmem
  · obtain ⟨k, hk⟩ : ∃ k, b ∈ L .child k := by
      rcases Relation.ReflTransGen.cases_tail hce with rfl | ⟨k, -, hk⟩
      · exact ⟨a, hc⟩
      · exact ⟨k, hk⟩
    cases (h.linked.place_eq hb hk).1
  · obtain rfl := (h.linked.place_eq hb hbe).2
    exact h.acyclic a (h.transGen_parent (.head' hc hce))

/-- Each node is in a shape once. -/
theorem WellLinked.nodup_shapeOf (h : d.WellLinked L) (hnd : l.Nodup)
    (hmem : ∀ c ∈ l, c ∈ L .child p) (hdepth : ∀ c ∈ l, HasDepth L n c) :
    (d.shapeOf L n l).nodes.Nodup := by
  induction n generalizing p l with
  | zero => exact List.nodup_nil
  | succ n ih =>
    induction l with
    | nil => exact List.nodup_nil
    | cons c l ihl =>
      obtain ⟨hcl, hnd⟩ := List.nodup_cons.mp hnd
      obtain ⟨hc, hmem⟩ := List.forall_mem_cons.mp hmem
      obtain ⟨hdc, hdepth⟩ := List.forall_mem_cons.mp hdepth
      have hself : Relation.ReflTransGen d.IsParent c c := .refl
      -- nothing that is at or below `c` goes with the siblings behind it
      have hrest : ∀ b, Relation.ReflTransGen d.IsParent c b →
          b ∉ (d.shapeOf L (n + 1) l).nodes := by
        intro b hcb hb
        obtain ⟨c', hc', hb⟩ := h.above_of_mem hdepth hb
        have heq := h.eq_of_above (h.linked.parent_eq hc) (h.linked.parent_eq (hmem c' hc')) hcb hb
        exact hcl (heq ▸ hc')
      have hattr : ∀ b ∈ d.attrsOf L c, d.IsParent c b := fun b hb ↦
        h.linked.parent_eq (mem_attrsOf.mp hb).2
      rw [shapeOf_cons, Shape.nodes]
      refine List.nodup_append.mpr ⟨List.nodup_append.mpr ⟨?_, ?_, ?_⟩, ?_, ?_⟩
      · exact ih (h.nodup .child c) (fun e he ↦ he) hdc
      · unfold attrsOf
        split
        · exact h.nodup .attr c
        · exact List.nodup_nil
      · rintro b hb b' hb' rfl
        exact h.attr_notMem_shapeOf hdc (mem_attrsOf.mp hb').2 hb
      · exact List.nodup_cons.mpr ⟨hrest c hself, ihl hnd hmem hdepth⟩
      · rintro b hb b' hb' rfl
        rcases List.mem_append.mp hb with hb | hb
        · rcases List.mem_cons.mp hb' with rfl | hb'
          · exact h.notMem_shapeOf hdc hb
          · obtain ⟨k, hk, hkb⟩ := h.above_of_mem hdc hb
            exact hrest b (.head (h.linked.parent_eq hk) hkb) hb'
        · rcases List.mem_cons.mp hb' with rfl | hb'
          · exact h.acyclic b (.single (hattr b hb))
          · exact hrest b (.single (hattr b hb)) hb'

/-- The shape of the children of a node has what goes with it. -/
theorem mem_shapeOf_child (hdepth : HasDepth L (n + 1) a) :
    b ∈ (d.shapeOf L n (L .child a)).nodes ↔ d.Subtree L a b := by
  rw [mem_shapeOf hdepth]
  constructor
  · rintro ⟨c, hc, e, hce, hb⟩
    exact ⟨e, .head' hc hce, hb⟩
  · rintro ⟨e, hae, hb⟩
    obtain ⟨c, hc, hce⟩ := Relation.TransGen.head'_iff.mp hae
    exact ⟨c, hc, e, hce, hb⟩

/-- **What is below a node, with the attributes of the elements there, is freed, each once.**  The
call ends without a fault, so that no freed node is touched; nothing else is freed, and no other
node is changed but the one given, which is left without children. -/
theorem deleteNodeAct_spec (h : d.WellLinked L) (hx : d.get a = some x) :
    ∃ d' freed, d.deleteNodeAct a = some (d', freed) ∧ freed.Nodup ∧
      (∀ b, b ∈ freed ↔ d.Subtree L a b) ∧
      (∀ b, b ∈ d'.nodes ↔ b ∈ d.nodes ∧ ¬ d.Subtree L a b) ∧
      (∀ b, ¬ d.Subtree L a b → b ≠ a → d'.get b = d.get b) ∧
      d'.get a = some { x with firstChild := none, lastChild := none } := by
  have hmem := mem_of_get hx
  obtain ⟨n, hn⟩ := Nat.exists_eq_add_one_of_ne_zero
    (show d.nodes.size ≠ 0 from Nat.ne_of_gt (List.length_pos_of_mem hmem))
  have hdepth : HasDepth L (n + 1) a := hn ▸ h.hasDepth hmem
  have hiff : ∀ b, b ∈ (d.shapeOf L n (L .child a)).nodes ↔ d.Subtree L a b := fun b ↦
    mem_shapeOf_child hdepth
  have hholds : d.Holds a x.firstChild (d.shapeOf L n (L .child a)) :=
    h.holds_shapeOf (h.list .child a x hx) (fun c hc ↦ hc) hdepth
  have hnd : (d.shapeOf L n (L .child a)).nodes.Nodup :=
    h.nodup_shapeOf (h.nodup .child a) (fun c hc ↦ hc) hdepth
  have ha := h.notMem_shapeOf hdepth
  have hlast : d.shapeOf L n (L .child a) = .nil → x.lastChild = none := by
    intro hnil
    have hempty : L .child a = [] := by
      refine List.eq_nil_iff_forall_not_mem.mpr fun c hc ↦ ?_
      have hsub := (hiff c).mpr ⟨c, .single hc, .inl rfl⟩
      rw [hnil] at hsub
      exact List.not_mem_nil hsub
    have hdlist := h.list .child a x hx
    rw [hempty] at hdlist
    exact hdlist.2
  obtain ⟨d', hd', hf, hx'⟩ :=
    deleteLoop_spec hx hholds hnd ha hlast (hholds.length_lt hmem hnd ha)
  refine ⟨d', _, hd', hnd, hiff, fun b ↦ ?_, fun b hb hne ↦ ?_, hx'⟩
  · rw [← hiff b]
    by_cases hb : b ∈ (d.shapeOf L n (L .child a)).nodes
    · exact ⟨fun hmem ↦ absurd hmem (hf.gone b hb), fun hmem ↦ absurd hb hmem.2⟩
    · exact (hf.kept b hb).trans ⟨fun hmem ↦ ⟨hmem, hb⟩, And.left⟩
  · exact hf.same b (mt (hiff b).mp hb) hne

end Store

/-- A document with one text. -/
def textDocument : Store :=
  (((Call.createTextNode 1 ['t']).run (createDocument 0)).bind fun r ↦
    (Call.appendChild 0 1).run r.1).elim Store.empty Prod.fst

theorem reach_textDocument : machine.Reach (fun d c ↦ c.Safe d) textDocument := by
  have h₀ : machine.Reach (fun d c ↦ c.Safe d) (createDocument 0) := .init ⟨0, rfl⟩
  have hdoc : (createDocument 0).WellLinked _ :=
    Store.WellLinked.empty.create List.not_mem_nil .DOCUMENT_NODE none
  have h₁ := h₀.step (l := .createTextNode 1 ['t'])
    (show Call.Safe _ (.createTextNode _ _) from trivial) rfl
  exact h₁.step (l := .appendChild 0 1)
    (show Call.Safe _ (.appendChild 0 1) from hdoc.appendSafe_create (by decide) (by decide) rfl
      .TEXT_NODE (some ['t'])) rfl

/-- A document with one text is emptied. -/
theorem deleteNodeAct_spec_text : ∃ (d : Store) (L : Side → Addr → List Addr) (x : NodeAct),
    d.get 0 = some x ∧ x.firstChild = some 1 ∧ d.WellLinked L ∧
    ∃ (d' : Store) (freed : List Addr), d.deleteNodeAct 0 = some (d', freed) ∧ freed.Nodup ∧
      (∀ b, b ∈ freed ↔ d.Subtree L 0 b) ∧
      (∀ b, b ∈ d'.nodes ↔ b ∈ d.nodes ∧ ¬ d.Subtree L 0 b) ∧
      (∀ b, ¬ d.Subtree L 0 b → b ≠ 0 → d'.get b = d.get b) ∧
      d'.get 0 = some { x with firstChild := none, lastChild := none } := by
  obtain ⟨L, hl⟩ := reach_textDocument.invariant wellLinked_inductive
  exact ⟨_, L, _, rfl, rfl, hl, Store.deleteNodeAct_spec hl rfl⟩

/-- An attribute that was appended to a text stays in memory when the text is freed. -/
theorem text_attribute_kept : ∃ d L, machine.Reach (fun d c ↦ c.Safe d) d ∧ d.WellLinked L ∧
    Store.Below L 0 1 ∧ 2 ∈ L .attr 1 ∧
    ∃ d' freed, d.deleteNodeAct 0 = some (d', freed) ∧ 2 ∉ freed ∧ 2 ∈ d'.nodes := by
  obtain ⟨L₁, hl₁⟩ := reach_textDocument.invariant wellLinked_inductive
  have h₁ := reach_textDocument.step (l := .createAttribute 2 ['k'] ['v'])
    (show Call.Safe _ (.createAttribute _ _ _) from trivial) rfl
  have h₂ := h₁.step (l := .appendChild 1 2)
    (show Call.Safe _ (.appendChild 1 2) from hl₁.appendSafe_create (by decide) (by decide) rfl
      .ATTRIBUTE_NODE (some ['v'])) rfl
  obtain ⟨L, hl⟩ := h₂.invariant wellLinked_inductive
  refine ⟨_, L, h₂, hl, .single ((hl.mem .child 0 1).mpr ⟨_, rfl, rfl, rfl⟩),
    (hl.mem .attr 1 2).mpr ⟨_, rfl, rfl, rfl⟩, _, [1], rfl, by decide, by decide⟩

end Upnp.Dom
