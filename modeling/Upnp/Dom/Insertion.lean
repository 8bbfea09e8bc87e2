import Upnp.Dom.Owners
import Upnp.Dom.Removal

/-!
# Insertion of a node

A node without a parent is put into a list.  The first part says what keeps a
store linked when this is done; the second, that `appendChild` puts the node at
the end in this way.
-/

namespace Upnp.Dom.Store

open Upnp.Lib

variable {d d' : Store} {L : Side → Addr → List Addr} {g : Addr → NodeAct → NodeAct} {s : Side}
  {a c o p r : Addr} {x y z : NodeAct} {l : List Addr}

/-- A relation stays acyclic when it gets an edge from `p` to a node that does not lead to `p`. -/
theorem acyclic_of_edge {α : Type*} {q q' : α → α → Prop} {p c : α}
    (hq : ∀ a, ¬ Relation.TransGen q a a) (hsub : ∀ a b, q' a b → q a b ∨ a = p ∧ b = c)
    (hup : ¬ Relation.ReflTransGen q c p) (a : α) : ¬ Relation.TransGen q' a a := by
  have hpath : ∀ b, Relation.TransGen q' a b →
      Relation.TransGen q a b ∨ Relation.ReflTransGen q a p ∧ Relation.ReflTransGen q c b := by
    intro b hb
    induction hb with
    | single h =>
      rcases hsub _ _ h with h | ⟨rfl, rfl⟩
      · exact .inl (.single h)
      · exact .inr ⟨.refl, .refl⟩
    | tail _ h ih =>
      rcases hsub _ _ h with h | ⟨rfl, rfl⟩
      · exact ih.imp (fun ih ↦ ih.tail h) fun ih ↦ ⟨ih.1, ih.2.tail h⟩
      · rcases ih with ih | ih
        · exact .inr ⟨ih.to_reflTransGen, .refl⟩
        · exact absurd ih.2 hup
  intro hcycle
  rcases hpath a hcycle with h | ⟨hp, hc⟩
  · exact hq a h
  · exact hup (hc.trans hp)

/-! ## A node is put into a list -/

/-- The lists with `l` as the list `s` of `p`. -/
def withList (L : Side → Addr → List Addr) (s : Side) (p : Addr) (l : List Addr) :
    Side → Addr → List Addr :=
  fun s' a ↦ if s' = s ∧ a = p then l else L s' a

@[simp] theorem withList_self : withList L s p l s p = l := if_pos ⟨rfl, rfl⟩

theorem withList_of_ne {s' : Side} (h : ¬ (s' = s ∧ a = p)) : withList L s p l s' a = L s' a :=
  if_neg h

/-- A change that puts `c` below `p` and writes links to siblings in the list `l` only. -/
structure Puts (d : Store) (g : Addr → NodeAct → NodeAct) (p c : Addr) (l : List Addr) : Prop where
  nodeType : ∀ a y, (g a y).nodeType = y.nodeType
  parent : ∀ a y, (g a y).parentNode = if a = c then some p else y.parentNode
  owner : ∀ a y, d.get a = some y → (g a y).ownerNode ∈ d.nodes
  frame : ∀ a y, a ∉ l → (g a y).nextSibling = y.nextSibling ∧ (g a y).prevSibling = y.prevSibling

theorem side_eq (h : y.nodeType = x.nodeType) : y.side = x.side := by
  rw [NodeAct.side, NodeAct.side, h]

/-- The new parent is the only one. -/
theorem isParent_put (hw : Wrote d d' g) (hg : Puts d g p c l) {e : Addr}
    (hpar : d'.IsParent a e) : d.IsParent a e ∨ a = p ∧ e = c := by
  cases hy : d.get e with
  | none => simp [IsParent, parent, hw.get, hy] at hpar
  | some y =>
    rw [IsParent, parent_of_get (hw.get_some hy), hg.parent] at hpar
    by_cases hec : e = c
    · rw [if_pos hec] at hpar
      exact .inr ⟨(Option.some.inj hpar).symm, hec⟩
    · rw [if_neg hec] at hpar
      exact .inl ((parent_of_get hy).trans hpar)

/-- A node without a parent is in no list. -/
theorem Linked.notMem (h : d.Linked L) (hpar : d.parent c = none) : c ∉ L s a := by
  intro hc
  rw [h.parent_eq hc] at hpar
  cases hpar

theorem Linked.put (h : d.Linked L) (hx : d.get c = some x) (hpar : x.parentNode = none)
    (hp : p ∈ d.nodes) (hup : ¬ Relation.ReflTransGen d.IsParent c p) (hw : Wrote d d' g)
    (hg : Puts d g p c l) (hlist : DList d'.next d'.prev l.head? l l.getLast?)
    (hperm : l.Perm (c :: L x.side p)) : d'.Linked (withList L x.side p l) where
  list s a := by
    by_cases hplace : s = x.side ∧ a = p
    · obtain ⟨rfl, rfl⟩ := hplace
      simpa using hlist
    · rw [withList_of_ne hplace]
      have hout : ∀ e ∈ L s a, e ∉ l := by
        intro e he hel
        rcases List.mem_cons.mp (hperm.mem_iff.mp hel) with rfl | hel
        · exact h.notMem ((parent_of_get hx).trans hpar) he
        · exact hplace (h.place_eq he hel)
      exact (h.list s a).congr (fun e he ↦ hw.next_eq fun y _ ↦ (hg.frame e y (hout e he)).1)
        fun e he ↦ hw.prev_eq fun y _ ↦ (hg.frame e y (hout e he)).2
  nodup s a := by
    by_cases hplace : s = x.side ∧ a = p
    · obtain ⟨rfl, rfl⟩ := hplace
      rw [withList_self, hperm.nodup_iff, List.nodup_cons]
      exact ⟨h.notMem ((parent_of_get hx).trans hpar), h.nodup _ _⟩
    · rw [withList_of_ne hplace]
      exact h.nodup s a
  mem s a e := by
    have hmem : e ∈ withList L x.side p l s a ↔ e ∈ L s a ∨ e = c ∧ s = x.side ∧ a = p := by
      by_cases hplace : s = x.side ∧ a = p
      · obtain ⟨rfl, rfl⟩ := hplace
        rw [withList_self, hperm.mem_iff, List.mem_cons]
        tauto
      · rw [withList_of_ne hplace]
        tauto
    rw [hmem, h.mem]
    constructor
    · rintro (⟨y, hy, hpy, hside⟩ | ⟨rfl, rfl, rfl⟩)
      · refine ⟨_, hw.get_some hy, ?_, (side_eq (hg.nodeType e y)).trans hside⟩
        rw [hg.parent, if_neg, hpy]
        rintro rfl
        obtain rfl := Option.some.inj (hx.symm.trans hy)
        simp [hpar] at hpy
      · refine ⟨_, hw.get_some hx, ?_, side_eq (hg.nodeType e x)⟩
        rw [hg.parent, if_pos rfl]
    · rintro ⟨y', hy', hpy, hside⟩
      obtain ⟨y, hy, rfl⟩ := hw.get_inv hy'
      rw [side_eq (hg.nodeType e y)] at hside
      rw [hg.parent] at hpy
      by_cases hec : e = c
      · subst hec
        obtain rfl := Option.some.inj (hx.symm.trans hy)
        rw [if_pos rfl] at hpy
        exact .inr ⟨rfl, hside.symm, (Option.some.inj hpy).symm⟩
      · rw [if_neg hec] at hpy
        exact .inl ⟨y, hy, hpy, hside⟩
  parent_mem a e hpe := by
    rw [hw.mem_iff]
    rcases isParent_put hw hg hpe with hpe | ⟨rfl, -⟩
    · exact h.parent_mem a e hpe
    · exact hp
  acyclic := acyclic_of_edge h.acyclic (fun a e ↦ isParent_put hw hg) hup
  owner_mem a y' hy' := by
    obtain ⟨y, hy, rfl⟩ := hw.get_inv hy'
    rw [hw.mem_iff]
    exact hg.owner a y hy

/-! ## At the end of a list -/

theorem side_child (h : y.nodeType ≠ .ATTRIBUTE_NODE) : y.side = .child := if_neg h

theorem side_attr (h : y.nodeType = .ATTRIBUTE_NODE) : y.side = .attr := if_pos h

/-- What `relink` does to the node `a` before it writes the links to `c`; `l` are the nodes below
`c`. -/
def loosened (p c : Addr) (l : List Addr) (o a : Addr) (y : NodeAct) : NodeAct :=
  { y with
    parentNode := if a = c then some p else y.parentNode
    ownerNode := if a = c ∨ a ∈ l then o else y.ownerNode
    nextSibling := if a = c then none else y.nextSibling
    prevSibling := if a = c then none else y.prevSibling }

/-- How the links to `c` change at the node `a`, when `c` comes behind `last` into the list `s` of
`p`. -/
def linkedLast (p c : Addr) (last : Option Addr) (s : Side) (a : Addr) (y : NodeAct) : NodeAct :=
  { y with
    nextSibling := if last = some a then some c else y.nextSibling
    prevSibling := if a = c then last.or y.prevSibling else y.prevSibling
    firstChild := if a = p ∧ s = .child ∧ last = none then some c else y.firstChild
    lastChild := if a = p ∧ s = .child then some c else y.lastChild
    firstAttr := if a = p ∧ s = .attr ∧ last = none then some c else y.firstAttr
    lastAttr := if a = p ∧ s = .attr then some c else y.lastAttr }

/-- The end of `relink`: the links to `newChild`. -/
def linkLast (d : Store) (this newChild : Addr) : Option Store := do
  let new ← d.get newChild
  let self ← d.get this
  if new.nodeType ≠ .ATTRIBUTE_NODE then
    match self.firstChild with
    | none => d.modify this fun x ↦ { x with firstChild := some newChild, lastChild := some newChild }
    | some _ =>
      let last ← self.lastChild
      let d ← d.modify last fun x ↦ { x with nextSibling := some newChild }
      let d ← d.modify newChild fun x ↦ { x with prevSibling := some last }
      d.modify this fun x ↦ { x with lastChild := some newChild }
  else
    match self.firstAttr with
    | none => d.modify this fun x ↦ { x with firstAttr := some newChild, lastAttr := some newChild }
    | some _ =>
      let last ← self.lastAttr
      let d ← d.modify last fun x ↦ { x with nextSibling := some newChild }
      let d ← d.modify newChild fun x ↦ { x with prevSibling := some last }
      d.modify this fun x ↦ { x with lastAttr := some newChild }

theorem loosen_spec (h : d.WellLinked L) (hx : d.get c = some x) (hz : d.get p = some z)
    (hpc : p ≠ c) :
    ∃ d' l, d.relink p c = d'.linkLast p c ∧ Wrote d d' (loosened p c l z.ownerNode) ∧
      ∀ S, Closed L S → S c → ∀ b ∈ l, S b := by
  have hcmem := mem_of_get hx
  obtain ⟨d₁, h₁, hw₁⟩ := modify_spec hcmem fun y ↦
    { y with parentNode := some p, ownerNode := z.ownerNode }
  have hz₁ : d₁.get p = some z := by rw [hw₁.get_some hz, if_neg hpc]
  have hf₁ : Wrote d d₁ fun a y ↦ { y with
      parentNode := if a = c then some p else y.parentNode
      ownerNode := if a = c then z.ownerNode else y.ownerNode } :=
    hw₁.congr fun a y _ ↦ by split <;> rfl
  have hdepth : HasDepth L d₁.nodes.size c := by
    rw [hf₁.size_eq]
    exact h.hasDepth hcmem
  obtain ⟨d₂, l, h₂, hw₂, hclosed⟩ := changeOwnerNode_spec (o := z.ownerNode)
    (h.kids.wrote hf₁ fun _ _ ↦ ⟨rfl, rfl, rfl⟩) (hf₁.mem_iff.mpr hcmem) hdepth
  have hf₂ := hf₁.trans hw₂
  obtain ⟨d₃, h₃, hw₃⟩ := modify_spec (hf₂.mem_iff.mpr hcmem) fun y ↦
    { y with nextSibling := none, prevSibling := none }
  have hf₃ : Wrote d₂ d₃ fun a y ↦ { y with
      nextSibling := if a = c then none else y.nextSibling
      prevSibling := if a = c then none else y.prevSibling } :=
    hw₃.congr fun a y _ ↦ by split <;> rfl
  refine ⟨d₃, l, ?_, (hf₂.trans hf₃).congr fun a y _ ↦ ?_, hclosed⟩
  · simp only [relink, hz, h₁, hz₁, h₂, h₃, Option.bind_eq_bind, Option.bind_some]
    rfl
  · by_cases hac : a = c <;> by_cases hal : a ∈ l <;> simp [loosened, owned, hac, hal]

/-- The writes that put `c` behind `e`, with `f` for the parent. -/
theorem behind_spec {e : Addr} (he : e ∈ d.nodes) (hc : c ∈ d.nodes) (hp : p ∈ d.nodes)
    (f : NodeAct → NodeAct) :
    ∃ d₁ d₂ d₃, d.modify e (fun y ↦ { y with nextSibling := some c }) = some d₁ ∧
      d₁.modify c (fun y ↦ { y with prevSibling := some e }) = some d₂ ∧
      d₂.modify p f = some d₃ ∧ Wrote d d₃ fun a y ↦ (if a = p then f else id)
        { y with
          nextSibling := if a = e then some c else y.nextSibling
          prevSibling := if a = c then some e else y.prevSibling } := by
  obtain ⟨d₁, h₁, hw₁⟩ := modify_spec he fun y ↦ { y with nextSibling := some c }
  obtain ⟨d₂, h₂, hw₂⟩ := modify_spec (hw₁.mem_iff.mpr hc) fun y ↦ { y with prevSibling := some e }
  obtain ⟨d₃, h₃, hw₃⟩ := modify_spec (hw₂.mem_iff.mpr (hw₁.mem_iff.mpr hp)) f
  have hf₁ : Wrote d d₁ fun a y ↦
      { y with nextSibling := if a = e then some c else y.nextSibling } :=
    hw₁.congr fun a y _ ↦ by split <;> rfl
  have hf₂ : Wrote d₁ d₂ fun a y ↦
      { y with prevSibling := if a = c then some e else y.prevSibling } :=
    hw₂.congr fun a y _ ↦ by split <;> rfl
  have hf₃ : Wrote d₂ d₃ fun a y ↦ (if a = p then f else id) y :=
    hw₃.congr fun a y _ ↦ by split <;> rfl
  exact ⟨d₁, d₂, d₃, h₁, h₂, h₃, (hf₁.trans hf₂).trans hf₃⟩

/-- The last writes of `relink`, with the list `k` that `c` comes into. -/
theorem linkLast_spec {k : List Addr} (hx : d.get c = some x) (hz : d.get p = some z)
    (hfirst : z.first x.side = k.head?) (hlast : z.last x.side = k.getLast?)
    (hmem : ∀ e ∈ k, e ∈ d.nodes) :
    ∃ d', d.linkLast p c = some d' ∧ Wrote d d' (linkedLast p c k.getLast? x.side) := by
  by_cases ht : x.nodeType = .ATTRIBUTE_NODE
  · rw [side_attr ht] at hfirst hlast ⊢
    change z.firstAttr = k.head? at hfirst
    change z.lastAttr = k.getLast? at hlast
    rcases List.eq_nil_or_concat k with rfl | ⟨m, e, rfl⟩
    · obtain ⟨d₁, h₁, hw₁⟩ := modify_spec (mem_of_get hz) fun y ↦
        { y with firstAttr := some c, lastAttr := some c }
      refine ⟨d₁, ?_, hw₁.congr fun a y _ ↦ ?_⟩
      · rw [List.head?_nil] at hfirst
        simp [linkLast, hx, hz, ht, hfirst, h₁]
      · by_cases hap : a = p <;> simp [linkedLast, hap]
    · rw [List.concat_eq_append] at hfirst hlast hmem ⊢
      rw [List.getLast?_concat] at hlast ⊢
      obtain ⟨b, hb⟩ : ∃ b, (m ++ [e]).head? = some b := by cases m <;> exact ⟨_, rfl⟩
      rw [hb] at hfirst
      obtain ⟨d₁, d₂, d₃, h₁, h₂, h₃, hw⟩ := behind_spec (hmem e (by simp)) (mem_of_get hx)
        (mem_of_get hz) fun y ↦ { y with lastAttr := some c }
      refine ⟨d₃, ?_, hw.congr fun a y _ ↦ ?_⟩
      · simp [linkLast, hx, hz, ht, hfirst, hlast, h₁, h₂, h₃]
      · by_cases hap : a = p <;> simp [linkedLast, hap, eq_comm]
  · rw [side_child ht] at hfirst hlast ⊢
    change z.firstChild = k.head? at hfirst
    change z.lastChild = k.getLast? at hlast
    rcases List.eq_nil_or_concat k with rfl | ⟨m, e, rfl⟩
    · obtain ⟨d₁, h₁, hw₁⟩ := modify_spec (mem_of_get hz) fun y ↦
        { y with firstChild := some c, lastChild := some c }
      refine ⟨d₁, ?_, hw₁.congr fun a y _ ↦ ?_⟩
      · rw [List.head?_nil] at hfirst
        simp [linkLast, hx, hz, ht, hfirst, h₁]
      · by_cases hap : a = p <;> simp [linkedLast, hap]
    · rw [List.concat_eq_append] at hfirst hlast hmem ⊢
      rw [List.getLast?_concat] at hlast ⊢
      obtain ⟨b, hb⟩ : ∃ b, (m ++ [e]).head? = some b := by cases m <;> exact ⟨_, rfl⟩
      rw [hb] at hfirst
      obtain ⟨d₁, d₂, d₃, h₁, h₂, h₃, hw⟩ := behind_spec (hmem e (by simp)) (mem_of_get hx)
        (mem_of_get hz) fun y ↦ { y with lastChild := some c }
      refine ⟨d₃, ?_, hw.congr fun a y _ ↦ ?_⟩
      · simp [linkLast, hx, hz, ht, hfirst, hlast, h₁, h₂, h₃]
      · by_cases hap : a = p <;> simp [linkedLast, hap, eq_comm]

/-- What `relink` does to the node `a`. -/
def relinked (p c : Addr) (last : Option Addr) (s : Side) (l : List Addr) (o a : Addr)
    (y : NodeAct) : NodeAct :=
  linkedLast p c last s a (loosened p c l o a y)

/-- `relink` puts a node behind the last one of its list. -/
theorem relink_spec (h : d.WellLinked L) (hx : d.get c = some x) (hz : d.get p = some z)
    (hpc : p ≠ c) :
    ∃ d' l, d.relink p c = some d' ∧
      Wrote d d' (relinked p c (L x.side p).getLast? x.side l z.ownerNode) ∧
      ∀ S, Closed L S → S c → ∀ b ∈ l, S b := by
  obtain ⟨d₁, l, h₁, hw₁, hclosed⟩ := loosen_spec h hx hz hpc
  obtain ⟨d₂, h₂, hw₂⟩ := linkLast_spec (k := L x.side p) (hw₁.get_some hx) (hw₁.get_some hz)
    (h.firstLink x.side p z hz) (h.lastLink x.side p z hz)
    fun e he ↦ hw₁.mem_iff.mpr (h.linked.mem_nodes he)
  exact ⟨d₂, l, h₁.trans h₂, hw₁.trans hw₂, hclosed⟩

theorem first_relinked {last : Option Addr} {s' : Side} :
    (relinked p c last s l o a y).first s' =
      if s' = s ∧ a = p ∧ last = none then some c else y.first s' := by
  cases s <;> cases s' <;> simp [relinked, linkedLast, loosened, NodeAct.first]

theorem last_relinked {last : Option Addr} {s' : Side} :
    (relinked p c last s l o a y).last s' = if s' = s ∧ a = p then some c else y.last s' := by
  cases s <;> cases s' <;> simp [relinked, linkedLast, loosened, NodeAct.last]

theorem next_relinked {last : Option Addr} :
    (relinked p c last s l o a y).nextSibling =
      if last = some a then some c else if a = c then none else y.nextSibling := rfl

theorem prev_relinked {last : Option Addr} :
    (relinked p c last s l o a y).prevSibling = if a = c then last else y.prevSibling := by
  by_cases hac : a = c <;> simp [relinked, linkedLast, loosened, hac]

/-- A node without a parent is put at the end of a list.  Of the nodes outside a set with `c` and
all below it, only the new parent and the last node of the list are written. -/
theorem WellLinked.relink_wrote (h : d.WellLinked L) (hx : d.get c = some x) (hz : d.get p = some z)
    (hpar : x.parentNode = none) (hup : ¬ Relation.ReflTransGen d.IsParent c p) :
    ∃ d' l, d.relink p c = some d' ∧
      d'.WellLinked (withList L x.side p (L x.side p ++ [c])) ∧
      Wrote d d' (relinked p c (L x.side p).getLast? x.side l z.ownerNode) ∧
      ∀ S, Closed L S → S c → ∀ b ∈ l, S b := by
  have hp := mem_of_get hz
  have hpc : p ≠ c := fun heq ↦ hup (heq ▸ .refl)
  have hc : ∀ s a, c ∉ L s a := fun s a ↦ h.linked.notMem ((parent_of_get hx).trans hpar)
  obtain ⟨d', l, heq, hw, hclosed⟩ := relink_spec h hx hz hpc
  generalize hk : L x.side p = k at hw ⊢
  have hkmem : ∀ e ∈ k, e ∈ d.nodes := fun e he ↦ h.linked.mem_nodes (hk.symm ▸ he)
  have hck : c ∉ k := hk ▸ hc _ _
  have hlastc : k.getLast? ≠ some c := fun hlast ↦ hck (List.mem_of_mem_getLast? hlast)
  have hputs : Puts d (relinked p c k.getLast? x.side l z.ownerNode) p c (k ++ [c]) := by
    constructor
    · exact fun _ _ ↦ rfl
    · exact fun _ _ ↦ rfl
    · intro a y hy
      by_cases ha : a = c ∨ a ∈ l
      · simpa [relinked, linkedLast, loosened, ha] using h.owner_mem p z hz
      · simpa [relinked, linkedLast, loosened, ha] using h.owner_mem a y hy
    · intro a y ha
      rw [List.mem_append, List.mem_singleton, not_or] at ha
      rw [next_relinked, prev_relinked, if_neg, if_neg ha.2, if_neg ha.2]
      · exact ⟨rfl, rfl⟩
      · exact fun hlast ↦ ha.1 (List.mem_of_mem_getLast? hlast)
  have hlist : DList d'.next d'.prev (k ++ [c]).head? (k ++ [c]) (k ++ [c]).getLast? := by
    have hold := h.linked.list x.side p
    rw [hk] at hold
    rw [List.getLast?_concat, List.head?_append]
    have hne : ∀ e ∈ k, e ≠ c := fun e he heq ↦ hck (heq ▸ he)
    refine hold.append (hk ▸ h.nodup x.side p) (fun e he ↦ ?_) (fun e he ↦ ?_) ?_ ?_
    · obtain ⟨y, hy⟩ := exists_get (hkmem e he)
      rw [next_of_get (hw.get_some hy), next_relinked, if_neg (hne e he), next_of_get hy]
    · obtain ⟨y, hy⟩ := exists_get (hkmem e he)
      rw [prev_of_get (hw.get_some hy), prev_relinked, if_neg (hne e he), prev_of_get hy]
    · rw [next_of_get (hw.get_some hx), next_relinked, if_neg hlastc, if_pos rfl]
    · rw [prev_of_get (hw.get_some hx), prev_relinked, if_pos rfl]
  have hperm : (k ++ [c]).Perm (c :: L x.side p) := hk ▸ List.perm_append_singleton c k
  refine ⟨d', l, heq, (h.linked.put hx hpar hp hup hw hputs hlist hperm).wellLinked ?_ ?_, hw, hclosed⟩
  · intro s a y' hy'
    obtain ⟨y, hy, rfl⟩ := hw.get_inv hy'
    rw [first_relinked]
    by_cases hplace : s = x.side ∧ a = p
    · obtain ⟨rfl, rfl⟩ := hplace
      rw [withList_self, List.head?_append, h.firstLink _ _ y hy, hk]
      cases k with
      | nil => simp
      | cons b k => simp [List.getLast?_cons]
    · rw [if_neg fun hif ↦ hplace ⟨hif.1, hif.2.1⟩, withList_of_ne hplace, h.firstLink s a y hy]
  · intro s a y' hy'
    obtain ⟨y, hy, rfl⟩ := hw.get_inv hy'
    rw [last_relinked]
    by_cases hplace : s = x.side ∧ a = p
    · obtain ⟨rfl, rfl⟩ := hplace
      rw [if_pos ⟨rfl, rfl⟩, withList_self, List.getLast?_concat]
    · rw [if_neg hplace, withList_of_ne hplace, h.lastLink s a y hy]

theorem WellLinked.relink (h : d.WellLinked L) (hx : d.get c = some x) (hp : p ∈ d.nodes)
    (hpar : x.parentNode = none) (hup : ¬ Relation.ReflTransGen d.IsParent c p) :
    ∃ d', d.relink p c = some d' ∧
      d'.WellLinked (withList L x.side p (L x.side p ++ [c])) := by
  obtain ⟨z, hz⟩ := exists_get hp
  obtain ⟨d', -, heq, hl, -⟩ := h.relink_wrote hx hz hpar hup
  exact ⟨d', heq, hl⟩

end Upnp.Dom.Store
