import Upnp.Dom.WellLinked

/-!
# What the mutators write

`Wrote d d' g`: between two stores each node was changed by `g`.  The mutators
are sequences of writes through links; here each of them is brought to one such
change, under the conditions that make its links valid.
-/

namespace Upnp.Dom.Store

open Upnp.Lib

/-- Each node was changed by `g`. -/
structure Wrote (d d' : Store) (g : Addr → NodeAct → NodeAct) : Prop where
  found : d'.found = d.found
  get : ∀ a, d'.get a = (d.get a).map (g a)

variable {d d' d'' : Store} {g g' : Addr → NodeAct → NodeAct} {a b c p : Addr} {x y : NodeAct}
  {L : Side → Addr → List Addr}

theorem Wrote.trans (h : Wrote d d' g) (h' : Wrote d' d'' g') :
    Wrote d d'' fun a x ↦ g' a (g a x) where
  found := h'.found.trans h.found
  get a := by
    rw [h'.get, h.get, Option.map_map]
    rfl

theorem Wrote.congr (h : Wrote d d' g) (heq : ∀ a x, d.get a = some x → g a x = g' a x) :
    Wrote d d' g' where
  found := h.found
  get a := by
    rw [h.get]
    cases hx : d.get a with
    | none => rfl
    | some x => rw [Option.map_some, Option.map_some, heq a x hx]

theorem Wrote.get_some (h : Wrote d d' g) (hx : d.get a = some x) : d'.get a = some (g a x) := by
  rw [h.get, hx]
  rfl

theorem Wrote.mem_iff (h : Wrote d d' g) : a ∈ d'.nodes ↔ a ∈ d.nodes := by
  have hget := h.get a
  rw [Heap.mem_iff_get, Heap.mem_iff_get]
  change d'.get a ≠ none ↔ d.get a ≠ none
  rw [hget]
  cases d.get a <;> simp

theorem modify_spec (ha : a ∈ d.nodes) (f : NodeAct → NodeAct) :
    ∃ d', d.modify a f = some d' ∧ Wrote d d' fun b x ↦ if b = a then f x else x := by
  obtain ⟨x, hx⟩ := exists_get ha
  have hset := Heap.set_of_get (h := d.nodes) hx (f x)
  refine ⟨{ d with nodes := d.nodes.insert a (f x) }, ?_, rfl, fun b ↦ ?_⟩
  · simp [modify, hx, hset]
  · change Heap.get (d.nodes.insert a (f x)) b = _
    rw [Heap.get_insert]
    by_cases hb : b = a
    · simp [hb, hx]
    · rw [if_neg hb]
      change d.get b = _
      cases d.get b <;> simp [hb]

theorem modifyAt_spec {q : Option Addr} (hq : ∀ a, q = some a → a ∈ d.nodes)
    (f : NodeAct → NodeAct) :
    ∃ d', d.modifyAt q f = some d' ∧ Wrote d d' fun b x ↦ if q = some b then f x else x := by
  cases q with
  | none => exact ⟨d, rfl, rfl, fun b ↦ by simp⟩
  | some a =>
    obtain ⟨d', heq, hw⟩ := modify_spec (hq a rfl) f
    refine ⟨d', heq, hw.congr fun b x _ ↦ ?_⟩
    simp only [Option.some.injEq, eq_comm]

/-! ## Removal -/

/-- What `removeChild` does to the node `a`, when it takes the node `c` with the fields `x` out of
the lists of `p`. -/
def removed (p c : Addr) (x : NodeAct) (a : Addr) (y : NodeAct) : NodeAct :=
  { y with
    nextSibling := if x.prevSibling = some a then x.nextSibling else y.nextSibling
    prevSibling := if x.nextSibling = some a then x.prevSibling else y.prevSibling
    firstChild := if a = p then if y.firstChild = some c then x.nextSibling else y.firstChild
      else y.firstChild
    lastChild := if a = p then if y.lastChild = some c then x.prevSibling else y.lastChild
      else y.lastChild
    parentNode := if a = c then none else y.parentNode
    ownerNode := if a = c then c else y.ownerNode }

/-- The links of a node lead to other nodes. -/
structure Apart (d : Store) (c : Addr) (x : NodeAct) : Prop where
  prev : ∀ a, x.prevSibling = some a → a ∈ d.nodes ∧ a ≠ c
  next : ∀ a, x.nextSibling = some a → a ∈ d.nodes ∧ a ≠ c

theorem removeChild_spec (hf : d.findNode p c = some true) (hp : p ∈ d.nodes)
    (hx : d.get c = some x) (hapart : Apart d c x) :
    ∃ d', d.removeChild p c = some (d', .done) ∧ Wrote d d' (removed p c x) := by
  have hprev : x.prevSibling ≠ some c := fun h ↦ (hapart.prev c h).2 rfl
  have hnext : x.nextSibling ≠ some c := fun h ↦ (hapart.next c h).2 rfl
  obtain ⟨d₁, h₁, hw₁⟩ := modifyAt_spec (fun a ha ↦ (hapart.prev a ha).1)
    fun y ↦ { y with nextSibling := x.nextSibling }
  have hx₁ : d₁.get c = some x := by
    rw [hw₁.get_some hx, if_neg hprev]
  obtain ⟨d₂, h₂, hw₂⟩ := modifyAt_spec (d := d₁)
    (fun a ha ↦ hw₁.mem_iff.mpr (hapart.next a ha).1) fun y ↦ { y with prevSibling := x.prevSibling }
  have hx₂ : d₂.get c = some x := by
    rw [hw₂.get_some hx₁, if_neg hnext]
  obtain ⟨d₃, h₃, hw₃⟩ := modify_spec (hw₂.mem_iff.mpr (hw₁.mem_iff.mpr hp)) fun y ↦
    { y with
      firstChild := if y.firstChild = some c then x.nextSibling else y.firstChild
      lastChild := if y.lastChild = some c then x.prevSibling else y.lastChild }
  obtain ⟨d₄, h₄, hw₄⟩ := modify_spec
    (hw₃.mem_iff.mpr (hw₂.mem_iff.mpr (hw₁.mem_iff.mpr (mem_of_get hx)))) fun y ↦
    { y with ownerNode := c, parentNode := none }
  -- each write, as a change of its own fields only
  have hf₁ : Wrote d d₁ fun a y ↦ { y with
      nextSibling := if x.prevSibling = some a then x.nextSibling else y.nextSibling } :=
    hw₁.congr fun a y _ ↦ by split <;> rfl
  have hf₂ : Wrote d₁ d₂ fun a y ↦ { y with
      prevSibling := if x.nextSibling = some a then x.prevSibling else y.prevSibling } :=
    hw₂.congr fun a y _ ↦ by split <;> rfl
  have hf₃ : Wrote d₂ d₃ fun a y ↦ { y with
      firstChild := if a = p then if y.firstChild = some c then x.nextSibling else y.firstChild
        else y.firstChild
      lastChild := if a = p then if y.lastChild = some c then x.prevSibling else y.lastChild
        else y.lastChild } :=
    hw₃.congr fun a y _ ↦ by by_cases ha : a = p <;> simp only [ha, if_true, if_false]
  have hf₄ : Wrote d₃ d₄ fun a y ↦ { y with
      parentNode := if a = c then none else y.parentNode
      ownerNode := if a = c then c else y.ownerNode } :=
    hw₄.congr fun a y _ ↦ by split <;> rfl
  refine ⟨d₄, ?_, ((hf₁.trans hf₂).trans hf₃).trans hf₄⟩
  simp [removeChild, hf, hx, h₁, hx₁, h₂, hx₂, h₃, h₄]

end Upnp.Dom.Store
