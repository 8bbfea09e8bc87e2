import Upnp.Dom.Writes

/-!
# Removal of a node

`removeChild` takes a node out of the list it is in.  It patches `FirstChild` and
`LastChild` of the parent, but neither `FirstAttr` nor `LastAttr`.
-/

namespace Upnp.Dom.Store

open Upnp.Lib

variable {d d' : Store} {L : Side → Addr → List Addr} {g : Addr → NodeAct → NodeAct} {s : Side}
  {a b c p : Addr} {x y : NodeAct}

theorem next_of_get (hx : d.get a = some x) : d.next a = x.nextSibling := by
  rw [next, hx]
  rfl

theorem prev_of_get (hx : d.get a = some x) : d.prev a = x.prevSibling := by
  rw [prev, hx]
  rfl

theorem parent_of_get (hx : d.get a = some x) : d.parent a = x.parentNode := by
  rw [parent, hx]
  rfl

/-- Where the node in front of a write came from. -/
theorem Wrote.get_inv (h : Wrote d d' g) (hy : d'.get a = some y) :
    ∃ x, d.get a = some x ∧ g a x = y := by
  rw [h.get, Option.map_eq_some_iff] at hy
  exact hy

/-- Only the parent of the removed node changes. -/
theorem parent_of_removed (hw : Wrote d d' g)
    (hg : ∀ a y, (g a y).parentNode = if a = c then none else y.parentNode)
    (hpar : d'.parent b = some a) : d.parent b = some a := by
  cases hy : d.get b with
  | none => simp [parent, hw.get, hy] at hpar
  | some y =>
    rw [parent_of_get (hw.get_some hy), hg] at hpar
    rw [parent_of_get hy]
    by_cases hbc : b = c
    · simp [hbc] at hpar
    · exact (if_neg hbc).symm.trans hpar

namespace Linked

/-- The place of a node in its list. -/
theorem split (h : d.Linked L) (hc : c ∈ L s a) (hx : d.get c = some x) :
    ∃ l₁ l₂, L s a = l₁ ++ c :: l₂ ∧ c ∉ l₁ ∧ c ∉ l₂ ∧
      x.prevSibling = l₁.getLast? ∧ x.nextSibling = l₂.head? := by
  obtain ⟨l₁, l₂, hl⟩ := List.append_of_mem hc
  have hnd := h.nodup s a
  have hlist := h.list s a
  rw [hl] at hnd hlist
  obtain ⟨hprev, hnext⟩ := hlist.links
  rw [List.nodup_append, List.nodup_cons] at hnd
  refine ⟨l₁, l₂, hl, ?_, hnd.2.1.1, (prev_of_get hx).symm.trans hprev,
    (next_of_get hx).symm.trans hnext⟩
  exact fun hc ↦ hnd.2.2 c hc c List.mem_cons_self rfl

/-- The nodes around a node are in the same list. -/
theorem around (h : d.Linked L) (hc : c ∈ L s a) (hx : d.get c = some x) :
    (∀ e, x.prevSibling = some e → e ∈ L s a ∧ e ≠ c) ∧
      ∀ e, x.nextSibling = some e → e ∈ L s a ∧ e ≠ c := by
  obtain ⟨l₁, l₂, hl, hc₁, hc₂, hprev, hnext⟩ := h.split hc hx
  constructor
  · intro e he
    have hmem := List.mem_of_mem_getLast? (hprev.symm.trans he)
    exact ⟨hl ▸ List.mem_append_left _ hmem, fun heq ↦ hc₁ (heq ▸ hmem)⟩
  · intro e he
    have hmem := List.mem_of_mem_head? (hnext.symm.trans he)
    exact ⟨hl ▸ List.mem_append_right _ (List.mem_cons_of_mem _ hmem), fun heq ↦ hc₂ (heq ▸ hmem)⟩

theorem prev_of_next {w : NodeAct} (h : d.Linked L) (hc : c ∈ L s a) (hx : d.get c = some x)
    (hy : d.get b = some w) (hnext : x.nextSibling = some b) : w.prevSibling = some c := by
  obtain ⟨l₁, l₂, hl, -, -, -, hx₂⟩ := h.split hc hx
  rw [hnext] at hx₂
  obtain ⟨l₃, rfl⟩ := List.head?_eq_some_iff.mp hx₂.symm
  have hlist := h.list s a
  rw [hl, List.append_cons] at hlist
  rw [← prev_of_get hy, hlist.links.1, List.getLast?_concat]

theorem apart (h : d.Linked L) (hc : c ∈ L s a) (hx : d.get c = some x) : Apart d c x where
  prev e he := ⟨h.mem_nodes ((h.around hc hx).1 e he).1, ((h.around hc hx).1 e he).2⟩
  next e he := ⟨h.mem_nodes ((h.around hc hx).2 e he).1, ((h.around hc hx).2 e he).2⟩

/-- Other lists are not changed by taking `c` out of all. -/
theorem erase_eq (h : d.Linked L) {s' : Side} {a' : Addr} (hc : c ∈ L s a)
    (hne : ¬ (s' = s ∧ a' = a)) : (L s' a').erase c = L s' a' :=
  List.erase_of_not_mem fun hc' ↦ hne (h.place_eq hc' hc)

/-- A child that is taken out of its list leaves all lists linked. -/
theorem removed (h : d.Linked L) (hx : d.get c = some x) (hc : c ∈ L s p)
    (hw : Wrote d d' (removed p c x)) : d'.Linked fun s a ↦ (L s a).erase c where
  list s' a' := by
    have hnext : ∀ e ∈ L s' a', d'.next e = if d.prev c = some e then d.next c else d.next e := by
      intro e he
      obtain ⟨y, hy⟩ := exists_get (h.mem_nodes he)
      rw [next_of_get (hw.get_some hy), prev_of_get hx, next_of_get hx, next_of_get hy]
      rfl
    have hprev : ∀ e ∈ L s' a', d'.prev e = if d.next c = some e then d.prev c else d.prev e := by
      intro e he
      obtain ⟨y, hy⟩ := exists_get (h.mem_nodes he)
      rw [prev_of_get (hw.get_some hy), prev_of_get hx, next_of_get hx, prev_of_get hy]
      rfl
    have hlist := h.list s' a'
    have hnd := h.nodup s' a'
    by_cases hplace : s' = s ∧ a' = p
    · obtain ⟨rfl, rfl⟩ := hplace
      obtain ⟨l₁, l₂, hl, hc₁, -, -, -⟩ := h.split hc hx
      rw [hl] at hlist hnd hnext hprev
      have hcut : ∀ e ∈ l₁ ++ l₂, e ∈ l₁ ++ c :: l₂ := by simp; tauto
      have hdone : DList d'.next d'.prev _ (l₁ ++ l₂) _ := hlist.remove hnd
        (fun e he ↦ hnext e (hcut e he)) fun e he ↦ hprev e (hcut e he)
      have herase : (L s' a').erase c = l₁ ++ l₂ := by
        rw [hl, List.erase_append_right _ hc₁, List.erase_cons_head]
      rw [herase, ← hdone.first_eq, ← hdone.last_eq]
      exact hdone
    · have herase := h.erase_eq hc hplace
      rw [herase]
      -- the nodes around `c` are in its own list
      refine hlist.congr (fun e he ↦ ?_) fun e he ↦ ?_
      · rw [hnext e he, if_neg]
        intro heq
        rw [prev_of_get hx] at heq
        exact hplace (h.place_eq he ((h.around hc hx).1 e heq).1)
      · rw [hprev e he, if_neg]
        intro heq
        rw [next_of_get hx] at heq
        exact hplace (h.place_eq he ((h.around hc hx).2 e heq).1)
  nodup s' a' := (h.nodup s' a').erase c
  mem s' a' e := by
    rw [(h.nodup s' a').mem_erase_iff, h.mem]
    constructor
    · rintro ⟨hne, y, hy, hpar, hside⟩
      refine ⟨_, hw.get_some hy, ?_, hside⟩
      exact (if_neg hne).trans hpar
    · rintro ⟨y', hy', hpar, hside⟩
      obtain ⟨y, hy, rfl⟩ := hw.get_inv hy'
      have hne : e ≠ c := by
        rintro rfl
        simp [Store.removed] at hpar
      exact ⟨hne, y, hy, (if_neg hne).symm.trans hpar, hside⟩
  parent_mem a e hpar := by
    rw [hw.mem_iff]
    refine h.parent_mem a e ?_
    exact parent_of_removed hw (fun _ _ ↦ rfl) hpar
  acyclic a hcycle := h.acyclic a
    (hcycle.lift id fun _ _ hpar ↦ parent_of_removed hw (fun _ _ ↦ rfl) hpar)
  owner_mem a y' hy' := by
    obtain ⟨y, hy, rfl⟩ := hw.get_inv hy'
    rw [hw.mem_iff]
    by_cases hac : a = c
    · simpa [Store.removed, hac] using mem_of_get hx
    · simpa [Store.removed, hac] using h.owner_mem a y hy

end Linked

/-! ## The ends of the lists -/

theorem first_removed : (removed p c x a y).first s =
    if s = .child ∧ a = p ∧ y.first s = some c then x.nextSibling else y.first s := by
  cases s with
  | child => by_cases ha : a = p <;> simp [NodeAct.first, removed, ha]
  | attr => simp [NodeAct.first, removed]

theorem last_removed : (removed p c x a y).last s =
    if s = .child ∧ a = p ∧ y.last s = some c then x.prevSibling else y.last s := by
  cases s with
  | child => by_cases ha : a = p <;> simp [NodeAct.last, removed, ha]
  | attr => simp [NodeAct.last, removed]

/-- The link to the first node stays right, but for that of the attributes when the first of them
is removed. -/
theorem FirstLink.removed (hf : d.FirstLink L s a) (h : d.Linked L) (hx : d.get c = some x)
    (hc : c ∈ L x.side p) (hw : Wrote d d' (Store.removed p c x))
    (hok : a = p → s = .attr → x.side = .attr → x.prevSibling ≠ none) :
    d'.FirstLink (fun s a ↦ (L s a).erase c) s a := by
  intro y' hy'
  obtain ⟨y, hy, rfl⟩ := hw.get_inv hy'
  have hfirst := hf y hy
  rw [first_removed]
  by_cases hplace : s = x.side ∧ a = p
  · obtain ⟨rfl, rfl⟩ := hplace
    obtain ⟨l₁, l₂, hl, hc₁, -, hprev, hnext⟩ := h.split hc hx
    simp only [hl, List.erase_append_right _ hc₁, List.erase_cons_head] at hfirst ⊢
    cases l₁ with
    | nil =>
      have hside : x.side = .child := by
        cases hs : x.side with
        | child => rfl
        | attr => exact absurd hprev (hok rfl hs hs)
      rw [if_pos ⟨hside, trivial, hfirst⟩, hnext]
      rfl
    | cons e l₁ =>
      have hec : ¬ y.first x.side = some c := by
        rw [hfirst]
        rintro ⟨⟩
        exact hc₁ List.mem_cons_self
      rw [if_neg fun hif ↦ hec hif.2.2, hfirst]
      rfl
  · change _ = ((L s a).erase c).head?
    rw [h.erase_eq hc hplace, if_neg, hfirst]
    rintro ⟨rfl, rfl, heq⟩
    have hmem := List.mem_of_mem_head? (hfirst.symm.trans heq)
    exact hplace ⟨(h.place_eq hmem hc).1, rfl⟩

/-- The link to the last node stays right, but for that of the attributes when the last of them
is removed. -/
theorem LastLink.removed (hf : d.LastLink L s a) (h : d.Linked L) (hx : d.get c = some x)
    (hc : c ∈ L x.side p) (hw : Wrote d d' (Store.removed p c x))
    (hok : a = p → s = .attr → x.side = .attr → x.nextSibling ≠ none) :
    d'.LastLink (fun s a ↦ (L s a).erase c) s a := by
  intro y' hy'
  obtain ⟨y, hy, rfl⟩ := hw.get_inv hy'
  have hlast := hf y hy
  rw [last_removed]
  by_cases hplace : s = x.side ∧ a = p
  · obtain ⟨rfl, rfl⟩ := hplace
    obtain ⟨l₁, l₂, hl, hc₁, hc₂, hprev, hnext⟩ := h.split hc hx
    simp only [hl, List.erase_append_right _ hc₁, List.erase_cons_head] at hlast ⊢
    rcases List.eq_nil_or_concat l₂ with rfl | ⟨l₃, e, rfl⟩
    · have hside : x.side = .child := by
        cases hs : x.side with
        | child => rfl
        | attr => exact absurd hnext (hok rfl hs hs)
      rw [if_pos ⟨hside, trivial, by simpa using hlast⟩, hprev]
      simp
    · rw [List.concat_eq_append] at hlast hc₂ ⊢
      have hend : (l₁ ++ c :: (l₃ ++ [e])).getLast? = some e := by
        rw [← List.cons_append, ← List.append_assoc, List.getLast?_concat]
      have hec : ¬ y.last x.side = some c := by
        rw [hlast, hend]
        rintro ⟨⟩
        exact hc₂ (by simp)
      rw [if_neg fun hif ↦ hec hif.2.2, hlast, hend, ← List.append_assoc, List.getLast?_concat]
  · change _ = ((L s a).erase c).getLast?
    rw [h.erase_eq hc hplace, if_neg, hlast]
    rintro ⟨rfl, rfl, heq⟩
    have hmem := List.mem_of_mem_getLast? (hlast.symm.trans heq)
    exact hplace ⟨(h.place_eq hmem hc).1, rfl⟩

/-! ## The function -/

/-- The list that a node is put into. -/
def sideOf (d : Store) (a : Addr) : Option Side := (d.get a).map NodeAct.side

/-- A removed attribute is neither the first nor the last one. -/
def Inner (d : Store) (c : Addr) : Prop :=
  d.sideOf c = some .attr → d.prev c ≠ none ∧ d.next c ≠ none

theorem sideOf_of_get (hx : d.get a = some x) : d.sideOf a = some x.side := by
  rw [sideOf, hx]
  rfl

/-- A node that `findNode` does not find is not removed. -/
theorem removeChild_of_false (hf : d.findNode p c = some false) :
    d.removeChild p c = some (d, .NOT_FOUND_ERR) := by
  simp [removeChild, hf]

/-- A node that `findNode` finds is taken out of its list. -/
theorem WellLinked.removeChild_of_true (h : d.WellLinked L) (hp : p ∈ d.nodes)
    (hx : d.get c = some x) (hf : d.findNode p c = some true) :
    c ∈ L x.side p ∧
      ∃ d', d.removeChild p c = some (d', .done) ∧ Wrote d d' (Store.removed p c x) := by
  obtain ⟨z, hz⟩ := exists_get hp
  obtain ⟨-, hc⟩ := h.mem_of_findNode hz hx hf
  exact ⟨hc, removeChild_spec hf hp hx (h.linked.apart hc hx)⟩

theorem WellLinked.removed (h : d.WellLinked L) (hx : d.get c = some x) (hc : c ∈ L x.side p)
    (hw : Wrote d d' (Store.removed p c x)) (hinner : d.Inner c) :
    d'.WellLinked fun s a ↦ (L s a).erase c := by
  rw [Inner, sideOf_of_get hx, prev_of_get hx, next_of_get hx] at hinner
  refine (h.linked.removed hx hc hw).wellLinked (fun s a ↦ ?_) fun s a ↦ ?_
  · refine (h.firstLink s a).removed h.linked hx hc hw fun _ _ hside ↦ ?_
    exact (hinner (congrArg some hside)).1
  · refine (h.lastLink s a).removed h.linked hx hc hw fun _ _ hside ↦ ?_
    exact (hinner (congrArg some hside)).2

end Upnp.Dom.Store
