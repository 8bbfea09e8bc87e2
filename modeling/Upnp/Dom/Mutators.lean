import Upnp.Dom.InsertBefore

/-!
# The mutators

When `appendChild`, `insertBefore`, `replaceChild`, `removeChild` and
`setAttribute` keep a store well linked, and what becomes of the lists.
-/

namespace Upnp.Dom.Store

open Upnp.Lib

variable {d d' : Store} {L : Side → Addr → List Addr} {g : Addr → NodeAct → NodeAct} {s : Side}
  {a c p q r : Addr} {x y z w : NodeAct} {l : List Addr}

/-! ## Stores with the same links -/

/-- Writes that leave parents and the links between listed nodes. -/
theorem Linked.frame (h : d.Linked L) (hw : Wrote d d' g)
    (htype : ∀ a y, (g a y).nodeType = y.nodeType)
    (hparent : ∀ a y, (g a y).parentNode = y.parentNode)
    (howner : ∀ a y, (g a y).ownerNode = y.ownerNode)
    (hsib : ∀ s p, ∀ a ∈ L s p, ∀ y, (g a y).nextSibling = y.nextSibling ∧
      (g a y).prevSibling = y.prevSibling) : d'.Linked L := by
  have hpar : ∀ a, d'.parent a = d.parent a := fun a ↦ hw.parent_eq fun y _ ↦ hparent a y
  refine ⟨fun s a ↦ ?_, h.nodup, fun s a e ↦ ?_, fun a e he ↦ ?_, fun a ha ↦ ?_, fun a y' hy' ↦ ?_⟩
  · exact (h.list s a).congr (fun e he ↦ hw.next_eq fun y _ ↦ (hsib s a e he y).1)
      fun e he ↦ hw.prev_eq fun y _ ↦ (hsib s a e he y).2
  · rw [h.mem]
    constructor
    · rintro ⟨y, hy, hp, hs⟩
      exact ⟨_, hw.get_some hy, (hparent e y).trans hp, (side_eq (htype e y)).trans hs⟩
    · rintro ⟨y', hy', hp, hs⟩
      obtain ⟨y, hy, rfl⟩ := hw.get_inv hy'
      exact ⟨y, hy, (hparent e y).symm.trans hp, (side_eq (htype e y)).symm.trans hs⟩
  · rw [hw.mem_iff]
    exact h.parent_mem a e ((hpar e).symm.trans he)
  · exact h.acyclic a (ha.lift id fun b e hbe ↦ (hpar e).symm.trans hbe)
  · obtain ⟨y, hy, rfl⟩ := hw.get_inv hy'
    rw [hw.mem_iff, howner]
    exact h.owner_mem a y hy

theorem FirstLink.frame (h : d.FirstLink L s a) (hw : Wrote d d' g)
    (hg : ∀ y, (g a y).first s = y.first s) : d'.FirstLink L s a := by
  intro y' hy'
  obtain ⟨y, hy, rfl⟩ := hw.get_inv hy'
  exact (hg y).trans (h y hy)

theorem LastLink.frame (h : d.LastLink L s a) (hw : Wrote d d' g)
    (hg : ∀ y, (g a y).last s = y.last s) : d'.LastLink L s a := by
  intro y' hy'
  obtain ⟨y, hy, rfl⟩ := hw.get_inv hy'
  exact (hg y).trans (h y hy)

theorem WellLinked.withFound (h : d.WellLinked L) (b : Bool) :
    ({ d with found := b } : Store).WellLinked L :=
  ⟨h.list, h.nodup, h.mem, h.parent_mem, h.acyclic, h.owner_mem⟩

/-- `findNode` answers. -/
theorem WellLinked.findNode_some (h : d.WellLinked L) (hp : p ∈ d.nodes) (c : Addr) :
    d.findNode p c = some true ∨ d.findNode p c = some false := by
  obtain ⟨z, hz⟩ := exists_get hp
  obtain ⟨b, hb, -⟩ := h.findNode_spec hz c
  cases b
  · exact .inr hb
  · exact .inl hb

/-- What `findNode` answers depends on the lists only. -/
theorem WellLinked.findNode_eq {L' : Side → Addr → List Addr} (h : d.WellLinked L)
    (h' : d'.WellLinked L') (hz : d.get p = some z) (hw : d'.get p = some w)
    (ht : w.nodeType = z.nodeType) (hmem : ∀ s, c ∈ L' s p ↔ c ∈ L s p) :
    d'.findNode p c = d.findNode p c := by
  obtain ⟨b, hb, hspec⟩ := h.findNode_spec hz c
  obtain ⟨b', hb', hspec'⟩ := h'.findNode_spec hw c
  have hlooks : ∀ s, Looks w s ↔ Looks z s := by
    intro s
    cases s with
    | child => exact Iff.rfl
    | attr => rw [Looks, Looks, ht]
  simp only [hlooks, hmem] at hspec'
  rw [hb, hb', Bool.eq_iff_iff.mpr (hspec'.trans hspec.symm)]

/-- Taking a node without a parent out of the lists changes none. -/
theorem Linked.erase_of_parent (h : d.Linked L) (hpar : d.parent c = none) :
    (fun s a ↦ (L s a).erase c) = L := by
  funext s a
  exact List.erase_of_not_mem (h.notMem hpar)

/-! ## `appendChild` -/

/-- `findNodeFromRef`, as `appendChild` calls it. -/
def finds (d : Store) (p c : Addr) : Option Bool := do
  let self ← d.get p
  d.findNodeFromRef c d.nodes.size self.ownerNode d.found

/-- The new child is not above its parent, it is found if and only if it has a parent, and an
attribute is not moved away from an end of its list. -/
structure AppendSafe (d : Store) (p c : Addr) : Prop where
  up : ¬ Relation.ReflTransGen d.IsParent c p
  finds : d.finds p c = some true ↔ d.parent c ≠ none
  inner : ∀ q, d.parent c = some q → d.findNode q c = some true → d.Inner c

/-- The lists after `c` has been put at the end of the list `s` of `p`. -/
def appended (L : Side → Addr → List Addr) (s : Side) (p c : Addr) : Side → Addr → List Addr :=
  withList (fun s a ↦ (L s a).erase c) s p ((L s p).erase c ++ [c])

theorem WellLinked.appendChild (h : d.WellLinked L) (hp : p ∈ d.nodes) (hx : d.get c = some x)
    (hs : AppendSafe d p c) :
    ∃ d' o, d.appendChild p c = some (d', o) ∧
      (o = .done ∧ d'.WellLinked (appended L x.side p c) ∨
        o = .NOT_FOUND_ERR ∧ d.parent c ≠ none ∧ d'.WellLinked L) := by
  obtain ⟨z, hz⟩ := exists_get hp
  obtain ⟨b, hb, -⟩ := h.findNodeFromRef_some (c := c) (h.owner_mem p z hz)
    (h.hasDepth (h.owner_mem p z hz)) d.found
  have hfinds : d.finds p c = some b := by rw [finds, hz]; exact hb
  have hpar := hs.finds
  rw [hfinds, parent_of_get hx] at hpar
  have h₁ := h.withFound b
  set d₁ : Store := { d with found := b } with hd₁
  have hx₁ : d₁.get c = some x := hx
  have hp₁ : p ∈ d₁.nodes := hp
  cases b with
  | true =>
    obtain ⟨q, hq⟩ := Option.ne_none_iff_exists'.mp (hpar.mp rfl)
    have hqmem : q ∈ d₁.nodes := h.parent_mem q c ((parent_of_get hx).trans hq)
    obtain ⟨v, hv⟩ := exists_get hqmem
    have hsame : d₁.findNode q c = d.findNode q c := h.findNode_eq h₁ hv hv rfl fun _ ↦ Iff.rfl
    rcases h₁.findNode_some hqmem c with hf | hf
    · obtain ⟨hc, d₂, h₂, hw₂⟩ := h₁.removeChild_of_true hqmem hx₁ hf
      have hinner : d₁.Inner c := hs.inner q ((parent_of_get hx).trans hq) (hsame.symm.trans hf)
      have hup : ¬ Relation.ReflTransGen d₂.IsParent c p := fun hcp ↦
        hs.up (hcp.lift id fun _ _ hpe ↦ parent_of_removed hw₂ (fun _ _ ↦ rfl) hpe)
      obtain ⟨d₃, h₃, hl₃⟩ := (h₁.removed hx₁ hc hw₂ hinner).relink (hw₂.get_some hx₁)
        (hw₂.mem_iff.mpr hp₁) (if_pos rfl) hup
      refine ⟨d₃, .done, ?_, .inl ⟨rfl, hl₃⟩⟩
      simp [Store.appendChild, hz, hb, ← hd₁, hx₁, hq, h₂, h₃]
    · refine ⟨d₁, .NOT_FOUND_ERR, ?_, .inr ⟨rfl, ?_, h₁⟩⟩
      · simp [Store.appendChild, hz, hb, ← hd₁, hx₁, hq, removeChild_of_false hf]
      · rw [parent_of_get hx]
        exact hpar.mp rfl
  | false =>
    have hnone : x.parentNode = none := by
      by_contra hne
      cases hpar.mpr hne
    obtain ⟨d₃, h₃, hl₃⟩ := h₁.relink hx₁ hp₁ hnone hs.up
    have hlists := h.linked.erase_of_parent ((parent_of_get hx).trans hnone)
    refine ⟨d₃, .done, ?_, .inl ⟨rfl, ?_⟩⟩
    · simp [Store.appendChild, hz, hb, ← hd₁, h₃]
    · rw [appended, congrFun (congrFun hlists x.side) p, hlists]
      exact hl₃

/-! ## `insertBefore` -/

/-- The new child is of the kind of the other node and not above its parent, and the link to the
node before it is already the right one. -/
structure InsertSafe (d : Store) (p c r : Addr) : Prop where
  ne : c ≠ r
  side : d.sideOf c = d.sideOf r
  up : ¬ Relation.ReflTransGen d.IsParent c p
  /-- A node of the same list is put at its begin; the last attribute is not moved. -/
  inside : d.findNode p c = some true →
    (d.prev r = none ∨ d.prev r = some c ∧ d.prev c = none) ∧
      (d.sideOf c = some .attr → d.next c ≠ none)
  /-- Any other node is in no list, and its old `PrevSibling` is that of the other node. -/
  outside : d.findNode p c = some false → d.parent c = none ∧ d.prev c = d.prev r

/-- What the removal in `insertBefore` does to the node `a`. -/
def takenOut (p c : Addr) (x : NodeAct) (a : Addr) (y : NodeAct) : NodeAct :=
  { removed p c x a y with
    nextSibling := if a = c then none else (removed p c x a y).nextSibling
    prevSibling := if a = c then none else (removed p c x a y).prevSibling }

/-- A node is taken out of its list and its links to siblings are cleared.  The links to the ends
of the lists stay right, but for those that `removeChild` leaves on an attribute. -/
theorem WellLinked.takeOut (h : d.WellLinked L) (hp : p ∈ d.nodes) (hx : d.get c = some x)
    (hf : d.findNode p c = some true) :
    ∃ d₁ d₂, d.removeChild p c = some (d₁, .done) ∧
      d₁.modify c (fun y ↦ { y with nextSibling := none, prevSibling := none }) = some d₂ ∧
      Wrote d d₂ (takenOut p c x) ∧ d₂.Linked (fun s a ↦ (L s a).erase c) ∧
      (∀ s a, (a = p → s = .attr → x.side = .attr → x.prevSibling ≠ none) →
        d₂.FirstLink (fun s a ↦ (L s a).erase c) s a) ∧
      ∀ s a, (a = p → s = .attr → x.side = .attr → x.nextSibling ≠ none) →
        d₂.LastLink (fun s a ↦ (L s a).erase c) s a := by
  obtain ⟨hc, d₁, h₁, hw₁⟩ := h.removeChild_of_true hp hx hf
  obtain ⟨d₂, h₂, hm₂⟩ := modify_spec (hw₁.mem_iff.mpr (mem_of_get hx)) fun y ↦
    { y with nextSibling := none, prevSibling := none }
  have hw₂ : Wrote d₁ d₂ fun a y ↦ { y with
      nextSibling := if a = c then none else y.nextSibling
      prevSibling := if a = c then none else y.prevSibling } :=
    hm₂.congr fun a y _ ↦ by split <;> rfl
  refine ⟨d₁, d₂, h₁, h₂, hw₁.trans hw₂, ?_, fun s a hok ↦ ?_, fun s a hok ↦ ?_⟩
  · refine (h.linked.removed hx hc hw₁).frame hw₂ (fun _ _ ↦ rfl) (fun _ _ ↦ rfl)
      (fun _ _ ↦ rfl) fun s a e he y ↦ ?_
    have hec : e ≠ c := fun heq ↦ (h.nodup s a).not_mem_erase (heq ▸ he)
    exact ⟨if_neg hec, if_neg hec⟩
  · refine ((h.firstLink s a).removed h.linked hx hc hw₁ hok).frame hw₂ fun _ ↦ ?_
    cases s <;> rfl
  · refine ((h.lastLink s a).removed h.linked hx hc hw₁ hok).frame hw₂ fun _ ↦ ?_
    cases s <;> rfl

/-- A node is put before another one of the same parent. -/
theorem WellLinked.insertBefore_of_true (h : d.WellLinked L) (hp : p ∈ d.nodes)
    (hx : d.get c = some x) (hw : d.get r = some w) (hf : d.findNode p r = some true)
    (hs : InsertSafe d p c r) :
    ∃ d', d.insertBefore p c (some r) = some (d', .done) ∧ SameTypes d d' ∧
      d'.WellLinked fun s a ↦ before c r ((L s a).erase c) := by
  obtain ⟨z, hz⟩ := exists_get hp
  have hside : x.side = w.side := by
    have hside := hs.side
    rw [sideOf_of_get hx, sideOf_of_get hw] at hside
    exact Option.some.inj hside
  have hr : r ∈ L x.side p := hside ▸ (h.mem_of_findNode hz hw hf).2
  rcases h.findNode_some hp c with hfc | hfc
  · obtain ⟨hprev, hnext⟩ := hs.inside hfc
    rw [sideOf_of_get hx, next_of_get hx] at hnext
    rw [prev_of_get hw, prev_of_get hx] at hprev
    obtain ⟨hc, -⟩ := h.removeChild_of_true hp hx hfc
    obtain ⟨d₁, d₂, h₁, h₂, hw₂, hl₂, hfirst, hlast⟩ := h.takeOut hp hx hfc
    have hr₂ : r ∈ (L x.side p).erase c := (List.mem_erase_of_ne hs.ne.symm).mpr hr
    have hup₂ : ¬ Relation.ReflTransGen d₂.IsParent c p :=
      fun hcp ↦ hs.up (hcp.lift id fun _ _ hpe ↦ parent_of_removed hw₂ (fun _ _ ↦ rfl) hpe)
    -- the other node has become the first one
    have hprev₂ : (takenOut p c x r w).prevSibling = none := by
      have hrw : (takenOut p c x r w).prevSibling =
          if x.nextSibling = some r then x.prevSibling else w.prevSibling := if_neg hs.ne.symm
      by_cases hxr : x.nextSibling = some r
      · rw [hrw, if_pos hxr]
        have hwprev := h.linked.prev_of_next hc hx hw hxr
        rcases hprev with hprev | ⟨-, hprev⟩
        · simp [hwprev] at hprev
        · exact hprev
      · rw [if_neg hxr] at hrw
        rcases hprev with hprev | ⟨hprev, -⟩
        · exact hrw.trans hprev
        · -- it would come behind a node that is not in the list any more
          have hmem := ((hl₂.around hr₂ (hw₂.get_some hw)).1 c (hrw.trans hprev)).1
          exact absurd hmem (h.nodup x.side p).not_mem_erase
    have hfirst₂ : ∀ s a, s = x.side ∧ a = p ∧ (takenOut p c x c x).prevSibling = none ∨
        d₂.FirstLink (fun s a ↦ (L s a).erase c) s a := by
      intro s a
      by_cases hplace : s = x.side ∧ a = p
      · exact .inl ⟨hplace.1, hplace.2, if_pos rfl⟩
      · exact .inr (hfirst s a fun hap hsa hxa ↦ absurd ⟨hsa.trans hxa.symm, hap⟩ hplace)
    obtain ⟨d₃, h₃, hsame, hl₃⟩ := hl₂.linkBefore (hw₂.get_some hx) (hw₂.get_some hw) hr₂
      (hw₂.mem_iff.mpr hp) (if_pos rfl) hup₂ ((if_pos rfl).trans hprev₂.symm) hfirst₂
      fun s a ↦ hlast s a fun _ _ hxa ↦ hnext (congrArg some hxa)
    refine ⟨d₃, ?_, (hw₂.sameTypes fun _ _ ↦ rfl).trans hsame, hl₃⟩
    simp [Store.insertBefore, hf, hfc, h₁, h₂, h₃]
  · obtain ⟨hpar, hprev⟩ := hs.outside hfc
    rw [prev_of_get hx, prev_of_get hw] at hprev
    have hlists := h.linked.erase_of_parent hpar
    rw [parent_of_get hx] at hpar
    obtain ⟨d₁, h₁, hsame, hl₁⟩ := h.linked.linkBefore hx hw hr hp hpar hs.up hprev
      (fun s a ↦ .inr (h.firstLink s a)) h.lastLink
    refine ⟨d₁, ?_, hsame, ?_⟩
    · simp [Store.insertBefore, hf, hfc, h₁]
    · have heq : (fun s a ↦ before c r ((L s a).erase c)) = fun s a ↦ before c r (L s a) := by
        funext s a
        rw [congrFun (congrFun hlists s) a]
      rw [heq]
      exact hl₁

/-! ## `replaceChild` -/

theorem mem_before_self (c r : Addr) (l : List Addr) : r ∈ before c r l ↔ r ∈ l := by
  induction l with
  | nil => exact Iff.rfl
  | cons a l ih =>
    rw [before]
    by_cases har : a = r
    · simp [har]
    · rw [if_neg har, List.mem_cons, List.mem_cons, ih]

theorem before_erase (h : c ≠ r) : (before c r l).erase r = l.replace r c := by
  induction l with
  | nil => rfl
  | cons a l ih =>
    rw [before]
    by_cases har : a = r
    · simp [har, h]
    · have hra : r ≠ a := fun heq ↦ har heq.symm
      rw [if_neg har, List.erase_cons_tail (by simpa using har), ih]
      rw [List.replace_cons, beq_eq_false_iff_ne.mpr hra]

/-- What is last when a node has been taken out. -/
theorem getLast?_of_erase {m : List Addr} (h : l.erase c = m ++ [r]) :
    l.getLast? = some r ∨ l.getLast? = some c := by
  rcases List.eq_nil_or_concat l with rfl | ⟨k, e, rfl⟩
  · simp at h
  · rw [List.concat_eq_append] at h ⊢
    rw [List.getLast?_concat]
    by_cases hec : e = c
    · exact .inr (congrArg some hec)
    · have hlast : ((k ++ [e]).erase c).getLast? = some e := by
        rw [List.erase_append]
        split
        · exact List.getLast?_concat
        · rw [List.erase_of_not_mem (by simpa using fun heq : c = e ↦ hec heq.symm)]
          exact List.getLast?_concat
      rw [h, List.getLast?_concat] at hlast
      exact .inl hlast.symm

theorem Linked.next_last (h : d.Linked L) (hlast : (L s a).getLast? = some c) :
    d.next c = none := by
  obtain ⟨k, hk⟩ := List.getLast?_eq_some_iff.mp hlast
  have hlist := h.list s a
  rw [hk] at hlist
  exact hlist.links.2

/-- A node takes the place of another one of the same parent. -/
theorem WellLinked.replaceChild_of_true (h : d.WellLinked L) (hp : p ∈ d.nodes)
    (hx : d.get c = some x) (hw : d.get r = some w) (hf : d.findNode p r = some true)
    (hs : InsertSafe d p c r) (hnext : d.sideOf r = some .attr → d.next r ≠ none) :
    ∃ d', d.replaceChild p c (some r) = some (d', .done) ∧
      d'.WellLinked fun s a ↦ ((L s a).erase c).replace r c := by
  obtain ⟨z, hz⟩ := exists_get hp
  obtain ⟨hlooks, hr⟩ := h.mem_of_findNode hz hw hf
  obtain ⟨d₁, h₁, hsame, hl₁⟩ := h.insertBefore_of_true hp hx hw hf hs
  obtain ⟨z₁, hz₁, htz⟩ : ∃ z₁, d₁.get p = some z₁ ∧ z₁.nodeType = z.nodeType := by
    simpa [hz] using hsame p
  obtain ⟨w₁, hw₁, htw⟩ : ∃ w₁, d₁.get r = some w₁ ∧ w₁.nodeType = w.nodeType := by
    simpa [hw] using hsame r
  have hmem : ∀ s, r ∈ before c r ((L s p).erase c) ↔ r ∈ L s p := fun s ↦ by
    rw [mem_before_self, List.mem_erase_of_ne hs.ne.symm]
  have hf₁ : d₁.findNode p r = some true := (h.findNode_eq hl₁ hz hz₁ htz hmem).trans hf
  have hinner : d₁.Inner r := by
    rw [Inner, sideOf_of_get hw₁, side_eq htw]
    intro hattr
    have hattr := Option.some.inj hattr
    rw [hattr] at hr hlooks
    have hr' : r ∈ (L .attr p).erase c := (List.mem_erase_of_ne hs.ne.symm).mpr hr
    obtain ⟨m₁, m₂, hm, hrm⟩ := List.eq_append_cons_of_mem hr'
    have hlist := hl₁.linked.list .attr p
    rw [hm, before_append hrm, List.append_cons] at hlist
    rw [hlist.links.1, hlist.links.2, List.getLast?_concat]
    refine ⟨Option.some_ne_none c, fun hnil ↦ ?_⟩
    rw [List.head?_eq_none_iff] at hnil
    subst hnil
    -- the list ends at the old child, or the new child is the last attribute
    rcases getLast?_of_erase hm with hlast | hlast
    · exact hnext (by rw [sideOf_of_get hw, hattr]) (h.linked.next_last hlast)
    · obtain ⟨b, hb, hspec⟩ := h.findNode_spec hz c
      obtain rfl : b = true := hspec.mpr ⟨.attr, hlooks, List.mem_of_mem_getLast? hlast⟩
      have hside : d.sideOf c = some .attr := by rw [hs.side, sideOf_of_get hw, hattr]
      exact (hs.inside hb).2 hside (h.linked.next_last hlast)
  obtain ⟨hr₁, d₂, h₂, hw₂⟩ := hl₁.removeChild_of_true (mem_of_get hz₁) hw₁ hf₁
  have hl₂ := hl₁.removed hw₁ hr₁ hw₂ hinner
  refine ⟨d₂, ?_, ?_⟩
  · simp [Store.replaceChild, hf, h₁, h₂]
  · have heq : (fun s a ↦ (before c r ((L s a).erase c)).erase r) =
        fun s a ↦ ((L s a).erase c).replace r c := by
      funext s a
      exact before_erase hs.ne
    rw [← heq]
    exact hl₂

end Upnp.Dom.Store
