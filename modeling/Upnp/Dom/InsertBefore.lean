import Upnp.Dom.Insertion

/-!
# Insertion before another node

`insertBefore` writes the link from the node before `refChild`, but not the one
back to it: `PrevSibling` of the new node stays what it was.
-/

namespace Upnp.Dom.Store

open Upnp.Lib

variable {d d' : Store} {L : Side → Addr → List Addr} {g : Addr → NodeAct → NodeAct} {s : Side}
  {a c o p r : Addr} {x y z : NodeAct} {l : List Addr}

/-- What `linkBefore` does to the node `a` when it puts `c` with the fields `x` before `r`, behind
`before`. -/
def linkedBefore (p c r : Addr) (x : NodeAct) (before : Option Addr) (o a : Addr) (y : NodeAct) :
    NodeAct :=
  { y with
    parentNode := if a = c then some p else y.parentNode
    ownerNode := if a = c then o else y.ownerNode
    nextSibling := if a = c then some r else if before = some a then some c else y.nextSibling
    prevSibling := if a = r then some c else y.prevSibling
    firstChild := if a = p ∧ x.side = .child ∧ x.prevSibling = none then some c else y.firstChild
    firstAttr := if a = p ∧ x.side = .attr ∧ x.prevSibling = none then some c else y.firstAttr }

/-- The link to the first node is written when `c`, with the fields `x`, has no node before it. -/
theorem firstWrite_spec (hp : p ∈ d.nodes) (x : NodeAct) :
    ∃ d', (if x.nodeType ≠ .ATTRIBUTE_NODE ∧ x.prevSibling = none then
        d.modify p fun y ↦ { y with firstChild := some c }
      else if x.nodeType = .ATTRIBUTE_NODE ∧ x.prevSibling = none then
        d.modify p fun y ↦ { y with firstAttr := some c }
      else some d) = some d' ∧
      Wrote d d' fun a y ↦ { y with
        firstChild := if a = p ∧ x.side = .child ∧ x.prevSibling = none then some c
          else y.firstChild
        firstAttr := if a = p ∧ x.side = .attr ∧ x.prevSibling = none then some c
          else y.firstAttr } := by
  by_cases hprev : x.prevSibling = none
  · by_cases ht : x.nodeType = .ATTRIBUTE_NODE
    · obtain ⟨d', h, hw⟩ := modify_spec hp fun y ↦ { y with firstAttr := some c }
      refine ⟨d', by simp [ht, hprev, h], hw.congr fun a y _ ↦ ?_⟩
      by_cases hap : a = p <;> simp [side_attr ht, hprev, hap]
    · obtain ⟨d', h, hw⟩ := modify_spec hp fun y ↦ { y with firstChild := some c }
      refine ⟨d', by simp [ht, hprev, h], hw.congr fun a y _ ↦ ?_⟩
      by_cases hap : a = p <;> simp [side_child ht, hprev, hap]
  · refine ⟨d, by simp [hprev], rfl, fun a ↦ ?_⟩
    cases d.get a <;> simp [hprev]

theorem linkBefore_spec {w : NodeAct} (hx : d.get c = some x) (hr : d.get r = some w)
    (hz : d.get p = some z) (hrc : r ≠ c)
    (hbefore : ∀ e, w.prevSibling = some e → e ∈ d.nodes) :
    ∃ d', d.linkBefore p c r = some d' ∧
      Wrote d d' (linkedBefore p c r x w.prevSibling z.ownerNode) := by
  have hcmem := mem_of_get hx
  obtain ⟨d₁, h₁, hw₁⟩ := modify_spec hcmem fun y ↦ { y with nextSibling := some r }
  have hr₁ : d₁.get r = some w := by rw [hw₁.get_some hr, if_neg hrc]
  obtain ⟨d₂, h₂, hw₂⟩ := modifyAt_spec (d := d₁)
    (fun e he ↦ hw₁.mem_iff.mpr (hbefore e he)) fun y ↦ { y with nextSibling := some c }
  obtain ⟨d₃, h₃, hw₃⟩ := modify_spec (hw₂.mem_iff.mpr (hw₁.mem_iff.mpr hcmem)) fun y ↦
    { y with nextSibling := some r }
  obtain ⟨d₄, h₄, hw₄⟩ := modify_spec
    (hw₃.mem_iff.mpr (hw₂.mem_iff.mpr (hw₁.mem_iff.mpr (mem_of_get hr)))) fun y ↦
    { y with prevSibling := some c }
  have hf₁ : Wrote d d₁ fun a y ↦
      { y with nextSibling := if a = c then some r else y.nextSibling } :=
    hw₁.congr fun a y _ ↦ by split <;> rfl
  have hf₂ : Wrote d₁ d₂ fun a y ↦
      { y with nextSibling := if w.prevSibling = some a then some c else y.nextSibling } :=
    hw₂.congr fun a y _ ↦ by split <;> rfl
  have hf₃ : Wrote d₂ d₃ fun a y ↦
      { y with nextSibling := if a = c then some r else y.nextSibling } :=
    hw₃.congr fun a y _ ↦ by split <;> rfl
  have hf₄ : Wrote d₃ d₄ fun a y ↦
      { y with prevSibling := if a = r then some c else y.prevSibling } :=
    hw₄.congr fun a y _ ↦ by split <;> rfl
  -- the links between the siblings
  have hsib : Wrote d d₄ fun a y ↦
      { y with
        nextSibling := if a = c then some r else if w.prevSibling = some a then some c
          else y.nextSibling
        prevSibling := if a = r then some c else y.prevSibling } := by
    refine (((hf₁.trans hf₂).trans hf₃).trans hf₄).congr fun a y _ ↦ ?_
    by_cases hac : a = c <;> simp [hac]
  obtain ⟨d₅, h₅, hw₅⟩ := firstWrite_spec (c := c) (hsib.mem_iff.mpr (mem_of_get hz)) x
  have hf := hsib.trans hw₅
  obtain ⟨d₆, h₆, hw₆⟩ := modify_spec (hf.mem_iff.mpr hcmem) fun y ↦
    { y with parentNode := some p, ownerNode := z.ownerNode }
  refine ⟨d₆, ?_, (hf.trans hw₆).congr fun a y _ ↦ ?_⟩
  · have hx₄ : ∃ n, d₄.get c = some n ∧ n.nodeType = x.nodeType ∧
        n.prevSibling = x.prevSibling :=
      ⟨_, hsib.get_some hx, rfl, if_neg fun heq ↦ hrc heq.symm⟩
    obtain ⟨n, hn, hnt, hnp⟩ := hx₄
    have hz₅ : ∃ n, d₅.get p = some n ∧ n.ownerNode = z.ownerNode := ⟨_, hf.get_some hz, rfl⟩
    obtain ⟨m, hm, hmo⟩ := hz₅
    rw [← hnt, ← hnp] at h₅
    rw [← hmo] at h₆
    simp only [linkBefore, h₁, hr₁, h₂, h₃, h₄, hn, Option.bind_eq_bind, Option.bind_some]
    by_cases hchild : n.nodeType ≠ .ATTRIBUTE_NODE ∧ n.prevSibling = none
    · rw [if_pos hchild] at h₅ ⊢
      rw [h₅, Option.bind_some, hm, Option.bind_some, h₆]
    · rw [if_neg hchild] at h₅ ⊢
      by_cases hattr : n.nodeType = .ATTRIBUTE_NODE ∧ n.prevSibling = none
      · rw [if_pos hattr] at h₅ ⊢
        rw [h₅, Option.bind_some, hm, Option.bind_some, h₆]
      · rw [if_neg hattr] at h₅ ⊢
        obtain rfl := Option.some.inj h₅
        rw [hm, Option.bind_some, h₆]
  · by_cases hac : a = c <;> simp [linkedBefore, hac]

theorem first_linkedBefore {before : Option Addr} :
    (linkedBefore p c r x before o a y).first s =
      if s = x.side ∧ a = p ∧ x.prevSibling = none then some c else y.first s := by
  cases s <;> cases hs : x.side <;> simp [linkedBefore, NodeAct.first, hs]

theorem last_linkedBefore {before : Option Addr} :
    (linkedBefore p c r x before o a y).last s = y.last s := by
  cases s <;> rfl

/-- The list with `new` before `ref`. -/
def before (new ref : Addr) : List Addr → List Addr
  | [] => []
  | a :: l => if a = ref then new :: a :: l else a :: before new ref l

theorem before_of_notMem {new ref : Addr} (h : ref ∉ l) : before new ref l = l := by
  induction l with
  | nil => rfl
  | cons a l ih =>
    rw [List.mem_cons, not_or] at h
    rw [before, if_neg fun heq ↦ h.1 heq.symm, ih h.2]

theorem before_append {new ref : Addr} {k : List Addr} (h : ref ∉ l) :
    before new ref (l ++ ref :: k) = l ++ new :: ref :: k := by
  induction l with
  | nil => exact if_pos rfl
  | cons a l ih =>
    rw [List.mem_cons, not_or] at h
    rw [List.cons_append, before, if_neg fun heq ↦ h.1 heq.symm, ih h.2]
    rfl

/-- The nodes keep their types. -/
def SameTypes (d d' : Store) : Prop :=
  ∀ a, (d'.get a).map NodeAct.nodeType = (d.get a).map NodeAct.nodeType

theorem SameTypes.trans {d'' : Store} (h : SameTypes d d') (h' : SameTypes d' d'') :
    SameTypes d d'' := fun a ↦ (h' a).trans (h a)

theorem Wrote.sameTypes (hw : Wrote d d' g) (hg : ∀ a y, (g a y).nodeType = y.nodeType) :
    SameTypes d d' := by
  intro a
  rw [hw.get]
  cases d.get a with
  | none => rfl
  | some y => exact congrArg some (hg a y)

/-- Only one list has the node before which another one is put. -/
theorem Linked.before_eq_withList {l₁ l₂ : List Addr} (h : d.Linked L) (hl : L s p = l₁ ++ r :: l₂)
    (hr₁ : r ∉ l₁) :
    (fun s' a ↦ before c r (L s' a)) = withList L s p (l₁ ++ c :: r :: l₂) := by
  have hmem : r ∈ L s p := hl ▸ List.mem_append_right _ List.mem_cons_self
  funext s' a
  by_cases hplace : s' = s ∧ a = p
  · obtain ⟨rfl, rfl⟩ := hplace
    rw [withList_self, hl, before_append hr₁]
  · rw [withList_of_ne hplace, before_of_notMem fun hra ↦ hplace (h.place_eq hra hmem)]

/-- The links that are written belong to the new node and its neighbours. -/
theorem Linked.puts_linkedBefore {w : NodeAct} {l₁ l₂ : List Addr} (h : d.Linked L)
    (hz : d.get p = some z) (hwprev : w.prevSibling = l₁.getLast?) :
    Puts d (linkedBefore p c r x w.prevSibling z.ownerNode) p c (l₁ ++ c :: r :: l₂) := by
  constructor
  · exact fun _ _ ↦ rfl
  · exact fun _ _ ↦ rfl
  · intro a y hy
    by_cases ha : a = c
    · simpa [linkedBefore, ha] using h.owner_mem p z hz
    · simpa [linkedBefore, ha] using h.owner_mem a y hy
  · intro a y ha
    simp only [List.mem_append, List.mem_cons, not_or] at ha
    refine ⟨?_, if_neg ha.2.2.1⟩
    change (if a = c then some r else if w.prevSibling = some a then some c else _) = _
    rw [if_neg ha.2.1, if_neg]
    rw [hwprev]
    exact fun hlast ↦ ha.1 (List.mem_of_mem_getLast? hlast)

/-- The list is linked both ways with the new node in it. -/
theorem Linked.dlist_linkedBefore {w : NodeAct} {l₁ l₂ : List Addr} (h : d.Linked L)
    (hx : d.get c = some x) (hr : d.get r = some w)
    (hw : Wrote d d' (linkedBefore p c r x w.prevSibling o)) (hc : c ∉ L s p) (hrc : r ≠ c)
    (hl : L s p = l₁ ++ r :: l₂) (hprev : x.prevSibling = w.prevSibling) :
    DList d'.next d'.prev (l₁ ++ c :: r :: l₂).head? (l₁ ++ c :: r :: l₂)
      (l₁ ++ c :: r :: l₂).getLast? := by
  have hold := h.list s p
  have hnd := h.nodup s p
  have hin : ∀ e ∈ L s p, e ∈ d.nodes := fun e he ↦ h.mem_nodes he
  rw [hl] at hold hnd hc hin
  have hne : ∀ e ∈ l₁ ++ r :: l₂, e ≠ c := fun e he hec ↦ hc (hec ▸ he)
  have hins : DList d'.next d'.prev (l₁.head?.or (some c)) (l₁ ++ c :: r :: l₂)
      (l₁ ++ r :: l₂).getLast? := by
    refine hold.insert hnd (fun e he ↦ ?_) (fun e he ↦ ?_) ?_ ?_
    · obtain ⟨y, hy⟩ := exists_get (hin e he)
      rw [next_of_get (hw.get_some hy), prev_of_get hr, next_of_get hy]
      exact if_neg (hne e he)
    · obtain ⟨y, hy⟩ := exists_get (hin e he)
      rw [prev_of_get (hw.get_some hy), prev_of_get hy]
      rfl
    · rw [next_of_get (hw.get_some hx)]
      exact if_pos rfl
    · rw [prev_of_get (hw.get_some hx), prev_of_get hr, ← hprev]
      exact if_neg fun heq ↦ hrc heq.symm
  rw [← hins.first_eq, ← hins.last_eq]
  exact hins

/-- A node without a parent is put before another one, if its link to the node before it is the
one of that node.  A wrong link to the first node is put right on the way. -/
theorem Linked.linkBefore {w : NodeAct} (h : d.Linked L) (hx : d.get c = some x)
    (hr : d.get r = some w) (hmem : r ∈ L x.side p) (hp : p ∈ d.nodes) (hpar : x.parentNode = none)
    (hup : ¬ Relation.ReflTransGen d.IsParent c p) (hprev : x.prevSibling = w.prevSibling)
    (hfirst : ∀ s a, s = x.side ∧ a = p ∧ x.prevSibling = none ∨ d.FirstLink L s a)
    (hlast : ∀ s a, d.LastLink L s a) :
    ∃ d', d.linkBefore p c r = some d' ∧ SameTypes d d' ∧
      d'.WellLinked fun s a ↦ before c r (L s a) := by
  obtain ⟨z, hz⟩ := exists_get hp
  have hc : ∀ s a, c ∉ L s a := fun s a ↦ h.notMem ((parent_of_get hx).trans hpar)
  have hrc : r ≠ c := fun heq ↦ hc _ _ (heq ▸ hmem)
  obtain ⟨d', heq, hw⟩ := linkBefore_spec hx hr hz hrc fun e he ↦
    ((h.apart hmem hr).prev e he).1
  obtain ⟨l₁, l₂, hl, hr₁, -, hwprev, -⟩ := h.split hmem hr
  rw [h.before_eq_withList hl hr₁]
  have hputs : Puts d (linkedBefore p c r x w.prevSibling z.ownerNode) p c
      (l₁ ++ c :: r :: l₂) := h.puts_linkedBefore hz hwprev
  have hlist := h.dlist_linkedBefore hx hr hw (hc x.side p) hrc hl hprev
  have hperm : (l₁ ++ c :: r :: l₂).Perm (c :: L x.side p) := hl ▸ List.perm_middle
  refine ⟨d', heq, hw.sameTypes fun _ _ ↦ rfl,
    (h.put hx hpar hp hup hw hputs hlist hperm).wellLinked ?_ ?_⟩
  · intro s a y' hy'
    obtain ⟨y, hy, rfl⟩ := hw.get_inv hy'
    rw [first_linkedBefore]
    by_cases hplace : s = x.side ∧ a = p
    · obtain ⟨rfl, rfl⟩ := hplace
      rw [withList_self]
      cases l₁ with
      | nil =>
        rw [if_pos ⟨rfl, rfl, hprev.trans hwprev⟩]
        rfl
      | cons b l₁ =>
        have hsome : x.prevSibling ≠ none := by
          rw [hprev, hwprev]
          simp [List.getLast?_cons]
        have hf : d.FirstLink L x.side a := (hfirst x.side a).resolve_left fun hif ↦ hsome hif.2.2
        rw [if_neg fun hif ↦ hsome hif.2.2, hf y hy, hl]
        rfl
    · have hf : d.FirstLink L s a := (hfirst s a).resolve_left fun hif ↦ hplace ⟨hif.1, hif.2.1⟩
      rw [if_neg fun hif ↦ hplace ⟨hif.1, hif.2.1⟩, withList_of_ne hplace, hf y hy]
  · intro s a y' hy'
    obtain ⟨y, hy, rfl⟩ := hw.get_inv hy'
    rw [last_linkedBefore, hlast s a y hy]
    by_cases hplace : s = x.side ∧ a = p
    · obtain ⟨rfl, rfl⟩ := hplace
      rw [withList_self, hl]
      simp [List.getLast?_append, List.getLast?_cons]
    · rw [withList_of_ne hplace]

end Upnp.Dom.Store
