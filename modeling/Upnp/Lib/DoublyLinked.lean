import Mathlib.Data.List.Nodup
import Mathlib.Tactic.Common

/-!
# Doubly linked lists

`next` and `prev` give the links of the nodes.  `DSeg next prev b p l t q` says
that a list of nodes `l` is linked both ways: it is entered at `p` coming from
`b`, and left at its last node `t` (or `b`, when it is empty) towards `q`.
`DList` is a whole list, with nothing before it and nothing behind.

A list is edited by cutting it into segments, redirecting the links at their
ends (`DSeg.redirect_next`, `DSeg.redirect_prev`) and putting them together.
-/

namespace Upnp.Lib

universe u

variable {α : Type u}

/-- The nodes `l` are linked both ways, between `b` and `q`. -/
def DSeg (next prev : α → Option α) :
    Option α → Option α → List α → Option α → Option α → Prop
  | b, p, [], t, q => p = q ∧ t = b
  | b, p, x :: l, t, q => p = some x ∧ prev x = b ∧ DSeg next prev (some x) (next x) l t q

/-- The nodes `l` are a doubly linked list from `first` to `last`. -/
def DList (next prev : α → Option α) (first : Option α) (l : List α) (last : Option α) : Prop :=
  DSeg next prev none first l last none

variable {next prev next' prev' : α → Option α} {b p q t r : Option α} {l l' : List α} {x y : α}

@[simp] theorem dseg_nil : DSeg next prev b p [] t q ↔ p = q ∧ t = b := Iff.rfl

@[simp] theorem dseg_cons : DSeg next prev b p (x :: l) t q ↔
    p = some x ∧ prev x = b ∧ DSeg next prev (some x) (next x) l t q := Iff.rfl

/-- Segments are put together and cut apart. -/
theorem dseg_append : DSeg next prev b p (l ++ l') t q ↔
    ∃ c m, DSeg next prev b p l c m ∧ DSeg next prev c m l' t q := by
  induction l generalizing b p with
  | nil =>
    constructor
    · intro h
      exact ⟨b, p, ⟨rfl, rfl⟩, h⟩
    · rintro ⟨c, m, ⟨rfl, rfl⟩, h⟩
      exact h
  | cons x l ih =>
    simp only [List.cons_append, dseg_cons, ih]
    constructor
    · rintro ⟨rfl, hb, c, m, hl, hl'⟩
      exact ⟨c, m, ⟨rfl, hb, hl⟩, hl'⟩
    · rintro ⟨c, m, ⟨rfl, hb, hl⟩, hl'⟩
      exact ⟨rfl, hb, c, m, hl, hl'⟩

/-- A segment depends on the links of its nodes only. -/
theorem DSeg.congr (h : DSeg next prev b p l t q) (hnext : ∀ x ∈ l, next' x = next x)
    (hprev : ∀ x ∈ l, prev' x = prev x) : DSeg next' prev' b p l t q := by
  induction l generalizing b p with
  | nil => exact h
  | cons x l ih =>
    obtain ⟨rfl, hb, hl⟩ := h
    rw [List.forall_mem_cons] at hnext hprev
    refine ⟨rfl, hprev.1.trans hb, ?_⟩
    rw [hnext.1]
    exact ih hl hnext.2 hprev.2

/-- The end of a segment. -/
theorem DSeg.last_eq (h : DSeg next prev b p l t q) : t = l.getLast?.or b := by
  induction l generalizing b p with
  | nil => exact h.2
  | cons x l ih =>
    obtain ⟨-, -, hl⟩ := h
    rw [ih hl, List.getLast?_cons]
    cases l.getLast? <;> rfl

/-- The begin of a segment. -/
theorem DSeg.first_eq (h : DSeg next prev b p l t q) : p = l.head?.or q := by
  cases l with
  | nil => exact h.1
  | cons x l => exact h.1

/-- The links to the next element determine the elements. -/
theorem DSeg.unique {b' t' : Option α} (h : DSeg next prev b p l t none)
    (h' : DSeg next prev b' p l' t' none) : l = l' := by
  induction l generalizing b p b' l' with
  | nil =>
    obtain ⟨rfl, -⟩ := h
    cases l' with
    | nil => rfl
    | cons y l' => cases h'.1
  | cons x l ih =>
    obtain ⟨rfl, -, h⟩ := h
    cases l' with
    | nil => cases h'.1
    | cons y l' =>
      obtain ⟨hxy, -, h'⟩ := h'
      obtain rfl := Option.some.inj hxy
      rw [ih h h']

/-- The links around a node of a list. -/
theorem DList.links {l₁ l₂ : List α} {first last : Option α}
    (h : DList next prev first (l₁ ++ x :: l₂) last) :
    prev x = l₁.getLast? ∧ next x = l₂.head? := by
  obtain ⟨c, m, hl₁, rfl, hprev, hl₂⟩ := dseg_append.mp h
  rw [hprev, hl₁.last_eq, hl₂.first_eq]
  simp

theorem DList.first_eq {first last : Option α} (h : DList next prev first l last) :
    first = l.head? := by
  rw [DSeg.first_eq h, Option.or_none]

theorem DList.last_eq {first last : Option α} (h : DList next prev first l last) :
    last = l.getLast? := by
  rw [DSeg.last_eq h, Option.or_none]

/-! ## Edits -/

variable [DecidableEq α]

/-- The link behind a segment is redirected. -/
theorem DSeg.redirect_next (h : DSeg next prev b p l t q) (hnd : l.Nodup)
    (hnext : ∀ x ∈ l, next' x = if t = some x then r else next x)
    (hprev : ∀ x ∈ l, prev' x = prev x) : DSeg next' prev' b (l.head?.or r) l t r := by
  induction l generalizing b p with
  | nil => exact ⟨rfl, h.2⟩
  | cons x l ih =>
    obtain ⟨rfl, hb, hl⟩ := h
    rw [List.nodup_cons] at hnd
    rw [List.forall_mem_cons] at hnext hprev
    refine ⟨rfl, hprev.1.trans hb, ?_⟩
    have htail := ih hl hnd.2 hnext.2 hprev.2
    have hfirst : next' x = l.head?.or r := by
      rw [hnext.1, hl.last_eq]
      cases l with
      | nil => simp
      | cons y l =>
        have hne : (y :: l).getLast?.or (some x) ≠ some x := by
          rw [List.getLast?_eq_some_getLast (List.cons_ne_nil y l)]
          intro heq
          exact hnd.1 (Option.some.inj heq ▸ List.getLast_mem _)
        rw [if_neg hne, hl.first_eq]
        rfl
    rw [hfirst]
    exact htail

/-- The link before a segment is redirected. -/
theorem DSeg.redirect_prev (h : DSeg next prev b p l t q) (hnd : l.Nodup)
    (hnext : ∀ x ∈ l, next' x = next x)
    (hprev : ∀ x ∈ l, prev' x = if p = some x then r else prev x) :
    DSeg next' prev' r p l (l.getLast?.or r) q := by
  cases l with
  | nil => exact ⟨h.1, rfl⟩
  | cons x l =>
    obtain ⟨rfl, hb, hl⟩ := h
    rw [List.nodup_cons] at hnd
    rw [List.forall_mem_cons] at hnext hprev
    refine ⟨rfl, by rw [hprev.1, if_pos rfl], ?_⟩
    have hlast : (x :: l).getLast?.or r = t := by
      rw [hl.last_eq, List.getLast?_cons]
      cases l.getLast? <;> rfl
    rw [hlast, hnext.1]
    refine hl.congr hnext.2 fun y hy ↦ ?_
    rw [hprev.2 y hy, if_neg]
    rintro heq
    exact hnd.1 (Option.some.inj heq ▸ hy)

variable {first last : Option α} {l₁ l₂ : List α} {z : α}

/-- A node is added at the end. -/
theorem DList.append (h : DList next prev first l last) (hnd : l.Nodup)
    (hnext : ∀ x ∈ l, next' x = if last = some x then some z else next x)
    (hprev : ∀ x ∈ l, prev' x = prev x) (hz : next' z = none) (hz' : prev' z = last) :
    DList next' prev' (l.head?.or (some z)) (l ++ [z]) (some z) := by
  have hl := DSeg.redirect_next h hnd hnext hprev
  exact dseg_append.mpr ⟨last, some z, hl, rfl, hz', hz, rfl⟩

/-- A node is taken out. -/
theorem DList.remove (h : DList next prev first (l₁ ++ x :: l₂) last)
    (hnd : (l₁ ++ x :: l₂).Nodup)
    (hnext : ∀ y ∈ l₁ ++ l₂, next' y = if prev x = some y then next x else next y)
    (hprev : ∀ y ∈ l₁ ++ l₂, prev' y = if next x = some y then prev x else prev y) :
    DList next' prev' (l₁.head?.or (next x)) (l₁ ++ l₂) (l₂.getLast?.or (prev x)) := by
  obtain ⟨c, m, hl₁, rfl, hc, hl₂⟩ := dseg_append.mp h
  rw [List.nodup_append, List.nodup_cons] at hnd
  obtain ⟨hnd₁, ⟨hx₂, hnd₂⟩, hdisj⟩ := hnd
  have hnext₁ : ∀ y ∈ l₁, next' y = if c = some y then next x else next y := by
    intro y hy
    rw [hnext y (List.mem_append_left _ hy), hc]
  have hprev₁ : ∀ y ∈ l₁, prev' y = prev y := by
    intro y hy
    rw [hprev y (List.mem_append_left _ hy), hl₂.first_eq, Option.or_none, if_neg]
    intro heq
    exact hdisj y hy y (List.mem_cons_of_mem _ (List.mem_of_mem_head? heq)) rfl
  have hnext₂ : ∀ y ∈ l₂, next' y = next y := by
    intro y hy
    rw [hnext y (List.mem_append_right _ hy), hc, hl₁.last_eq, Option.or_none, if_neg]
    intro heq
    exact hdisj y (List.mem_of_mem_getLast? heq) y (List.mem_cons_of_mem _ hy) rfl
  have hprev₂ : ∀ y ∈ l₂, prev' y = if next x = some y then c else prev y := by
    intro y hy
    rw [hprev y (List.mem_append_right _ hy), hc]
  rw [hc]
  exact dseg_append.mpr ⟨c, next x, hl₁.redirect_next hnd₁ hnext₁ hprev₁,
    hl₂.redirect_prev hnd₂ hnext₂ hprev₂⟩

/-- A node is put in before another one. -/
theorem DList.insert (h : DList next prev first (l₁ ++ x :: l₂) last)
    (hnd : (l₁ ++ x :: l₂).Nodup)
    (hnext : ∀ y ∈ l₁ ++ x :: l₂, next' y = if prev x = some y then some z else next y)
    (hprev : ∀ y ∈ l₁ ++ x :: l₂, prev' y = if y = x then some z else prev y)
    (hz : next' z = some x) (hz' : prev' z = prev x) :
    DList next' prev' (l₁.head?.or (some z)) (l₁ ++ z :: x :: l₂) last := by
  obtain ⟨c, m, hl₁, rfl, hc, hl₂⟩ := dseg_append.mp h
  rw [List.nodup_append, List.nodup_cons] at hnd
  obtain ⟨hnd₁, ⟨hx₂, hnd₂⟩, hdisj⟩ := hnd
  have hcl₁ : c = l₁.getLast? := by rw [hl₁.last_eq, Option.or_none]
  have hback : ∀ y ∈ x :: l₂, c ≠ some y := by
    rintro y hy rfl
    exact hdisj y (List.mem_of_mem_getLast? hcl₁.symm) y hy rfl
  rw [hc] at hnext hz'
  refine dseg_append.mpr ⟨c, some z, hl₁.redirect_next hnd₁ ?_ ?_, rfl, hz', hz, ?_, ?_⟩
  · exact fun y hy ↦ hnext y (List.mem_append_left _ hy)
  · intro y hy
    rw [hprev y (List.mem_append_left _ hy), if_neg]
    rintro rfl
    exact hdisj y hy y List.mem_cons_self rfl
  · rw [hprev x (by simp), if_pos rfl]
  · have hx : next' x = next x := by
      rw [hnext x (by simp), if_neg (hback x List.mem_cons_self)]
    rw [hx]
    refine hl₂.congr (fun y hy ↦ ?_) fun y hy ↦ ?_
    · rw [hnext y (by simp [hy]), if_neg (hback y (List.mem_cons_of_mem _ hy))]
    · rw [hprev y (by simp [hy]), if_neg]
      rintro rfl
      exact hx₂ hy

end Upnp.Lib
