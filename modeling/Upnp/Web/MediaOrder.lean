import Mathlib.Order.Defs.LinearOrder
import Mathlib.Tactic.Common
import Upnp.Lib.CString

/-!
# The precedence of media ranges

`MediaRange::compare` and `AddMediaRangeToList` of `parseutil.cpp`.  The quality factors are taken
from any linear order.  A range is put next to the first one in the list that it can be compared
with, wherever the others are.
-/

namespace Upnp.Web

open Upnp.Lib

/-- `MediaExtension`. -/
structure MediaExtension where
  name : CString
  value : CString
deriving DecidableEq, Repr

/-- `MediaParam`. -/
structure MediaParam (Q : Type) where
  q : Q
  extList : List MediaExtension
deriving DecidableEq, Repr

/-- `MediaRange`. -/
structure MediaRange (Q : Type) where
  type : CString
  subtype : CString
  mparam : MediaParam Q
deriving DecidableEq, Repr

namespace MediaRange

variable {Q : Type} [LinearOrder Q]

/-- `MediaRange::compare`.  `t` and `rt` are both about the type of `this`, as in the source. -/
def compare (this r : MediaRange Q) : Int :=
  if r.mparam.q < this.mparam.q then 1
  else if this.mparam.q < r.mparam.q then -1
  else
    let t := decide (this.type = ['*'])
    let rt := decide (this.type = ['*'])
    if t && !rt then -1
    else if !t && rt then 1
    else if this.type = r.type then
      if this.subtype = r.subtype then 0
      else if this.subtype = ['*'] ∧ r.subtype ≠ ['*'] then 1
      else if this.subtype ≠ ['*'] ∧ r.subtype = ['*'] then -1
      else 0
    else -2

/-- A range and its parameters match another range. -/
def Matches (x y : MediaRange Q) : Prop :=
  (x.type = ['*'] ∧ x.subtype = ['*'] ∨
      x.type = y.type ∧ (x.subtype = ['*'] ∨ x.subtype = y.subtype)) ∧
    x.mparam.extList ⊆ y.mparam.extList

/-- A range is matched by another one with the same quality, and does not match it. -/
def MoreSpecific (y x : MediaRange Q) : Prop :=
  x.mparam.q = y.mparam.q ∧ x.Matches y ∧ ¬ y.Matches x

/-- Two ranges that `compare` does not call unrelated. -/
def Comparable (a b : MediaRange Q) : Bool := a.mparam.q ≠ b.mparam.q || a.type = b.type

/-- A range that has a smaller quality, or the same and no wildcard where the other has one. -/
def Precedes (a b : MediaRange Q) : Bool :=
  a.mparam.q < b.mparam.q ||
    a.mparam.q = b.mparam.q && (a.subtype ≠ ['*'] && b.subtype = ['*'])

end MediaRange

section List

variable {Q : Type} [LinearOrder Q]

/-- `AddMediaRangeToList`. -/
def AddMediaRangeToList : List (MediaRange Q) → MediaRange Q → List (MediaRange Q)
  | [], b => [b]
  | a :: list, b =>
    let comp := a.compare b
    if comp = 1 ∨ comp = 0 then b :: a :: list
    else if comp = -1 then a :: b :: list
    else a :: AddMediaRangeToList list b

/-- No range comes after a less specific one. -/
def SpecificFirst (list : List (MediaRange Q)) : Prop := list.Pairwise fun x y ↦ ¬ y.MoreSpecific x

/-- What is not in front of the place where a range comes. -/
def behind (list : List (MediaRange Q)) (b : MediaRange Q) : List (MediaRange Q) :=
  match list.dropWhile fun a ↦ !a.Comparable b with
  | [] => []
  | a :: rest => if a.Precedes b then rest else a :: rest

/-- No less specific range is in front of the first one that can be compared with the new range, and
no more specific one from there on. -/
def Fits (list : List (MediaRange Q)) (b : MediaRange Q) : Prop :=
  (∀ x ∈ list.takeWhile fun a ↦ !a.Comparable b, ¬ b.MoreSpecific x) ∧
    ∀ y ∈ behind list b, ¬ y.MoreSpecific b

/-- A list as it is built. -/
def addAll (ranges : List (MediaRange Q)) : List (MediaRange Q) := ranges.foldl AddMediaRangeToList []

end List

/-! ## The comparison -/

namespace MediaRange

variable {Q : Type} [LinearOrder Q] {a b c : MediaRange Q}

/-- The comparison of ranges with the same quality. -/
theorem compare_of_eq (h : a.mparam.q = b.mparam.q) : a.compare b =
    if a.type = b.type then
      if a.subtype = b.subtype then 0
      else if a.subtype = ['*'] then 1
      else if b.subtype = ['*'] then -1
      else 0
    else -2 := by
  rw [compare, if_neg h.not_gt, if_neg h.not_lt]
  dsimp only
  by_cases ht : a.type = b.type
  · by_cases hs : a.subtype = b.subtype
    · simp [ht, hs]
    · by_cases ha : a.subtype = ['*']
      · have hb : b.subtype ≠ ['*'] := fun hb ↦ hs (ha.trans hb.symm)
        simp [ht, ha, hb, hb.symm]
      · by_cases hb : b.subtype = ['*']
        · simp [ht, ha, hb]
        · simp [ht, hs, ha, hb]
  · simp [ht]

theorem compare_of_lt (h : b.mparam.q < a.mparam.q) : a.compare b = 1 := if_pos h

theorem compare_of_gt (h : a.mparam.q < b.mparam.q) : a.compare b = -1 := by
  rw [compare, if_neg h.not_gt, if_pos h]

/-- Ranges are unrelated when they have the same quality and different types. -/
theorem compare_eq_iff : a.compare b = -2 ↔ a.mparam.q = b.mparam.q ∧ a.type ≠ b.type := by
  rcases lt_trichotomy a.mparam.q b.mparam.q with h | h | h
  · rw [compare_of_gt h]
    exact iff_of_false (by decide) fun heq ↦ h.ne heq.1
  · rw [compare_of_eq h]
    split_ifs with ht <;> simp_all
  · rw [compare_of_lt h]
    exact iff_of_false (by decide) fun heq ↦ h.ne' heq.1

/-- The comparison of two ranges that are related, the other way round. -/
theorem compare_swap (h : a.compare b ≠ -2) : a.compare b = -b.compare a := by
  rcases lt_trichotomy a.mparam.q b.mparam.q with hq | hq | hq
  · rw [compare_of_gt hq, compare_of_lt hq]
  · have ht : a.type = b.type := by
      by_contra hne
      exact h (compare_eq_iff.mpr ⟨hq, hne⟩)
    rw [compare_of_eq hq, compare_of_eq hq.symm, if_pos ht, if_pos ht.symm]
    by_cases hs : a.subtype = b.subtype
    · rw [if_pos hs, if_pos hs.symm]
      rfl
    · rw [if_neg hs, if_neg (Ne.symm hs)]
      by_cases ha : a.subtype = ['*']
      · have hb : b.subtype ≠ ['*'] := fun hb ↦ hs (ha.trans hb.symm)
        rw [if_pos ha, if_neg hb, if_pos ha]
        rfl
      · rw [if_neg ha, if_neg ha]
        split_ifs <;> rfl
  · rw [compare_of_lt hq, compare_of_gt hq]
    rfl

theorem compare_eq_swap : a.compare b = -2 ↔ b.compare a = -2 := by
  rw [compare_eq_iff, compare_eq_iff, ne_comm, eq_comm]

/-- A range that is not smaller than another one has a larger quality, or it has the same one and is
of the same class, unless the other is a wildcard alone. -/
theorem compare_nonneg_iff : 0 ≤ a.compare b ↔ b.mparam.q < a.mparam.q ∨
    a.mparam.q = b.mparam.q ∧ a.type = b.type ∧ (b.subtype = ['*'] → a.subtype = ['*']) := by
  rcases lt_trichotomy a.mparam.q b.mparam.q with hq | hq | hq
  · rw [compare_of_gt hq]
    refine iff_of_false (by decide) ?_
    rintro (h | ⟨h, -⟩)
    · exact h.not_gt hq
    · exact hq.ne h
  · rw [compare_of_eq hq, or_iff_right hq.not_gt]
    split_ifs with ht hs ha hb
    · exact iff_of_true (by decide) ⟨hq, ht, fun hb ↦ hs.trans hb⟩
    · exact iff_of_true (by decide) ⟨hq, ht, fun _ ↦ ha⟩
    · exact iff_of_false (by decide) fun h ↦ ha (h.2.2 hb)
    · exact iff_of_true (by decide) ⟨hq, ht, fun h ↦ absurd h hb⟩
    · exact iff_of_false (by decide) fun h ↦ ht h.2.1
  · rw [compare_of_lt hq]
    exact iff_of_true (by decide) (.inl hq)

theorem compare_trans (hab : 0 ≤ a.compare b) (hbc : 0 ≤ b.compare c) : 0 ≤ a.compare c := by
  rw [compare_nonneg_iff] at *
  rcases hab with hab | ⟨hq, ht, hs⟩
  · rcases hbc with hbc | ⟨hq', -, -⟩
    · exact .inl (hbc.trans hab)
    · exact .inl (hq' ▸ hab)
  · rcases hbc with hbc | ⟨hq', ht', hs'⟩
    · exact .inl (hq ▸ hbc)
    · exact .inr ⟨hq.trans hq', ht.trans ht', fun hc ↦ hs (hs' hc)⟩

/-- Three ranges are equal in precedence if two pairs of them are. -/
theorem compare_zero_trans (hab : 0 ≤ a.compare b) (hbc : 0 ≤ b.compare c) (hac : a.compare c = 0) :
    a.compare b = 0 ∧ b.compare c = 0 := by
  have hne {x y : MediaRange Q} (h : 0 ≤ x.compare y) : x.compare y ≠ -2 := by
    intro heq
    rw [heq] at h
    exact absurd h (by decide)
  have hca : 0 ≤ c.compare a := by
    have hswap := compare_swap (hne (x := a) (y := c) hac.ge)
    omega
  have hba := compare_trans hbc hca
  have hcb := compare_trans hca hab
  have hswap := compare_swap (hne hab)
  have hswap' := compare_swap (hne hbc)
  omega

/-- A range is not smaller than a more specific one. -/
theorem MoreSpecific.compare_ne (h : b.MoreSpecific a) : a.compare b ≠ -1 := by
  obtain ⟨hq, ⟨hmatch, -⟩, -⟩ := h
  intro hcomp
  have hneg : ¬ 0 ≤ a.compare b := by
    rw [hcomp]
    decide
  rw [compare_nonneg_iff] at hneg
  have ht : a.type = b.type := by
    by_contra hne
    rw [compare_eq_iff.mpr ⟨hq, hne⟩] at hcomp
    exact absurd hcomp (by decide)
  refine hneg (.inr ⟨hq, ht, fun hb ↦ ?_⟩)
  rcases hmatch with ⟨-, ha⟩ | ⟨-, ha | hs⟩
  · exact ha
  · exact ha
  · exact hs.trans hb

theorem comparable_iff : a.Comparable b = true ↔ a.compare b ≠ -2 := by
  rw [Ne, compare_eq_iff, Comparable, Bool.or_eq_true, decide_eq_true_eq, decide_eq_true_eq,
    not_and_or, not_not]

/-- Of two ranges that can be compared the one that precedes is the smaller one. -/
theorem precedes_iff (h : a.compare b ≠ -2) : a.Precedes b = true ↔ a.compare b = -1 := by
  have hcases : a.compare b = -1 ↔ ¬ 0 ≤ a.compare b := by
    rcases lt_trichotomy a.mparam.q b.mparam.q with hq | hq | hq
    · rw [compare_of_gt hq]
      decide
    · rw [compare_of_eq hq] at h ⊢
      split_ifs at h ⊢ <;> simp_all
    · rw [compare_of_lt hq]
      decide
  rw [hcases, compare_nonneg_iff]
  simp only [Precedes, Bool.or_eq_true, Bool.and_eq_true, decide_eq_true_eq, not_or, not_and,
    not_lt]
  rcases lt_trichotomy a.mparam.q b.mparam.q with hq | hq | hq
  · exact iff_of_true (.inl hq) ⟨hq.le, fun heq ↦ absurd heq hq.ne⟩
  · have ht : a.type = b.type := by
      by_contra hne
      exact h (compare_eq_iff.mpr ⟨hq, hne⟩)
    constructor
    · rintro (hlt | ⟨-, ha, hb⟩)
      · exact absurd hq hlt.ne
      · exact ⟨hq.le, fun _ _ hsub ↦ ha (hsub hb)⟩
    · rintro ⟨-, hsub⟩
      have hnot := hsub hq ht
      rw [Classical.not_imp] at hnot
      exact .inr ⟨hq, hnot.2, hnot.1⟩
  · refine iff_of_false ?_ fun hle ↦ hle.1.not_gt hq
    rintro (hlt | ⟨heq, -⟩)
    · exact hlt.not_gt hq
    · exact hq.ne' heq

end MediaRange

/-! ## The list -/

section List

variable {Q : Type} [LinearOrder Q] {list : List (MediaRange Q)} {a b x : MediaRange Q}

theorem mem_AddMediaRangeToList : x ∈ AddMediaRangeToList list b ↔ x = b ∨ x ∈ list := by
  induction list with
  | nil => exact (List.mem_singleton).trans (or_iff_left List.not_mem_nil).symm
  | cons a list ih =>
    rw [AddMediaRangeToList]
    split_ifs
    · exact List.mem_cons
    · rw [List.mem_cons, List.mem_cons, List.mem_cons]
      exact or_left_comm
    · rw [List.mem_cons, ih, List.mem_cons]
      exact or_left_comm

/-- A range that is put into a list leaves the more specific ranges in front if it fits there. -/
theorem specificFirst_add_iff :
    SpecificFirst (AddMediaRangeToList list b) ↔ SpecificFirst list ∧ Fits list b := by
  induction list with
  | nil => simp [AddMediaRangeToList, SpecificFirst, Fits, behind]
  | cons a list ih =>
    have hcompare : a.compare b = 1 ∨ a.compare b = 0 ∨ a.compare b = -1 ∨ a.compare b = -2 := by
      rw [MediaRange.compare]
      dsimp only
      split_ifs <;> simp
    by_cases hcomparable : a.compare b = -2
    · -- the range is passed
      have hfalse : (!a.Comparable b) = true := by
        rw [Bool.not_eq_true', ← Bool.not_eq_true, MediaRange.comparable_iff]
        exact fun hne ↦ hne hcomparable
      have hadd : AddMediaRangeToList (a :: list) b = a :: AddMediaRangeToList list b := by
        rw [AddMediaRangeToList, hcomparable]
        rfl
      have hfits : Fits (a :: list) b ↔ ¬ b.MoreSpecific a ∧ Fits list b := by
        rw [Fits, Fits, behind, behind,
          @List.takeWhile_cons_of_pos _ (fun a ↦ !a.Comparable b) a list hfalse,
          @List.dropWhile_cons_of_pos _ (fun a ↦ !a.Comparable b) a list hfalse,
          List.forall_mem_cons, and_assoc]
      rw [hadd, SpecificFirst, List.pairwise_cons, SpecificFirst, List.pairwise_cons, hfits]
      rw [SpecificFirst, SpecificFirst] at ih
      rw [ih]
      simp only [mem_AddMediaRangeToList, forall_eq_or_imp]
      tauto
    · have htrue : (!a.Comparable b) = false := by
        rw [Bool.not_eq_false', MediaRange.comparable_iff]
        exact hcomparable
      have hfits : Fits (a :: list) b ↔
          ∀ y ∈ if a.Precedes b then list else a :: list, ¬ y.MoreSpecific b := by
        rw [Fits, behind,
          @List.takeWhile_cons_of_neg _ (fun a ↦ !a.Comparable b) a list (by simp [htrue]),
          @List.dropWhile_cons_of_neg _ (fun a ↦ !a.Comparable b) a list (by simp [htrue])]
        simp
      rw [hfits]
      by_cases hprecedes : a.compare b = -1
      · -- it is put behind the range
        have hadd : AddMediaRangeToList (a :: list) b = a :: b :: list := by
          rw [AddMediaRangeToList, hprecedes]
          rfl
        have hne : ¬ b.MoreSpecific a := fun h ↦ h.compare_ne hprecedes
        rw [if_pos ((MediaRange.precedes_iff hcomparable).mpr hprecedes), hadd]
        simp only [SpecificFirst, List.pairwise_cons, List.forall_mem_cons]
        tauto
      · have hadd : AddMediaRangeToList (a :: list) b = b :: a :: list := by
          rw [AddMediaRangeToList]
          exact if_pos (by tauto)
        have hnot : ¬ a.Precedes b = true := fun h ↦
          hprecedes ((MediaRange.precedes_iff hcomparable).mp h)
        rw [if_neg hnot, hadd, SpecificFirst, List.pairwise_cons]
        exact and_comm

theorem addAll_append (ranges : List (MediaRange Q)) (b : MediaRange Q) :
    addAll (ranges ++ [b]) = AddMediaRangeToList (addAll ranges) b :=
  List.foldl_concat ..

/-- The more specific ranges are in front exactly if every range fitted when it came. -/
theorem specificFirst_addAll_iff (ranges : List (MediaRange Q)) :
    SpecificFirst (addAll ranges) ↔ ∀ before b, before ++ [b] <+: ranges → Fits (addAll before) b := by
  induction ranges using List.reverseRecOn with
  | nil =>
    refine iff_of_true List.Pairwise.nil fun before b hpre ↦ ?_
    have hnil := List.prefix_nil.mp hpre
    simp at hnil
  | append_singleton ranges c ih =>
    rw [addAll_append, specificFirst_add_iff, ih]
    constructor
    · rintro ⟨hbefore, hfits⟩ before b hpre
      rcases List.prefix_concat_iff.mp hpre with heq | hpre
      · obtain ⟨rfl, hb⟩ := List.append_inj' heq rfl
        cases hb
        exact hfits
      · exact hbefore before b hpre
    · intro h
      exact ⟨fun before b hpre ↦ h before b (hpre.trans (List.prefix_append ..)),
        h ranges c List.prefix_rfl⟩

/-- `compare` is an order on the ranges that are related, and the list is in its order as far as the
ranges that come fit where they are put. -/
theorem media_range_precedence :
    (∀ a b : MediaRange Q, (a.compare b = -2 ↔ b.compare a = -2) ∧
      (a.compare b ≠ -2 → a.compare b = -b.compare a)) ∧
    (∀ a b c : MediaRange Q, 0 ≤ a.compare b → 0 ≤ b.compare c →
      0 ≤ a.compare c ∧ (a.compare c = 0 → a.compare b = 0 ∧ b.compare c = 0)) ∧
    ∀ ranges : List (MediaRange Q), SpecificFirst (addAll ranges) ↔
      ∀ before b, before ++ [b] <+: ranges → Fits (addAll before) b := by
  refine ⟨fun a b ↦ ⟨MediaRange.compare_eq_swap, MediaRange.compare_swap⟩, fun a b c hab hbc ↦ ?_,
    specificFirst_addAll_iff⟩
  exact ⟨MediaRange.compare_trans hab hbc, MediaRange.compare_zero_trans hab hbc⟩

/-- A range without parameters, of the best quality. -/
def plainRange (type subtype : String) : MediaRange Nat := ⟨type.toList, subtype.toList, ⟨1000, []⟩⟩

/-- All media come first, and a text behind them. -/
theorem not_specificFirst :
    ¬ SpecificFirst (addAll [plainRange "*" "*", plainRange "text" "html"]) := by
  intro h
  have hne := List.rel_of_pairwise_cons h (List.mem_singleton_self (plainRange "text" "html"))
  refine hne ⟨rfl, ⟨.inl ⟨rfl, rfl⟩, List.nil_subset _⟩, ?_⟩
  rintro ⟨⟨htype, -⟩ | ⟨htype, -⟩, -⟩
  · cases htype
  · cases htype

end List

end Upnp.Web
