import Mathlib.Tactic.Common
import Upnp.Lib.CString

/-!
# Numerals

What `strtol` makes of a well-formed numeral: blanks, digits of the base, and
something that is no digit behind them.
-/

namespace Upnp.Lib

/-- The value of a string of digits. -/
def numeral (base : Nat) (ds : CString) : Nat :=
  ds.foldl (fun n c ↦ n * base + (digitVal base c).getD 0) 0

/-- All characters are digits of the base. -/
def IsDigits (base : Nat) (ds : CString) : Prop := ∀ c ∈ ds, (digitVal base c).isSome

instance (base : Nat) (ds : CString) : Decidable (IsDigits base ds) :=
  List.decidableBAll _ ds

/-- A text behind a numeral that does not carry it on. -/
def EndsNumeral (base : Nat) (q : CString) : Prop :=
  ∀ c ∈ q.head?, digitVal base c = none ∧ c ≠ 'x' ∧ c ≠ 'X'

instance (base : Nat) (q : CString) : Decidable (EndsNumeral base q) :=
  inferInstanceAs (Decidable (∀ c ∈ q.head?, _))

variable {base : Nat} {ws ds q : CString} {c : Char}

theorem digitRun_append (hds : IsDigits base ds) (hq : EndsNumeral base q) (acc : Nat) :
    digitRun base acc (ds ++ q) =
      ds.foldl (fun n c ↦ n * base + (digitVal base c).getD 0) acc := by
  induction ds generalizing acc with
  | nil =>
    cases q with
    | nil => rfl
    | cons c q => simp [digitRun, (hq c rfl).1]
  | cons d ds ih =>
    obtain ⟨v, hv⟩ := Option.isSome_iff_exists.mp (hds d (by simp))
    simp only [List.cons_append, digitRun, hv, List.foldl_cons, Option.getD_some]
    exact ih (fun c hc ↦ hds c (by simp [hc])) _

/-- The ranges of the characters that are digits of some base up to 16. -/
theorem range_of_digitVal (h : (digitVal base c).isSome) :
    ('0' ≤ c ∧ c ≤ '9') ∨ ('a' ≤ c ∧ c ≤ 'f') ∨ ('A' ≤ c ∧ c ≤ 'F') := by
  unfold digitVal at h
  dsimp only at h
  split at h
  · exact .inl ‹_›
  split at h
  · exact .inr (.inl ‹_›)
  split at h
  · exact .inr (.inr ‹_›)
  · simp at h

/-- A digit is neither a sign, nor white space, nor the letter of the hexadecimal prefix. -/
theorem ne_of_digitVal (h : (digitVal base c).isSome) :
    c ≠ '-' ∧ c ≠ '+' ∧ c ≠ 'x' ∧ c ≠ 'X' ∧ isSpace c = false := by
  have hr := range_of_digitVal h
  refine ⟨?_, ?_, ?_, ?_, ?_⟩
  · rintro rfl; revert hr; decide
  · rintro rfl; revert hr; decide
  · rintro rfl; revert hr; decide
  · rintro rfl; revert hr; decide
  · by_contra hs
    simp only [isSpace, Bool.not_eq_false, Bool.or_eq_true, decide_eq_true_eq] at hs
    rcases hs with ((((rfl | rfl) | rfl) | rfl) | rfl) | rfl <;> revert hr <;> decide

theorem skipHexPrefix_of_digits (hds : IsDigits base ds) (hq : EndsNumeral base q) (hne : ds ≠ []) :
    skipHexPrefix base (ds ++ q) = ds ++ q := by
  unfold skipHexPrefix
  split
  · rename_i x c s heq
    split
    · rename_i h
      exfalso
      obtain ⟨d, ds, rfl⟩ := List.exists_cons_of_ne_nil hne
      rw [List.cons_append, List.cons.injEq] at heq
      obtain ⟨rfl, heq⟩ := heq
      cases ds with
      | nil =>
        rw [List.nil_append] at heq
        have := (hq x (by simp [heq])).2
        exact h.2.1.elim this.1 this.2
      | cons e ds =>
        rw [List.cons_append, List.cons.injEq] at heq
        obtain ⟨rfl, -⟩ := heq
        have := ne_of_digitVal (hds e (by simp))
        exact h.2.1.elim this.2.2.1 this.2.2.2.1
    · exact heq.symm
  · rfl

/-- `strtol` on a numeral. -/
theorem strtol_of_digits (ws : CString) (hws : ∀ c ∈ ws, isSpace c) (hds : IsDigits base ds)
    (hq : EndsNumeral base q) (hne : ds ≠ []) :
    strtol base (ws ++ (ds ++ q)) = some (clampLong (numeral base ds)) := by
  obtain ⟨d, ds', rfl⟩ := List.exists_cons_of_ne_nil hne
  have hd := ne_of_digitVal (hds d (by simp))
  have hdrop : (ws ++ (d :: ds' ++ q)).dropWhile isSpace = d :: ds' ++ q := by
    rw [List.dropWhile_append_of_pos hws, List.cons_append,
      List.dropWhile_cons_of_neg (by simp [hd.2.2.2.2])]
  have hsign : signOf (d :: ds' ++ q) = (1, d :: ds' ++ q) := by
    unfold signOf
    split
    · rename_i heq; exact absurd (List.cons.inj heq).1 hd.1
    · rename_i heq; exact absurd (List.cons.inj heq).1 hd.2.1
    · rfl
  unfold strtol
  rw [hdrop, hsign]
  simp only [skipHexPrefix_of_digits hds hq hne]
  rw [List.cons_append]
  simp only [hds d (by simp), if_true, ← List.cons_append, digitRun_append hds hq, one_mul]
  rfl

end Upnp.Lib
