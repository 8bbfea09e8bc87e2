import Mathlib.Logic.Function.Iterate
import Upnp.Gena.Event

/-!
# The cycle of event keys

Keys count `0, 1, …, 2^31 - 1` and go on with `1`.  `keyAt n` is the key of the
`n`-th event of a subscription; keys of events less than `2^31 - 1` apart
differ.
-/

namespace Upnp.Gena

open Upnp.Lib

/-- The length of the cycle. -/
def keyPeriod : Nat := 2147483647

/-- The key of the `n`-th event. -/
def keyAt (n : Nat) : Int := bumpKey^[n] 0

@[simp] theorem keyAt_zero : keyAt 0 = 0 := rfl

theorem keyAt_succ (n : Nat) : keyAt (n + 1) = bumpKey (keyAt n) :=
  Function.iterate_succ_apply' ..

/-- The increment of a key, in terms of its value. -/
theorem bumpKey_eq {k : Int} (h₀ : 0 ≤ k) (h₁ : k ≤ 2147483647) :
    bumpKey k = if k = 2147483647 then 1 else k + 1 := by
  unfold bumpKey
  split
  · subst k; decide
  · rw [wrap32_of_range (by omega) (by omega)]
    simp only [ite_eq_right_iff]
    omega

/-- The value of the `n`-th key. -/
theorem keyAt_eq (n : Nat) :
    keyAt n = if n = 0 then 0 else (((n - 1) % keyPeriod + 1 : Nat) : Int) := by
  induction n with
  | zero => rfl
  | succ n ih =>
    rw [keyAt_succ, ih]
    unfold keyPeriod
    by_cases hn : n = 0
    · subst hn; decide
    · rw [if_neg hn, bumpKey_eq (by omega) (by omega)]
      split <;> simp only [Nat.add_eq_zero_iff, hn, one_ne_zero, and_self, if_false] <;> omega

/-- Two events with one key are the same event or a whole cycle apart. -/
theorem keyAt_inj {a b : Nat} (hab : a ≤ b) (hlt : b - a < keyPeriod) (h : keyAt a = keyAt b) :
    a = b := by
  rw [keyAt_eq, keyAt_eq] at h
  unfold keyPeriod at *
  split at h <;> split at h <;> omega

/-- The keys from `a` up to, not including, `b` in the cyclic order. -/
def cyclicInterval (a b : Int) : Set Int :=
  {k | ∃ i, k = bumpKey^[i] a ∧ ∀ j ≤ i, bumpKey^[j] a ≠ b}

theorem iterate_bumpKey_keyAt (i m : Nat) : bumpKey^[i] (keyAt m) = keyAt (m + i) := by
  rw [keyAt, keyAt, ← Function.iterate_add_apply, Nat.add_comm]

/-- A key of the interval between two events is the key of an event between them. -/
theorem exists_of_mem_cyclicInterval {m n : Nat} (hmn : m ≤ n) {k : Int}
    (h : k ∈ cyclicInterval (keyAt m) (keyAt n)) : ∃ i, m ≤ i ∧ i < n ∧ k = keyAt i := by
  obtain ⟨i, rfl, hi⟩ := h
  refine ⟨m + i, by omega, ?_, iterate_bumpKey_keyAt i m⟩
  by_contra hge
  refine hi (n - m) (by omega) ?_
  rw [iterate_bumpKey_keyAt, Nat.add_sub_cancel' hmn]

/-- Less than a cycle apart, the interval is exactly the keys of the events between. -/
theorem mem_cyclicInterval_iff {m n : Nat} (hmn : m ≤ n) (hlt : n - m < keyPeriod) {k : Int} :
    k ∈ cyclicInterval (keyAt m) (keyAt n) ↔ ∃ i, m ≤ i ∧ i < n ∧ k = keyAt i := by
  refine ⟨exists_of_mem_cyclicInterval hmn, ?_⟩
  rintro ⟨i, hm, hn, rfl⟩
  refine ⟨i - m, by rw [iterate_bumpKey_keyAt, Nat.add_sub_cancel' hm], fun j hj heq ↦ ?_⟩
  rw [iterate_bumpKey_keyAt] at heq
  have := keyAt_inj (by omega) (by omega) heq
  omega

end Upnp.Gena
