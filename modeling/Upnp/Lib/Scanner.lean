import Mathlib.Data.List.Basic

/-!
# Scanners

Loops that go over a text character by character and may look at so many of them.  A look
behind the end of the text has no result.
-/

namespace Upnp.Lib

/-- What a scanner gives when it may look at nothing more, how its result changes with one character
more in front, and what it does with a character: it stops with a result, goes on in a new
state, or looks behind the end. -/
structure Scanner (α σ ρ : Type*) where
  finish : σ → ρ
  shift : ρ → ρ
  step : Nat → σ → α → List α → Option (ρ ⊕ σ)

namespace Scanner

variable {α σ ρ : Type*}

def run (S : Scanner α σ ρ) : Nat → σ → List α → Option ρ
  | 0, s, _ => some (S.finish s)
  | _ + 1, _, [] => none
  | max + 1, s, a :: rest =>
    match S.step (max + 1) s a rest with
    | none => none
    | some (.inl r) => some r
    | some (.inr s') => (S.run max s' rest).map S.shift

variable {S : Scanner α σ ρ} {max : Nat} {s : σ} {input : List α} {r : ρ}

theorem run_cons_none {a : α} {rest : List α} (h : S.step (max + 1) s a rest = none) :
    S.run (max + 1) s (a :: rest) = none := by
  rw [run, h]

theorem run_cons_stop {a : α} {rest : List α} (h : S.step (max + 1) s a rest = some (.inl r)) :
    S.run (max + 1) s (a :: rest) = some r := by
  rw [run, h]

theorem run_cons_next {s' : σ} {a : α} {rest : List α}
    (h : S.step (max + 1) s a rest = some (.inr s')) :
    S.run (max + 1) s (a :: rest) = (S.run max s' rest).map S.shift := by
  rw [run, h]

/-- With as many characters as it may look at, a scanner does not look behind the end when none of
its steps does. -/
theorem run_isSome (hstep : ∀ max s a rest, max ≤ rest.length + 1 → (S.step max s a rest).isSome)
    (h : max ≤ input.length) : (S.run max s input).isSome := by
  induction max generalizing s input with
  | zero => rfl
  | succ max ih =>
    cases input with
    | nil => cases h
    | cons a rest =>
      obtain ⟨next, hnext⟩ := Option.isSome_iff_exists.mp (hstep _ s a rest h)
      cases next with
      | inl r =>
        rw [run_cons_stop hnext]
        rfl
      | inr s' =>
        rw [run_cons_next hnext, Option.isSome_map]
        exact ih (Nat.le_of_succ_le_succ h)

/-- More memory changes nothing where a scanner does not look behind the end. -/
theorem run_append {more : List α}
    (hstep : ∀ max s a rest next, S.step max s a rest = some next →
      S.step max s a (rest ++ more) = some next)
    (h : S.run max s input = some r) : S.run max s (input ++ more) = some r := by
  induction max generalizing s input r with
  | zero => exact h
  | succ max ih =>
    cases input with
    | nil => cases h
    | cons a rest =>
      rw [List.cons_append]
      cases hnext : S.step (max + 1) s a rest with
      | none =>
        rw [run_cons_none hnext] at h
        cases h
      | some next =>
        have hmore := hstep _ _ _ _ _ hnext
        cases next with
        | inl r =>
          rw [run_cons_stop hnext] at h
          rw [run_cons_stop hmore, h]
        | inr s' =>
          rw [run_cons_next hnext] at h
          rw [run_cons_next hmore]
          obtain ⟨r', hr', rfl⟩ := Option.map_eq_some_iff.mp h
          exact Option.map_eq_some_iff.mpr ⟨r', ih hr', rfl⟩

/-- A scanner that counts its characters takes no more than there are, and than it may. -/
theorem run_le (size : ρ → Nat) (hfinish : ∀ s, size (S.finish s) = 0)
    (hshift : ∀ r, size (S.shift r) = size r + 1)
    (hstop : ∀ max s a rest r, S.step max s a rest = some (.inl r) → size r = 0)
    (h : S.run max s input = some r) : size r ≤ max ∧ size r ≤ input.length := by
  induction max generalizing s input r with
  | zero =>
    cases h
    rw [hfinish]
    exact ⟨Nat.le_refl 0, Nat.zero_le _⟩
  | succ max ih =>
    cases input with
    | nil => cases h
    | cons a rest =>
      rw [run] at h
      split at h
      · cases h
      · rename_i hnext
        cases h
        rw [hstop _ _ _ _ _ hnext]
        exact ⟨Nat.zero_le _, Nat.zero_le _⟩
      · obtain ⟨r', hr', rfl⟩ := Option.map_eq_some_iff.mp h
        rw [hshift]
        exact ⟨Nat.succ_le_succ (ih hr').1, Nat.succ_le_succ (ih hr').2⟩

/-- The characters that a counting scanner takes have the property that its steps ask for. -/
theorem run_takes (p : α → Prop) (size : ρ → Nat) (hfinish : ∀ s, size (S.finish s) = 0)
    (hshift : ∀ r, size (S.shift r) = size r + 1)
    (hstop : ∀ max s a rest r, S.step max s a rest = some (.inl r) → size r = 0)
    (hnext : ∀ max s a rest s', S.step max s a rest = some (.inr s') → p a)
    (h : S.run max s input = some r) : ∀ a ∈ input.take (size r), p a := by
  induction max generalizing s input r with
  | zero =>
    cases h
    rw [hfinish]
    intro a ha
    cases ha
  | succ max ih =>
    cases input with
    | nil => cases h
    | cons b rest =>
      rw [run] at h
      split at h
      · cases h
      · rename_i hstep
        cases h
        rw [hstop _ _ _ _ _ hstep]
        intro a ha
        cases ha
      · rename_i s' hstep
        obtain ⟨r', hr', rfl⟩ := Option.map_eq_some_iff.mp h
        rw [hshift, List.take_succ_cons]
        exact List.forall_mem_cons.mpr ⟨hnext _ _ _ _ _ hstep, ih hr'⟩

end Scanner

end Upnp.Lib
