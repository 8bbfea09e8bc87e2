import Mathlib.Logic.Relation

/-!
# Machines, runs and their invariants

A `Machine` is a partial deterministic transition system: the label of a step
carries every choice its environment makes (which thread moves, what a call
outside the modelled code answers), so that nondeterminism is quantification
over labels.  Nothing here mentions a particular program.

`Machine.Reach ok` is reachability along runs all of whose steps satisfy the
side condition `ok`, which may look at the state before the step and at its
label.  `Machine.Reachable` is the unconditional case.
-/

namespace Upnp.Lib

universe u v w

/-- A partial transition system with labelled, deterministic steps. -/
structure Machine (σ : Type u) (ℓ : Type v) where
  /-- The states a run may start from. -/
  init : σ → Prop
  /-- One step; `none` when the label is not enabled in the state. -/
  step : σ → ℓ → Option σ

namespace Machine

variable {σ : Type u} {ℓ : Type v} {τ : Type u} {κ : Type w}

/-- States reached by runs whose steps all satisfy `ok`. -/
inductive Reach (M : Machine σ ℓ) (ok : σ → ℓ → Prop) : σ → Prop
  /-- Initial states are reached. -/
  | init {s : σ} : M.init s → Reach M ok s
  /-- An admissible enabled step extends a run. -/
  | step {s s' : σ} {l : ℓ} : Reach M ok s → ok s l → M.step s l = some s' → Reach M ok s'

/-- States reached by arbitrary runs. -/
abbrev Reachable (M : Machine σ ℓ) : σ → Prop := M.Reach fun _ _ ↦ True

/-- The run of a list of labels from a state. -/
def run (M : Machine σ ℓ) : σ → List ℓ → Option σ
  | s, [] => some s
  | s, l :: ls => (M.step s l).bind fun s' ↦ M.run s' ls

@[simp] theorem run_nil (M : Machine σ ℓ) (s : σ) : M.run s [] = some s := rfl

@[simp] theorem run_cons (M : Machine σ ℓ) (s : σ) (l : ℓ) (ls : List ℓ) :
    M.run s (l :: ls) = (M.step s l).bind fun s' ↦ M.run s' ls := rfl

/-- A run of labels whose steps are all admissible stays within `Reach`. -/
theorem Reach.run {M : Machine σ ℓ} {ok : σ → ℓ → Prop} {s s' : σ} {ls : List ℓ}
    (h : M.Reach ok s) (hok : ∀ t l, l ∈ ls → ok t l) (hr : M.run s ls = some s') :
    M.Reach ok s' := by
  induction ls generalizing s with
  | nil => simpa using (by simpa using hr : s = s') ▸ h
  | cons l ls ih =>
    rw [run_cons, Option.bind_eq_some_iff] at hr
    obtain ⟨t, ht, hr⟩ := hr
    exact ih (h.step (hok s l (by simp)) ht) (fun t l hl ↦ hok t l (by simp [hl])) hr

/-- The state after a run of the labels given from an initial state is reached. -/
theorem Reach.of_run {M : Machine σ ℓ} {ok : σ → ℓ → Prop} {s s' : σ} (hi : M.init s) (ls : List ℓ)
    (hok : ∀ t, ∀ l ∈ ls, ok t l) (hr : M.run s ls = some s') : M.Reach ok s' :=
  (Reach.init hi).run hok hr

/-- Reachability is monotone in the side condition. -/
theorem Reach.mono {M : Machine σ ℓ} {ok ok' : σ → ℓ → Prop}
    (himp : ∀ s l, ok s l → ok' s l) {s : σ} (h : M.Reach ok s) : M.Reach ok' s := by
  induction h with
  | init h => exact .init h
  | step _ hok hs ih => exact .step ih (himp _ _ hok) hs

/-- `I` is inductive along admissible steps. -/
structure Inductive (M : Machine σ ℓ) (ok : σ → ℓ → Prop) (I : σ → Prop) : Prop where
  /-- The initial states satisfy the invariant. -/
  init : ∀ s, M.init s → I s
  /-- Every admissible step preserves it. -/
  step : ∀ s l s', I s → ok s l → M.step s l = some s' → I s'

/-- An inductive predicate holds of every reached state. -/
theorem Reach.invariant {M : Machine σ ℓ} {ok : σ → ℓ → Prop} {I : σ → Prop}
    (hI : M.Inductive ok I) {s : σ} (h : M.Reach ok s) : I s := by
  induction h with
  | init h => exact hI.init _ h
  | step _ hok hs ih => exact hI.step _ _ _ ih hok hs

/-- A forward simulation: related states answer an admissible concrete step by one
admissible abstract step, to related states again. -/
structure Simulation (M : Machine σ ℓ) (ok : σ → ℓ → Prop) (N : Machine τ κ)
    (ok' : τ → κ → Prop) (R : σ → τ → Prop) : Prop where
  /-- Every concrete initial state is related to an abstract one. -/
  init : ∀ s, M.init s → ∃ t, N.init t ∧ R s t
  /-- Every admissible concrete step is answered. -/
  step : ∀ s t l s', R s t → ok s l → M.step s l = some s' →
    ∃ k t', ok' t k ∧ N.step t k = some t' ∧ R s' t'

/-- Every state reached by the concrete machine is related to one reached by the abstract
machine. -/
theorem Simulation.reach {M : Machine σ ℓ} {ok : σ → ℓ → Prop} {N : Machine τ κ}
    {ok' : τ → κ → Prop} {R : σ → τ → Prop} (hR : Simulation M ok N ok' R) {s : σ}
    (h : M.Reach ok s) : ∃ t, N.Reach ok' t ∧ R s t := by
  induction h with
  | init h =>
    obtain ⟨t, ht, hst⟩ := hR.init _ h
    exact ⟨t, .init ht, hst⟩
  | step _ hok hs ih =>
    obtain ⟨t, ht, hst⟩ := ih
    obtain ⟨k, t', hok', hs', hst'⟩ := hR.step _ _ _ _ hst hok hs
    exact ⟨t', .step ht hok' hs', hst'⟩

end Machine

end Upnp.Lib
