import Mathlib.Data.Bool.Basic

/-!
# A lock on all paths

Programs as a lock that is not recursive sees them: what takes and releases it, and the
tests that lead from one to the next.  A run that takes the lock while it holds it, or
releases it while it does not, ends in a fault.  `wp` decides a condition on the ends
of the runs.
-/

namespace Upnp.Lib.Lock

universe u v

/-- A statement; `loop` is left by `brk` or `ret` only. -/
inductive Stmt (Fn : Type u) (Test : Type v) where
  | skip
  | lock
  | unlock
  | ret
  | brk
  | seq (s t : Stmt Fn Test)
  | ite (test : Test) (s t : Stmt Fn Test)
  | loop (s : Stmt Fn Test)
  | call (g : Fn)

/-- How a statement is left. -/
inductive Exit where
  | normal
  | returned
  | broken
deriving DecidableEq, Repr

/-- The end of a run; `held` says whether the lock is held. -/
inductive Outcome where
  | fault
  | done (e : Exit) (held : Bool)
deriving DecidableEq, Repr

variable {Fn : Type u} {Test : Type v}

/-- Statements one after the other. -/
def Stmt.block : List (Stmt Fn Test) → Stmt Fn Test
  | [] => .skip
  | s :: rest => .seq s (block rest)

variable (body : Fn → Stmt Fn Test) (takes : Fn → Test → Bool → Bool)

/-- The runs of a statement of a function, from a state of the lock.  A test has any answer that
`takes` allows. -/
inductive Exec : Fn → Stmt Fn Test → Bool → Outcome → Prop
  | skip {f h} : Exec f .skip h (.done .normal h)
  | lock {f} : Exec f .lock false (.done .normal true)
  | lock_held {f} : Exec f .lock true .fault
  | unlock {f} : Exec f .unlock true (.done .normal false)
  | unlock_free {f} : Exec f .unlock false .fault
  | ret {f h} : Exec f .ret h (.done .returned h)
  | brk {f h} : Exec f .brk h (.done .broken h)
  | seq {f s t h h' o} : Exec f s h (.done .normal h') → Exec f t h' o → Exec f (.seq s t) h o
  | seq_fault {f s t h} : Exec f s h .fault → Exec f (.seq s t) h .fault
  | seq_exit {f s t h e h'} : Exec f s h (.done e h') → e ≠ .normal →
      Exec f (.seq s t) h (.done e h')
  | ite_true {f test s t h o} : takes f test true → Exec f s h o → Exec f (.ite test s t) h o
  | ite_false {f test s t h o} : takes f test false → Exec f t h o → Exec f (.ite test s t) h o
  | again {f s h h' o} : Exec f s h (.done .normal h') → Exec f (.loop s) h' o →
      Exec f (.loop s) h o
  | loop_fault {f s h} : Exec f s h .fault → Exec f (.loop s) h .fault
  | loop_break {f s h h'} : Exec f s h (.done .broken h') → Exec f (.loop s) h (.done .normal h')
  | loop_ret {f s h h'} : Exec f s h (.done .returned h') → Exec f (.loop s) h (.done .returned h')
  | call {f g h e h'} : Exec g (body g) h (.done e h') → Exec f (.call g) h (.done .normal h')
  | call_fault {f g h} : Exec g (body g) h .fault → Exec f (.call g) h .fault

/-- A condition on how a statement is left, as a condition on the lock before it.  A call is of a
balanced function, and a loop leaves the lock as it is from one round to the next. -/
def wp (balanced : Fn → Bool) (f : Fn) : Stmt Fn Test → Bool → (Exit → Bool → Bool) → Bool
  | .skip, h, Q => Q .normal h
  | .lock, h, Q => !h && Q .normal true
  | .unlock, h, Q => h && Q .normal false
  | .ret, h, Q => Q .returned h
  | .brk, h, Q => Q .broken h
  | .seq s t, h, Q => wp balanced f s h fun e h' ↦
      match e with
      | .normal => wp balanced f t h' Q
      | e => Q e h'
  | .ite test s t, h, Q =>
      (!takes f test true || wp balanced f s h Q) && (!takes f test false || wp balanced f t h Q)
  | .loop s, h, Q => wp balanced f s h fun e h' ↦
      match e with
      | .normal => h' == h
      | .broken => Q .normal h'
      | .returned => Q .returned h'
  | .call g, h, Q => balanced g && !h && Q .normal false

/-- What the end of a function leaves. -/
def released (e : Exit) (h : Bool) : Bool := !h && e ≠ .broken

/-- The functions said to be balanced are: they release the lock on all paths. -/
def Balanced (balanced : Fn → Bool) : Prop :=
  ∀ g, balanced g → wp takes balanced g (body g) false released

variable {body takes} {balanced : Fn → Bool} {f : Fn} {s : Stmt Fn Test} {h : Bool} {o : Outcome}

/-- Every run ends without a fault, and as the condition says. -/
theorem Exec.sound (hbalanced : Balanced body takes balanced) (hexec : Exec body takes f s h o) :
    ∀ Q, wp takes balanced f s h Q → ∃ e h', o = .done e h' ∧ Q e h' := by
  induction hexec with
  | skip => exact fun Q hQ ↦ ⟨_, _, rfl, hQ⟩
  | lock => exact fun Q hQ ↦ ⟨_, _, rfl, hQ⟩
  | lock_held => exact fun Q hQ ↦ absurd hQ Bool.false_ne_true
  | unlock => exact fun Q hQ ↦ ⟨_, _, rfl, hQ⟩
  | unlock_free => exact fun Q hQ ↦ absurd hQ Bool.false_ne_true
  | ret => exact fun Q hQ ↦ ⟨_, _, rfl, hQ⟩
  | brk => exact fun Q hQ ↦ ⟨_, _, rfl, hQ⟩
  | seq _ _ ihs iht =>
    intro Q hQ
    obtain ⟨e, h', heq, hnext⟩ := ihs _ hQ
    cases heq
    exact iht Q hnext
  | seq_fault _ ihs =>
    intro Q hQ
    obtain ⟨e, h', heq, -⟩ := ihs _ hQ
    cases heq
  | @seq_exit _ _ _ _ exit _ _ hexit ihs =>
    intro Q hQ
    obtain ⟨e, h', heq, hnext⟩ := ihs _ hQ
    cases heq
    cases exit with
    | normal => exact absurd rfl hexit
    | returned => exact ⟨_, _, rfl, hnext⟩
    | broken => exact ⟨_, _, rfl, hnext⟩
  | ite_true htakes _ ih =>
    intro Q hQ
    rw [wp, Bool.and_eq_true, htakes, Bool.not_true, Bool.false_or] at hQ
    exact ih Q hQ.1
  | ite_false htakes _ ih =>
    intro Q hQ
    rw [wp, Bool.and_eq_true, htakes, Bool.not_true, Bool.false_or] at hQ
    exact ih Q hQ.2
  | again _ _ ihs ihloop =>
    intro Q hQ
    obtain ⟨e, h', heq, hsame⟩ := ihs _ hQ
    cases heq
    rw [← eq_of_beq hsame] at hQ
    exact ihloop Q hQ
  | loop_fault _ ihs =>
    intro Q hQ
    obtain ⟨e, h', heq, -⟩ := ihs _ hQ
    cases heq
  | loop_break _ ihs =>
    intro Q hQ
    obtain ⟨e, h', heq, hnext⟩ := ihs _ hQ
    cases heq
    exact ⟨_, _, rfl, hnext⟩
  | loop_ret _ ihs =>
    intro Q hQ
    obtain ⟨e, h', heq, hnext⟩ := ihs _ hQ
    cases heq
    exact ⟨_, _, rfl, hnext⟩
  | call _ ih =>
    intro Q hQ
    rw [wp, Bool.and_eq_true, Bool.and_eq_true] at hQ
    obtain ⟨⟨hg, hfree⟩, hQ⟩ := hQ
    rw [Bool.not_eq_true'] at hfree
    subst hfree
    obtain ⟨e, h', heq, hreleased⟩ := ih _ (hbalanced _ hg)
    cases heq
    rw [released, Bool.and_eq_true, Bool.not_eq_true'] at hreleased
    rw [hreleased.1]
    exact ⟨_, _, rfl, hQ⟩
  | call_fault _ ih =>
    intro Q hQ
    rw [wp, Bool.and_eq_true, Bool.and_eq_true] at hQ
    obtain ⟨⟨hg, hfree⟩, -⟩ := hQ
    rw [Bool.not_eq_true'] at hfree
    subst hfree
    obtain ⟨e, h', heq, -⟩ := ih _ (hbalanced _ hg)
    cases heq

/-- A run of a balanced function ends with the lock released. -/
theorem Exec.released (hbalanced : Balanced body takes balanced) (hf : balanced f)
    (hexec : Exec body takes f (body f) false o) :
    ∃ e, o = .done e false ∧ e ≠ .broken := by
  obtain ⟨e, h', rfl, hreleased⟩ := hexec.sound hbalanced _ (hbalanced f hf)
  rw [Lock.released, Bool.and_eq_true, Bool.not_eq_true'] at hreleased
  exact ⟨e, congrArg _ hreleased.1, of_decide_eq_true hreleased.2⟩

end Upnp.Lib.Lock
