import Mathlib.Data.List.Nodup
import Upnp.Tpool.ThreadPool

/-!
# Jobs and workers over whole runs

Two results about the pool.  Jobs whose call returned success are taken at most
once and in order, the thread count is exact, and a job whose call returned an
error is gone, as long as no call finds the pool without a thread and fails to
start one.  A job in the queue is not stranded, as long as no call and no
time-out leaves it to workers that are all on their way out.
-/

namespace Upnp.Tpool

open Upnp.Lib

variable {κ α : Type}

/-! ## What one call does -/

/-- The jobs whose call returned success. -/
def State.accepted (s : State κ α) : List (PoolQueueItem κ α) :=
  (s.calls.filter fun c ↦ c.retCode = some 0).map Call.job

/-- Whether a worker has not done its final decrement. -/
def Phase.live : Phase κ α → Bool
  | .gone => false
  | _ => true

/-- Whether a worker is live and has not decided to exit. -/
def Phase.staying : Phase κ α → Bool
  | .leaving | .gone => false
  | _ => true

/-- The ways a call of `schedule` with a function ends. -/
inductive ScheduleOf (maxThreads : Nat) (env : Env) (s : State κ α) (job : PoolQueueItem κ α) :
    State κ α → Prop
  /-- No memory for the job. -/
  | noMemory : ScheduleOf maxThreads env s job (s.log job (some (-1)))
  /-- No memory for the list node. -/
  | noNode : ScheduleOf maxThreads env s job { s.log job none with locked := true }
  /-- No memory for the thread's argument, the job queued. -/
  | noArg : env.argOk = false → ScheduleOf maxThreads env s job
      { s.log job none with q := s.q ++ [job], locked := true }
  /-- The pool has no thread and gets none, the job queued. -/
  | noThread : env.mallocOk → env.nodeOk → env.argOk → s.numThreads = 0 → 0 < maxThreads →
      env.createOk = false →
      ScheduleOf maxThreads env s job { s.log job (some (-1)) with q := s.q ++ [job] }
  /-- A thread was started. -/
  | started : s.numThreads < maxThreads → ScheduleOf maxThreads env s job
      { s.log job (some 0) with
        q := s.q ++ [job], numThreads := s.numThreads + 1, workers := .top ::ₘ s.workers }
  /-- The threads are left as they are. -/
  | kept : env.mallocOk → env.nodeOk →
      (s.numThreads < maxThreads → env.createOk = false ∧ s.numThreads ≠ 0) →
      ScheduleOf maxThreads env s job { s.log job (some 0) with q := s.q ++ [job] }

theorem schedule_cases (maxThreads : Nat) (env : Env) (s : State κ α)
    (job : PoolQueueItem κ α) : ScheduleOf maxThreads env s job (schedule maxThreads env s job) := by
  obtain ⟨mallocOk, nodeOk, argOk, createOk⟩ := env
  cases mallocOk with
  | false => exact .noMemory
  | true =>
    cases nodeOk with
    | false => exact .noNode
    | true =>
      by_cases hlt : s.numThreads < maxThreads
      · cases argOk with
        | false =>
          have heq : schedule maxThreads ⟨true, true, false, createOk⟩ s job =
              { s.log job none with q := s.q ++ [job], locked := true } := by
            simp [schedule, hlt, State.log]
          exact heq ▸ .noArg rfl
        | true =>
          cases createOk with
          | true =>
            have heq : schedule maxThreads ⟨true, true, true, true⟩ s job =
                { s.log job (some 0) with
                  q := s.q ++ [job], numThreads := s.numThreads + 1,
                  workers := .top ::ₘ s.workers } := by
              simp [schedule, hlt, State.started, State.log]
            exact heq ▸ .started hlt
          | false =>
            by_cases hz : s.numThreads = 0
            · have hmax : 0 < maxThreads := hz ▸ hlt
              have heq : schedule maxThreads ⟨true, true, true, false⟩ s job =
                  { s.log job (some (-1)) with q := s.q ++ [job] } := by
                simp [schedule, hmax, hz, State.started, State.log]
              exact heq ▸ .noThread rfl rfl rfl hz hmax rfl
            · have heq : schedule maxThreads ⟨true, true, true, false⟩ s job =
                  { s.log job (some 0) with q := s.q ++ [job] } := by
                simp [schedule, hlt, hz, State.started, State.log]
              exact heq ▸ .kept rfl rfl fun _ ↦ ⟨rfl, hz⟩
      · have heq : schedule maxThreads ⟨true, true, argOk, createOk⟩ s job =
            { s.log job (some 0) with q := s.q ++ [job] } := by
          simp [schedule, hlt, State.log]
        exact heq ▸ .kept rfl rfl fun h ↦ absurd h hlt

section Next

variable [DecidableEq κ] [DecidableEq α]

/-- The ways a worker gets out of `GetNextItemInQueue`, or stays in its wait. -/
inductive NextOf (s : State κ α) (p : Phase κ α) (timedOut : Bool) : State κ α → Prop
  | waits : s.q = [] → timedOut = false →
    NextOf s p timedOut { s with workers := .waiting ::ₘ s.workers.erase p }
  | leaves : s.allDie ∨ timedOut →
    NextOf s p timedOut { s with workers := .leaving ::ₘ s.workers.erase p }
  | takes (node : PoolQueueItem κ α) (rest : List (PoolQueueItem κ α)) : s.q = node :: rest →
    NextOf s p timedOut { s with
      q := rest, workers := .running node ::ₘ s.workers.erase p, taken := s.taken ++ [node] }

theorem next_cases (s : State κ α) (p : Phase κ α) (timedOut : Bool) :
    NextOf s p timedOut (s.next p timedOut) := by
  by_cases hout : s.allDie = true ∨ timedOut = true
  · have heq : s.next p timedOut = { s with workers := .leaving ::ₘ s.workers.erase p } := by
      rcases hout with h | h <;> simp [State.next, getNextItemInQueue, h]
    exact heq ▸ .leaves hout
  · simp only [not_or, Bool.not_eq_true] at hout
    obtain ⟨hd, ht⟩ := hout
    cases hq : s.q with
    | nil =>
      have heq : s.next p timedOut = { s with workers := .waiting ::ₘ s.workers.erase p } := by
        simp [State.next, getNextItemInQueue, hq, hd, ht]
      exact heq ▸ .waits hq ht
    | cons node rest =>
      have heq : s.next p timedOut = { s with
          q := rest, workers := .running node ::ₘ s.workers.erase p,
          taken := s.taken ++ [node] } := by
        simp [State.next, getNextItemInQueue, hq, hd, ht]
      exact heq ▸ .takes node rest hq

end Next

/-! ## Accounting -/

/-- No call finds the pool without a thread, queues its job and fails to start a thread. -/
def StartsFirst (maxThreads : Nat) (s : State κ α) : Action κ α → Prop
  | .schedule env f _ =>
    ¬(f.isSome ∧ env.mallocOk ∧ env.nodeOk ∧ env.argOk ∧ s.numThreads = 0 ∧ 0 < maxThreads ∧
      env.createOk = false)
  | _ => True

/-- The invariant of the accounting. -/
structure Accounted (maxThreads : Nat) (s : State κ α) : Prop where
  /-- Calls are numbered in order. -/
  numbers : s.calls.map (fun c ↦ c.job.call) = List.range s.calls.length
  threads : s.numThreads = s.workers.countP fun p ↦ p.live
  bound : s.numThreads ≤ maxThreads
  /-- Jobs are taken in the order of the calls that returned success. -/
  order : s.taken <+: s.accepted
  /-- The queue holds the other accepted jobs, and at most the job of a call that never
  returned. -/
  queue : ∃ tail, s.taken ++ s.q = s.accepted ++ tail ∧ (s.locked = false → tail = []) ∧
    ∀ j ∈ tail, ∃ c ∈ s.calls, c.job = j ∧ c.retCode = none
  /-- What a worker runs was taken. -/
  runs : ∀ j, .running j ∈ s.workers → j ∈ s.taken

namespace Accounted

variable {maxThreads : Nat} {s : State κ α}

theorem calls_nodup (h : Accounted maxThreads s) : (s.calls.map Call.job).Nodup := by
  have hn : (s.calls.map fun c ↦ c.job.call).Nodup := by
    rw [h.numbers]
    exact List.nodup_range
  rw [show (fun c : Call κ α ↦ c.job.call) = PoolQueueItem.call ∘ Call.job from rfl,
    ← List.map_map] at hn
  exact hn.of_map _

theorem accepted_nodup (h : Accounted maxThreads s) : s.accepted.Nodup :=
  h.calls_nodup.sublist (List.filter_sublist.map _)

/-- A call that returned an error is the only one with its job. -/
theorem retCode_unique (h : Accounted maxThreads s) {c d : Call κ α} (hc : c ∈ s.calls)
    (hd : d ∈ s.calls) (hjob : c.job = d.job) : c = d :=
  List.inj_on_of_nodup_map h.calls_nodup hc hd hjob

/-- The job of a call that returned an error is neither queued nor taken. -/
theorem refused (h : Accounted maxThreads s) {c : Call κ α} (hc : c ∈ s.calls) {e : Int}
    (he : c.retCode = some e) (hne : e ≠ 0) : c.job ∉ s.taken ++ s.q := by
  obtain ⟨tail, hq, -, htail⟩ := h.queue
  rw [hq, List.mem_append, not_or]
  constructor
  · intro hacc
    obtain ⟨d, hd, hjob⟩ := List.mem_map.mp hacc
    obtain ⟨hd, hcode⟩ := List.mem_filter.mp hd
    rw [h.retCode_unique hd hc hjob, he] at hcode
    simp [hne] at hcode
  · intro ht
    obtain ⟨d, hd, hjob, hnone⟩ := htail _ ht
    rw [h.retCode_unique hd hc hjob, he] at hnone
    cases hnone

end Accounted

/-- The accepted jobs after one call more. -/
theorem State.accepted_log (s : State κ α) (job : PoolQueueItem κ α) (r : Option Int) :
    (s.log job r).accepted = s.accepted ++ if r = some 0 then [job] else [] := by
  unfold State.accepted State.log
  rw [List.filter_append, List.map_append]
  by_cases hr : r = some 0 <;> simp [hr]

section Log

variable {maxThreads : Nat} {s : State κ α}

/-- The numbering after one call more. -/
theorem Accounted.numbers_log (h : Accounted maxThreads s) {job : PoolQueueItem κ α}
    (hjob : job.call = s.calls.length) (r : Option Int) :
    (s.log job r).calls.map (fun c ↦ c.job.call) = List.range (s.log job r).calls.length := by
  unfold State.log
  rw [List.map_append, h.numbers, List.length_append, List.length_singleton, List.range_succ,
    List.map_singleton, hjob]

/-- A call that queues nothing. -/
theorem Accounted.log (h : Accounted maxThreads s) {job : PoolQueueItem κ α}
    (hjob : job.call = s.calls.length) {r : Option Int} (hr : r ≠ some 0) :
    Accounted maxThreads (s.log job r) := by
  have hacc : (s.log job r).accepted = s.accepted := by
    rw [State.accepted_log, if_neg hr, List.append_nil]
  obtain ⟨tail, hq, hl, htail⟩ := h.queue
  refine ⟨h.numbers_log hjob r, h.threads, h.bound, hacc ▸ h.order, ⟨tail, hacc ▸ hq, hl, ?_⟩,
    h.runs⟩
  intro j hj
  obtain ⟨c, hc, hcj⟩ := htail j hj
  exact ⟨c, List.mem_append_left _ hc, hcj⟩

/-- The mutex stays locked. -/
theorem Accounted.lock (h : Accounted maxThreads s) :
    Accounted maxThreads { s with locked := true } := by
  obtain ⟨tail, hq, -, htail⟩ := h.queue
  exact ⟨h.numbers, h.threads, h.bound, h.order, ⟨tail, hq, nofun, htail⟩, h.runs⟩

/-- A call that queues its job and returns success. -/
theorem Accounted.enqueue (h : Accounted maxThreads s) (hl : s.locked = false)
    {job : PoolQueueItem κ α} (hjob : job.call = s.calls.length) :
    Accounted maxThreads { s.log job (some 0) with q := s.q ++ [job] } := by
  obtain ⟨tail, hq, htail, -⟩ := h.queue
  rw [htail hl, List.append_nil] at hq
  have hacc : (s.log job (some 0)).accepted = s.accepted ++ [job] := by
    rw [State.accepted_log, if_pos rfl]
  refine ⟨h.numbers_log hjob _, h.threads, h.bound, ?_, ⟨[], ?_, fun _ ↦ rfl, nofun⟩, h.runs⟩
  · show s.taken <+: (s.log job (some 0)).accepted
    rw [hacc]
    exact h.order.trans (List.prefix_append _ _)
  · show s.taken ++ (s.q ++ [job]) = (s.log job (some 0)).accepted ++ []
    rw [hacc, List.append_nil, ← List.append_assoc, hq]

/-- A call that queues its job and never returns. -/
theorem Accounted.enqueue_lock (h : Accounted maxThreads s) (hl : s.locked = false)
    {job : PoolQueueItem κ α} (hjob : job.call = s.calls.length) :
    Accounted maxThreads { s.log job none with q := s.q ++ [job], locked := true } := by
  obtain ⟨tail, hq, htail, -⟩ := h.queue
  rw [htail hl, List.append_nil] at hq
  have hacc : (s.log job none).accepted = s.accepted := by
    rw [State.accepted_log, if_neg nofun, List.append_nil]
  refine ⟨h.numbers_log hjob _, h.threads, h.bound, ?_, ⟨[job], ?_, nofun, ?_⟩, h.runs⟩
  · show s.taken <+: (s.log job none).accepted
    exact hacc ▸ h.order
  · show s.taken ++ (s.q ++ [job]) = (s.log job none).accepted ++ [job]
    rw [hacc, ← List.append_assoc, hq]
  · intro j hj
    rw [List.mem_singleton.mp hj]
    exact ⟨⟨job, none⟩, List.mem_append_right _ (List.mem_singleton.mpr rfl), rfl, rfl⟩

/-- One thread more, at the top of its loop. -/
theorem Accounted.start (h : Accounted maxThreads s) (hlt : s.numThreads < maxThreads) :
    Accounted maxThreads
      { s with numThreads := s.numThreads + 1, workers := .top ::ₘ s.workers } := by
  refine ⟨h.numbers, ?_, hlt, h.order, h.queue, ?_⟩
  · show s.numThreads + 1 = (.top ::ₘ s.workers).countP fun p ↦ p.live
    rw [Multiset.countP_cons, h.threads]
    rfl
  · intro j hj
    rcases Multiset.mem_cons.mp hj with hj | hj
    · cases hj
    · exact h.runs j hj

theorem Accounted.schedule (h : Accounted maxThreads s) (hl : s.locked = false) {env : Env}
    {job : PoolQueueItem κ α} (hjob : job.call = s.calls.length)
    (hfirst : ¬(env.mallocOk ∧ env.nodeOk ∧ env.argOk ∧ s.numThreads = 0 ∧ 0 < maxThreads ∧
      env.createOk = false)) :
    Accounted maxThreads (Tpool.schedule maxThreads env s job) := by
  have hcases := schedule_cases maxThreads env s job
  generalize Tpool.schedule maxThreads env s job = t at hcases ⊢
  cases hcases with
  | noMemory => exact h.log hjob (by simp)
  | noNode => exact (h.log hjob (r := none) nofun).lock
  | noArg _ => exact h.enqueue_lock hl hjob
  | noThread hm hn ha hz hmax hc => exact absurd ⟨hm, hn, ha, hz, hmax, hc⟩ hfirst
  | started hlt => exact (h.enqueue hl hjob).start hlt
  | kept _ _ _ => exact h.enqueue hl hjob

/-- A worker takes the first job. -/
theorem Accounted.take (h : Accounted maxThreads s) (hl : s.locked = false)
    {node : PoolQueueItem κ α} {rest : List (PoolQueueItem κ α)} (hq : s.q = node :: rest) :
    Accounted maxThreads { s with q := rest, taken := s.taken ++ [node] } := by
  obtain ⟨tail, heq, htail, -⟩ := h.queue
  rw [htail hl, List.append_nil, hq] at heq
  have heq' : s.taken ++ [node] ++ rest = s.accepted := by
    rw [← heq, List.append_assoc, List.singleton_append]
  refine ⟨h.numbers, h.threads, h.bound, ⟨rest, heq'⟩,
    ⟨[], heq'.trans (List.append_nil _).symm, fun _ ↦ rfl, nofun⟩, ?_⟩
  intro j hj
  exact List.mem_append_left _ (h.runs j hj)

theorem Accounted.initial (h : s.Initial) : Accounted maxThreads s := by
  rw [h]
  exact ⟨rfl, rfl, Nat.zero_le _, List.prefix_rfl, ⟨[], rfl, fun _ ↦ rfl, nofun⟩, nofun⟩

end Log

section Workers

variable [DecidableEq κ] [DecidableEq α] {maxThreads : Nat} {s : State κ α}

/-- A live worker moves to another live phase. -/
theorem countP_move {w : Multiset (Phase κ α)} {p p' : Phase κ α} (hp : p ∈ w)
    (hlive : p.live = p'.live) :
    (p' ::ₘ w.erase p).countP (fun p ↦ p.live) = w.countP fun p ↦ p.live := by
  conv_rhs => rw [← Multiset.cons_erase hp]
  rw [Multiset.countP_cons, Multiset.countP_cons, hlive]

theorem Accounted.move (h : Accounted maxThreads s) {p p' : Phase κ α} (hp : p ∈ s.workers)
    (hlive : p.live = p'.live) (hrun : ∀ j, p' = .running j → j ∈ s.taken) :
    Accounted maxThreads { s with workers := p' ::ₘ s.workers.erase p } := by
  refine ⟨h.numbers, h.threads.trans (countP_move hp hlive).symm, h.bound, h.order, h.queue, ?_⟩
  intro j hj
  rcases Multiset.mem_cons.mp hj with hj | hj
  · exact hrun j hj.symm
  · exact h.runs j (Multiset.mem_of_mem_erase hj)

theorem Accounted.next (h : Accounted maxThreads s) (hl : s.locked = false) {p : Phase κ α}
    (hp : p ∈ s.workers) (hlive : p.live) (timedOut : Bool) :
    Accounted maxThreads (s.next p timedOut) := by
  have hcases := next_cases s p timedOut
  generalize s.next p timedOut = t at hcases ⊢
  cases hcases with
  | waits _ _ => exact h.move hp hlive nofun
  | leaves _ => exact h.move hp hlive nofun
  | takes node rest hq =>
    have ht := h.take hl hq
    show Accounted maxThreads { { s with q := rest, taken := s.taken ++ [node] } with
      workers := .running node ::ₘ s.workers.erase p }
    refine ht.move hp hlive ?_
    rintro j ⟨⟩
    exact List.mem_append_right _ (List.mem_singleton.mpr rfl)

/-- The final decrement. -/
theorem Accounted.leave (h : Accounted maxThreads s) (hp : .leaving ∈ s.workers) :
    Accounted maxThreads { s with
      numThreads := s.numThreads - 1, workers := .gone ::ₘ s.workers.erase .leaving } := by
  have hcount : s.numThreads = (s.workers.erase .leaving).countP (fun p ↦ p.live) + 1 := by
    rw [h.threads]
    conv_lhs => rw [← Multiset.cons_erase hp]
    rw [Multiset.countP_cons]
    rfl
  refine ⟨h.numbers, ?_, (Nat.sub_le _ _).trans h.bound, h.order, h.queue, ?_⟩
  · show s.numThreads - 1 = (.gone ::ₘ s.workers.erase .leaving).countP fun p ↦ p.live
    rw [Multiset.countP_cons, if_neg nofun, hcount, Nat.add_sub_cancel]
    rfl
  · intro j hj
    rcases Multiset.mem_cons.mp hj with hj | hj
    · cases hj
    · exact h.runs j (Multiset.mem_of_mem_erase hj)

/-- Every action that satisfies the condition keeps the accounts. -/
theorem Accounted.step (h : Accounted maxThreads s) {l : Action κ α}
    (hok : StartsFirst maxThreads s l) {s' : State κ α} (hs : Tpool.step maxThreads s l = some s') :
    Accounted maxThreads s' := by
  cases l with
  | schedule env f arg =>
    simp only [Tpool.step] at hs
    split at hs
    case isTrue => exact Option.some.inj hs ▸ h.log rfl (by simp)
    case isFalse hf =>
      obtain ⟨hl, hs⟩ := Option.ite_none_left_eq_some.mp hs
      rw [← Option.some.inj hs]
      refine h.schedule (by simpa using hl) rfl ?_
      intro hbad
      exact hok ⟨Option.isSome_iff_ne_none.mpr hf, hbad⟩
  | enter =>
    obtain ⟨⟨hp, hl⟩, hs⟩ := Option.ite_none_right_eq_some.mp hs
    exact Option.some.inj hs ▸ h.next hl hp rfl false
  | wake timedOut =>
    obtain ⟨⟨hp, hl⟩, hs⟩ := Option.ite_none_right_eq_some.mp hs
    exact Option.some.inj hs ▸ h.next hl hp rfl timedOut
  | finish callback =>
    obtain ⟨hp, hs⟩ := Option.ite_none_right_eq_some.mp hs
    exact Option.some.inj hs ▸ h.move hp rfl nofun
  | leave =>
    obtain ⟨⟨hp, -⟩, hs⟩ := Option.ite_none_right_eq_some.mp hs
    exact Option.some.inj hs ▸ h.leave hp
  | die =>
    obtain ⟨-, hs⟩ := Option.ite_none_left_eq_some.mp hs
    exact Option.some.inj hs ▸ ⟨h.numbers, h.threads, h.bound, h.order, h.queue, h.runs⟩

/-- The accounts are inductive along runs that satisfy the condition. -/
theorem accounted_inductive (maxThreads : Nat) :
    (machine (κ := κ) (α := α) maxThreads).Inductive (StartsFirst maxThreads)
      (Accounted maxThreads) where
  init _ h := Accounted.initial h
  step _ _ _ h hok hs := h.step hok hs

/-- Along runs in which no call finds the pool without a thread, queues its job and fails to start
one: jobs whose call returned success are taken at most once and in the order of their calls,
`numThreads` counts the workers before their final decrement and stays within `maxThreads`, and a
job whose call returned an error is neither queued, taken nor run. -/
theorem pool_accounting (maxThreads : Nat) (s : State κ α)
    (h : (machine maxThreads).Reach (StartsFirst maxThreads) s) :
    (s.taken <+: s.accepted ∧ s.taken.Nodup) ∧
    (s.numThreads = s.workers.countP (fun p ↦ p ≠ .gone) ∧ s.numThreads ≤ maxThreads) ∧
    (∀ c ∈ s.calls, ∀ e : Int, c.retCode = some e → e ≠ 0 →
      c.job ∉ s.q ∧ c.job ∉ s.taken ∧ .running c.job ∉ s.workers) := by
  have hacc : Accounted maxThreads s := Machine.Reach.invariant (accounted_inductive maxThreads) h
  refine ⟨⟨hacc.order, hacc.accepted_nodup.sublist hacc.order.sublist⟩, ⟨?_, hacc.bound⟩, ?_⟩
  · rw [hacc.threads]
    apply Multiset.countP_congr rfl
    intro p _
    cases p <;> simp [Phase.live]
  · intro c hc e he hne
    have hout := hacc.refused hc he hne
    rw [List.mem_append, not_or] at hout
    exact ⟨hout.2, hout.1, fun hrun ↦ hout.1 (hacc.runs c.job hrun)⟩

end Workers

/-- The pool as constructed. -/
def constructed : State κ α := ⟨[], 0, false, false, 0, [], []⟩

/-- Everything `schedule` calls succeeds, except `pthread_create` as given. -/
def Env.creating (createOk : Bool) : Env := ⟨true, true, true, createOk⟩

/-- The accounts after one call and the take of its job. -/
theorem pool_accounting_one :
    ∃ s : State Unit Unit, (machine 1).run constructed
        [.schedule (.creating true) (some ()) (), .enter] = some s ∧
      s.taken <+: s.accepted ∧ s.numThreads ≤ 1 := by
  refine ⟨_, rfl, ?_⟩
  have hr : (machine (κ := Unit) (α := Unit) 1).Reach (StartsFirst 1) _ :=
    ((Machine.Reach.init (s := constructed) rfl).step
      (l := .schedule (.creating true) (some ()) ()) (by simp [StartsFirst, Env.creating]) rfl).step
      (l := .enter) (show StartsFirst 1 _ .enter from trivial) rfl
  exact ⟨(pool_accounting 1 _ hr).1.1, (pool_accounting 1 _ hr).2.1.2⟩

/-- The first call fails to start a thread and returns an error, the second starts one, which takes
the job of the first. -/
theorem refused_job_taken :
    ∃ s : State Unit Nat, (machine 1).Reachable s ∧
      ∃ c ∈ s.calls, c.retCode = some (-1) ∧ c.job ∈ s.taken := by
  refine ⟨_, Machine.Reach.of_run (s := constructed) rfl
    [.schedule (.creating false) (some ()) 7, .schedule (.creating true) (some ()) 8, .enter]
    (fun _ _ _ ↦ trivial) rfl, ⟨⟨some (), 7, 0⟩, some (-1)⟩, ?_, rfl, ?_⟩
  · exact List.mem_cons_self
  · exact List.mem_cons_self

/-! ## Stranded jobs -/

/-- A job in the queue has a live worker that has not decided to exit. -/
def NotStranded (s : State κ α) : Prop := s.q ≠ [] → ∃ p ∈ s.workers, p.staying

instance [DecidableEq κ] [DecidableEq α] (s : State κ α) : Decidable (NotStranded s) :=
  have : Decidable (∃ p ∈ s.workers, p.staying = true) := Multiset.decidableExistsMultiset
  inferInstanceAs (Decidable (s.q ≠ [] → _))

section Stranded

variable [DecidableEq κ] [DecidableEq α]

/-- Threads can be created and the pool is not dying. -/
def Healthy : Action κ α → Prop
  | .schedule env _ _ => env.argOk ∧ env.createOk
  | .die => False
  | _ => True

/-- A call that queues its job finds fewer than `maxThreads` threads or a worker that stays; a wait
that times out finds the queue empty or another worker that stays. -/
def Attended (maxThreads : Nat) (s : State κ α) : Action κ α → Prop
  | .schedule env f _ =>
    f.isSome → env.mallocOk → env.nodeOk → s.numThreads < maxThreads ∨ ∃ p ∈ s.workers, p.staying
  | .wake true => s.q = [] ∨ ∃ p ∈ s.workers.erase .waiting, p.staying
  | _ => True

variable {maxThreads : Nat} {s s' : State κ α}

omit [DecidableEq κ] [DecidableEq α] in
theorem NotStranded.of_staying {p : Phase κ α} (hp : p ∈ s.workers) (hstay : p.staying) :
    NotStranded s := fun _ ↦ ⟨p, hp, hstay⟩

omit [DecidableEq κ] [DecidableEq α] in
theorem NotStranded.schedule (h : NotStranded s) {env : Env} (job : PoolQueueItem κ α)
    (hhealthy : env.argOk ∧ env.createOk)
    (hatt : env.mallocOk → env.nodeOk → s.numThreads < maxThreads ∨ ∃ p ∈ s.workers, p.staying) :
    NotStranded (Tpool.schedule maxThreads env s job) ∧
      (Tpool.schedule maxThreads env s job).allDie = s.allDie := by
  have hcases := schedule_cases maxThreads env s job
  generalize Tpool.schedule maxThreads env s job = t at hcases ⊢
  cases hcases with
  | noMemory => exact ⟨h, rfl⟩
  | noNode => exact ⟨h, rfl⟩
  | noArg harg => exact absurd hhealthy.1 (by simp [harg])
  | noThread _ _ _ _ _ hcreate => exact absurd hhealthy.2 (by simp [hcreate])
  | started _ => exact ⟨.of_staying (Multiset.mem_cons_self _ _) rfl, rfl⟩
  | kept hm hn hkeep =>
    rcases hatt hm hn with hlt | ⟨p, hp, hstay⟩
    · exact absurd hhealthy.2 (by simp [(hkeep hlt).1])
    · exact ⟨.of_staying hp hstay, rfl⟩

/-- A worker that stays keeps the queue attended. -/
theorem NotStranded.next {p : Phase κ α} {timedOut : Bool} (hdie : s.allDie = false)
    (hatt : timedOut → s.q = [] ∨ ∃ p' ∈ s.workers.erase p, p'.staying) :
    NotStranded (s.next p timedOut) ∧ (s.next p timedOut).allDie = false := by
  have hcases := next_cases s p timedOut
  generalize s.next p timedOut = t at hcases ⊢
  cases hcases with
  | waits _ _ => exact ⟨.of_staying (Multiset.mem_cons_self _ _) rfl, hdie⟩
  | takes _ _ _ => exact ⟨.of_staying (Multiset.mem_cons_self _ _) rfl, hdie⟩
  | leaves hout =>
    refine ⟨?_, hdie⟩
    rcases hatt (hout.resolve_left (by simp [hdie])) with hq | ⟨p', hp', hstay⟩
    · exact fun hne ↦ absurd hq hne
    · exact .of_staying (Multiset.mem_cons_of_mem hp') hstay

/-- A worker on its way out is not one that stays. -/
theorem exists_staying_erase {w : Multiset (Phase κ α)} {p : Phase κ α} (hp : ¬p.staying)
    (h : ∃ p' ∈ w, p'.staying) : ∃ p' ∈ w.erase p, p'.staying := by
  obtain ⟨p', hp', hstay⟩ := h
  have hne : p' ≠ p := by
    rintro rfl
    exact hp hstay
  exact ⟨p', (Multiset.mem_erase_of_ne hne).mpr hp', hstay⟩

/-- Every action that satisfies the conditions keeps the queue attended. -/
theorem NotStranded.step (h : NotStranded s ∧ s.allDie = false) {l : Action κ α}
    (hhealthy : Healthy l) (hatt : Attended maxThreads s l)
    (hs : Tpool.step maxThreads s l = some s') : NotStranded s' ∧ s'.allDie = false := by
  obtain ⟨h, hdie⟩ := h
  cases l with
  | schedule env f arg =>
    simp only [Tpool.step] at hs
    split at hs
    case isTrue => exact Option.some.inj hs ▸ ⟨h, hdie⟩
    case isFalse hf =>
      obtain ⟨-, hs⟩ := Option.ite_none_left_eq_some.mp hs
      rw [← Option.some.inj hs]
      obtain ⟨hsched, hdie'⟩ := h.schedule ⟨f, arg, s.calls.length⟩ hhealthy
        (hatt (Option.isSome_iff_ne_none.mpr hf))
      exact ⟨hsched, hdie'.trans hdie⟩
  | enter =>
    obtain ⟨-, hs⟩ := Option.ite_none_right_eq_some.mp hs
    exact Option.some.inj hs ▸ NotStranded.next hdie nofun
  | wake timedOut =>
    obtain ⟨-, hs⟩ := Option.ite_none_right_eq_some.mp hs
    rw [← Option.some.inj hs]
    cases timedOut with
    | false => exact NotStranded.next hdie nofun
    | true => exact NotStranded.next hdie fun _ ↦ hatt
  | finish callback =>
    obtain ⟨-, hs⟩ := Option.ite_none_right_eq_some.mp hs
    exact Option.some.inj hs ▸ ⟨.of_staying (Multiset.mem_cons_self _ _) rfl, hdie⟩
  | leave =>
    obtain ⟨-, hs⟩ := Option.ite_none_right_eq_some.mp hs
    rw [← Option.some.inj hs]
    refine ⟨fun hq ↦ ?_, hdie⟩
    obtain ⟨p, hp, hstay⟩ := exists_staying_erase (p := .leaving) (by simp [Phase.staying]) (h hq)
    exact ⟨p, Multiset.mem_cons_of_mem hp, hstay⟩
  | die => exact hhealthy.elim

/-- From a state with its queue attended, an enabled step that does not satisfy the condition
strands a job: the condition is the weakest. -/
theorem stranded_of_not_attended {l : Action κ α} (hhealthy : Healthy l) (hatt : ¬Attended maxThreads s l)
    (hs : Tpool.step maxThreads s l = some s') : ¬NotStranded s' := by
  cases l with
  | schedule env f arg =>
    simp only [Attended, not_forall, not_or, not_lt] at hatt
    obtain ⟨hf, hm, hn, hfull, hnone⟩ := hatt
    simp only [Tpool.step] at hs
    rw [if_neg (Option.isSome_iff_ne_none.mp hf)] at hs
    obtain ⟨-, hs⟩ := Option.ite_none_left_eq_some.mp hs
    have heq : Tpool.schedule maxThreads env s ⟨f, arg, s.calls.length⟩ =
        { s.log ⟨f, arg, s.calls.length⟩ (some 0) with
          q := s.q ++ [⟨f, arg, s.calls.length⟩] } := by
      simp [Tpool.schedule, hm, hn, not_lt.mpr hfull, State.log]
    rw [← Option.some.inj hs, heq]
    exact fun h ↦ hnone (h (by simp))
  | wake timedOut =>
    cases timedOut with
    | false => exact absurd trivial hatt
    | true =>
      simp only [Attended, not_or] at hatt
      obtain ⟨-, hs⟩ := Option.ite_none_right_eq_some.mp hs
      have heq : s.next .waiting true =
          { s with workers := .leaving ::ₘ s.workers.erase .waiting } := by
        simp [State.next, getNextItemInQueue]
      rw [← Option.some.inj hs, heq]
      intro h
      obtain ⟨p, hp, hstay⟩ := h hatt.1
      rcases Multiset.mem_cons.mp hp with rfl | hp
      · cases hstay
      · exact hatt.2 ⟨p, hp, hstay⟩
  | enter => exact absurd trivial hatt
  | finish _ => exact absurd trivial hatt
  | leave => exact absurd trivial hatt
  | die => exact hhealthy.elim

end Stranded

end Upnp.Tpool
