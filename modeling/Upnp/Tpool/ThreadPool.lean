import Mathlib.Data.Multiset.AddSub
import Mathlib.Data.Multiset.Count
import Mathlib.Data.Multiset.Filter
import Upnp.Lib.Machine

/-!
# The thread pool

`ThreadPool::schedule` and the worker threads of `tpool.cpp`, as they interleave
under the pool's mutex.  Each action is one locked section; what a call into the
system answers (allocations, `pthread_create`, how a wait ends) is part of its
label.

`new` throws `std::bad_alloc` when it fails.  No handler of `schedule` catches it,
so the call does not return and its mutex stays locked.

`call` numbers the calls of `schedule`.  It is not in the source; it tells apart
jobs with one function and one argument.
-/

namespace Upnp.Tpool

open Upnp.Lib

variable {κ α : Type}

/-- `PoolQueueItem`, with the number of the call of `schedule` it comes from; a null function is
`none`. -/
structure PoolQueueItem (κ α : Type) where
  func : Option κ
  arg : α
  /-- How many calls of `schedule` came before. -/
  call : Nat
  deriving DecidableEq

/-- Where a worker thread is. -/
inductive Phase (κ α : Type) where
  /-- About to call `GetNextItemInQueue`. -/
  | top
  /-- In `pthread_cond_timedwait`. -/
  | waiting
  /-- In `callback.func( callback.arg )`. -/
  | running (callback : PoolQueueItem κ α)
  /-- Out of the loop, before the last locked section. -/
  | leaving
  /-- After the decrement of `numThreads`. -/
  | gone
  deriving DecidableEq

/-- A call of `schedule` that ended: its job, and what it returned, or `none` where an exception
left it. -/
structure Call (κ α : Type) where
  job : PoolQueueItem κ α
  retCode : Option Int

/-- The pool, its workers, and what happened so far. -/
structure State (κ α : Type) where
  q : List (PoolQueueItem κ α)
  numThreads : Nat
  allDie : Bool
  /-- An exception left `schedule` with the mutex locked. -/
  locked : Bool
  workers : Multiset (Phase κ α)
  calls : List (Call κ α)
  /-- The jobs the workers took, in order. -/
  taken : List (PoolQueueItem κ α)

/-- What the calls made by `schedule` answer. -/
structure Env where
  /-- `malloc` of the queue item. -/
  mallocOk : Bool
  /-- `new dblListNode` in `addAfterTail`. -/
  nodeOk : Bool
  /-- `new ThreadArg`. -/
  argOk : Bool
  /-- `pthread_create`. -/
  createOk : Bool

/-- The state with one call more. -/
def State.log (s : State κ α) (job : PoolQueueItem κ α) (retCode : Option Int) : State κ α :=
  { s with calls := s.calls ++ [⟨job, retCode⟩] }

/-- `numThreads` after the attempt to start a thread. -/
def State.started (s : State κ α) (createOk : Bool) : State κ α :=
  if createOk then
    { s with numThreads := s.numThreads + 1, workers := .top ::ₘ s.workers }
  else s

/-- `ThreadPool::schedule`. -/
def schedule (maxThreads : Nat) (env : Env) (s : State κ α) (job : PoolQueueItem κ α) :
    State κ α :=
  if !env.mallocOk then s.log job (some (-1))
  else if !env.nodeOk then { s.log job none with locked := true }
  else
    let s := { s with q := s.q ++ [job] }
    if s.numThreads < maxThreads then
      if !env.argOk then { s.log job none with locked := true }
      else
        let s := s.started env.createOk
        -- `throw -2`, whose handler looks at `numThreads` again
        if s.numThreads = 0 then s.log job (some (-1)) else s.log job (some 0)
    else s.log job (some 0)

/-- The loop of `GetNextItemInQueue` around its wait, entered with `code` zero or `ETIMEDOUT`, and
what follows it: the queue, where the worker is then, and the item it took. -/
def getNextItemInQueue (timedOut : Bool) (q : List (PoolQueueItem κ α)) (die : Bool) :
    List (PoolQueueItem κ α) × Phase κ α × Option (PoolQueueItem κ α) :=
  if q.length = 0 ∧ die = false ∧ timedOut = false then (q, .waiting, none)
  else if die then (q, .leaving, none)
  else if timedOut then (q, .leaving, none)
  else
    match q with
    | node :: rest => (rest, .running node, some node)
    -- excluded by `assert( q->length() > 0 )`
    | [] => (q, .leaving, none)

/-- A worker in the phase given runs `GetNextItemInQueue` up to its next unlock. -/
def State.next [DecidableEq κ] [DecidableEq α] (s : State κ α) (p : Phase κ α) (timedOut : Bool) : State κ α :=
  let (q, p', callback) := getNextItemInQueue timedOut s.q s.allDie
  { s with
    q := q
    workers := p' ::ₘ s.workers.erase p
    taken := s.taken ++ callback.toList }

/-- The actions of the pool. -/
inductive Action (κ α : Type) where
  | schedule (env : Env) (f : Option κ) (arg : α)
  /-- A worker enters `GetNextItemInQueue`. -/
  | enter
  /-- A wait ends, by a signal or spuriously, or by its time-out. -/
  | wake (timedOut : Bool)
  /-- A worker's callback returns. -/
  | finish (callback : PoolQueueItem κ α)
  /-- The last locked section of a worker. -/
  | leave
  /-- The first locked section of the destructor. -/
  | die

section Step

variable [DecidableEq κ] [DecidableEq α] (maxThreads : Nat)

/-- One action; `none` when it is not enabled. -/
def step (s : State κ α) : Action κ α → Option (State κ α)
  | .schedule env f arg =>
    let job : PoolQueueItem κ α := ⟨f, arg, s.calls.length⟩
    if f = none then some (s.log job (some (-2)))
    else if s.locked then none
    else some (Tpool.schedule maxThreads env s job)
  | .enter => if .top ∈ s.workers ∧ s.locked = false then some (s.next .top false) else none
  | .wake timedOut =>
    if .waiting ∈ s.workers ∧ s.locked = false then some (s.next .waiting timedOut) else none
  | .finish callback =>
    if .running callback ∈ s.workers then
      some { s with workers := .top ::ₘ s.workers.erase (.running callback) }
    else none
  | .leave =>
    if .leaving ∈ s.workers ∧ s.locked = false then
      some { s with
        numThreads := s.numThreads - 1
        workers := .gone ::ₘ s.workers.erase .leaving }
    else none
  | .die => if s.locked then none else some { s with allDie := true }

/-- The state a `ThreadPool` is constructed in. -/
def State.Initial (s : State κ α) : Prop :=
  s = { q := [], numThreads := 0, allDie := false, locked := false, workers := 0, calls := [],
        taken := [] }

/-- The pool with a constant number of threads at most. -/
def machine : Machine (State κ α) (Action κ α) where
  init := State.Initial
  step := step maxThreads

end Step

end Upnp.Tpool
