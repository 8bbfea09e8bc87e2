import Upnp.Lib.CInt
import Upnp.Lib.Machine

/-!
# The timer thread

The event queue of `timer_thread.c` and the three parties that work on it under
the timer's mutex: `ScheduleTimerEvent`, `RemoveTimerEvent` and `TimerThread`.
The queue is the list behind `eventQ`.  A pass of the timer thread is one locked
section together with the code up to its next lock, which touches nothing the
mutex protects.

`serial` numbers the events in the order they entered the queue.  It is not in
the source; it tells apart events that get the same id after the counter
wraps.
-/

namespace Upnp.Timer

open Upnp.Lib

variable {κ α : Type}

/-- `timer_event`, with the number of events scheduled before it. -/
structure TimerEvent (κ α : Type) where
  /-- The time it is due. -/
  time : Int
  callback : κ
  argument : α
  eventId : Int
  /-- How many events entered the queue before. -/
  serial : Nat
  deriving DecidableEq

/-- `timer_thread_struct`, without the mutex and the condition variable. -/
structure TimerThreadStruct (κ α : Type) where
  newEvent : Int
  shutdown : Bool
  currentEventId : Int
  eventQ : List (TimerEvent κ α)

/-- `InitTimerThread`. -/
def InitTimerThread : TimerThreadStruct κ α where
  newEvent := 0
  shutdown := false
  currentEventId := 0
  eventQ := []

/-- The walk of `finger` and `prev` to the first event that is not earlier, and the link. -/
def link (new_event : TimerEvent κ α) : List (TimerEvent κ α) → List (TimerEvent κ α)
  | [] => [new_event]
  | finger :: next =>
    if finger.time < new_event.time then finger :: link new_event next
    else new_event :: finger :: next

/-- The id after `currentEventId++` and the overflow check. -/
def nextEventId (currentEventId : Int) : Int :=
  if wrap32 (currentEventId + 1) < 0 then 0 else wrap32 (currentEventId + 1)

/-- What `ScheduleTimerEvent` answers. -/
inductive ScheduleResult where
  /-- `UPNP_E_OUTOF_MEMORY` -/
  | outOfMemory
  /-- `UPNP_E_INVALID_PARAM` -/
  | invalidParam
  /-- `UPNP_E_SUCCESS`, with `*eventId` -/
  | success (eventId : Int)
  deriving DecidableEq

/-- The event `ScheduleTimerEvent` fills in. -/
def newTimerEvent (timer : TimerThreadStruct κ α) (expireTime : Int) (callback : κ) (argument : α)
    (serial : Nat) : TimerEvent κ α where
  time := expireTime
  callback := callback
  argument := argument
  eventId := timer.currentEventId
  serial := serial

/-- `ScheduleTimerEvent`.  `current_time` is the clock as it was read before the lock. -/
def ScheduleTimerEvent (mallocOk : Bool) (current_time TimeOut : Int) (callback : κ) (argument : α)
    (serial : Nat) (timer : TimerThreadStruct κ α) : TimerThreadStruct κ α × ScheduleResult :=
  if !mallocOk then (timer, .outOfMemory)
  else if timer.shutdown then (timer, .invalidParam)
  else
    let new_event := newTimerEvent timer (current_time + TimeOut) callback argument serial
    ({ timer with
        currentEventId := nextEventId timer.currentEventId
        eventQ := link new_event timer.eventQ
        newEvent := 1 }, .success new_event.eventId)

/-- The walk of `current_event` and `previous` to the first event with the id, and the unlink. -/
def unlink (eventId : Int) :
    List (TimerEvent κ α) → Option (TimerEvent κ α × List (TimerEvent κ α))
  | [] => none
  | current_event :: next =>
    if current_event.eventId = eventId then some (current_event, next)
    else (unlink eventId next).map fun (e, rest) ↦ (e, current_event :: rest)

/-- What `RemoveTimerEvent` leaves in `*argument`. -/
inductive OutArgument (α : Type) where
  /-- The call did not write it. -/
  | untouched
  | null
  | value (argument : α)
  deriving DecidableEq

/-- `RemoveTimerEvent`: the timer, `found` and `*argument`. -/
def RemoveTimerEvent (eventId : Int) (timer : TimerThreadStruct κ α) :
    TimerThreadStruct κ α × Bool × OutArgument α :=
  if eventId ≠ -1 then
    match unlink eventId timer.eventQ with
    | some (current_event, rest) =>
      ({ timer with eventQ := rest }, true, .value current_event.argument)
    | none => (timer, false, .null)
  else (timer, false, .untouched)

/-- Where the timer thread is between two of its locked sections, or in which wait. -/
inductive Position where
  /-- About to lock the mutex at the top of the loop. -/
  | top
  /-- In `pthread_cond_timedwait`, until the time given. -/
  | timedWait (tv_sec : Int)
  /-- In `pthread_cond_wait`. -/
  | wait
  /-- Returned. -/
  | gone
  deriving DecidableEq

/-- Leaving the loop around a wait. -/
def afterWait (timer : TimerThreadStruct κ α) : TimerThreadStruct κ α × Position :=
  if timer.shutdown then (timer, .gone)
  else ({ timer with newEvent := if timer.newEvent = 1 then 0 else timer.newEvent }, .top)

/-- The loop around `pthread_cond_timedwait`, entered with `retcode` zero or `ETIMEDOUT`.  A call
whose time has passed answers `ETIMEDOUT` without a wait. -/
def timedWaitLoop (now tv_sec : Int) (timedOut : Bool) (timer : TimerThreadStruct κ α) :
    TimerThreadStruct κ α × Position :=
  if timer.newEvent = 0 ∧ !timedOut ∧ now < tv_sec then (timer, .timedWait tv_sec)
  else afterWait timer

/-- The loop around `pthread_cond_wait`. -/
def waitLoop (timer : TimerThreadStruct κ α) : TimerThreadStruct κ α × Position :=
  if timer.newEvent = 0 then (timer, .wait)
  else if timer.shutdown then (timer, .gone)
  else ({ timer with newEvent := 0 }, .top)

/-- One pass of `TimerThread` from the top of its loop at the clock value given: the timer, where
the thread is afterwards, and the event handed to `tpool_Schedule`, if any. -/
def pass (current_time : Int) (timer : TimerThreadStruct κ α) :
    TimerThreadStruct κ α × Position × Option (TimerEvent κ α) :=
  if timer.shutdown then (timer, .gone, none)
  else
    let next_event_time := (timer.eventQ.head?.map TimerEvent.time).getD (-1)
    if next_event_time ≠ -1 ∧ next_event_time ≤ current_time then
      ({ timer with eventQ := timer.eventQ.tail }, .top, timer.eventQ.head?)
    else if next_event_time ≠ -1 then
      let (timer, position) := timedWaitLoop current_time next_event_time false timer
      (timer, position, none)
    else
      let (timer, position) := waitLoop timer
      (timer, position, none)

/-- A wait that ends at the clock value given. -/
def wake (now : Int) (timedOut : Bool) (timer : TimerThreadStruct κ α) :
    Position → Option (TimerThreadStruct κ α × Position)
  | .timedWait tv_sec =>
    if timedOut → tv_sec ≤ now then some (timedWaitLoop now tv_sec timedOut timer) else none
  | .wait => if timedOut then none else some (waitLoop timer)
  | _ => none

/-! ## The system -/

/-- A call of `RemoveTimerEvent` that answered found. -/
structure Removal (κ α : Type) where
  /-- The id the caller asked for. -/
  eventId : Int
  /-- What it received. -/
  argument : OutArgument α
  /-- The event that left the queue. -/
  event : TimerEvent κ α

/-- A call of `tpool_Schedule` by the timer thread. -/
structure Dispatch (κ α : Type) where
  event : TimerEvent κ α
  /-- The clock at the pass. -/
  current_time : Int

/-- The timer, its thread, the clock and what happened so far. -/
structure State (κ α : Type) where
  timer : TimerThreadStruct κ α
  position : Position
  now : Int
  /-- The events that entered the queue. -/
  scheduled : List (TimerEvent κ α)
  removals : List (Removal κ α)
  dispatches : List (Dispatch κ α)

/-- The actions of the system. -/
inductive Action (κ α : Type) where
  /-- The clock moves on. -/
  | tick (now : Int)
  /-- A call of `ScheduleTimerEvent` that read the clock at `current_time`. -/
  | schedule (current_time TimeOut : Int) (callback : κ) (argument : α)
  | remove (eventId : Int)
  | pass
  | wake (timedOut : Bool)

/-- The state after a call of `ScheduleTimerEvent`. -/
def State.schedule (s : State κ α) (current_time TimeOut : Int) (callback : κ) (argument : α) :
    State κ α :=
  let (timer, result) := ScheduleTimerEvent true current_time TimeOut callback argument
    s.scheduled.length s.timer
  { s with
    timer := timer
    scheduled := match result with
      | .success _ => s.scheduled ++
          [newTimerEvent s.timer (current_time + TimeOut) callback argument s.scheduled.length]
      | _ => s.scheduled }

/-- The state after a call of `RemoveTimerEvent`. -/
def State.remove (s : State κ α) (eventId : Int) : State κ α :=
  let (timer, found, argument) := RemoveTimerEvent eventId s.timer
  { s with
    timer := timer
    removals := match found, unlink eventId s.timer.eventQ with
      | true, some (event, _) => s.removals ++ [⟨eventId, argument, event⟩]
      | _, _ => s.removals }

/-- The state after a pass of the timer thread. -/
def State.pass (s : State κ α) : State κ α :=
  let (timer, position, event) := Timer.pass s.now s.timer
  { s with
    timer := timer
    position := position
    dispatches := s.dispatches ++ (event.map fun e ↦ ⟨e, s.now⟩).toList }

/-- One action; `none` when it is not enabled. -/
def step (s : State κ α) : Action κ α → Option (State κ α)
  | .tick now => if s.now ≤ now then some { s with now := now } else none
  | .schedule current_time TimeOut callback argument =>
    if current_time ≤ s.now then some (s.schedule current_time TimeOut callback argument) else none
  | .remove eventId => some (s.remove eventId)
  | .pass => if s.position = .top then some s.pass else none
  | .wake timedOut =>
    (wake s.now timedOut s.timer s.position).map fun (timer, position) ↦
      { s with timer := timer, position := position }

/-- After `InitTimerThread`, at any clock value. -/
def State.Initial (s : State κ α) : Prop :=
  s.timer = InitTimerThread ∧ s.position = .top ∧ s.scheduled = [] ∧ s.removals = [] ∧
    s.dispatches = []

/-- The timer system. -/
def machine : Machine (State κ α) (Action κ α) where
  init := State.Initial
  step := step

/-- Event times are positive and fewer than `2^31` events are scheduled while an older one is
pending. -/
def Bounded (s : State κ α) : Action κ α → Prop
  | .schedule current_time TimeOut _ _ =>
    0 < current_time + TimeOut ∧ ∀ e ∈ s.timer.eventQ, s.scheduled.length - e.serial < 2147483648
  | _ => True

/-- The action sends the timer thread to sleep, or back to sleep. -/
def GoesToSleep (s' : State κ α) : Action κ α → Prop
  | .pass | .wake _ => s'.position = .wait ∨ ∃ tv_sec, s'.position = .timedWait tv_sec
  | _ => False

end Upnp.Timer
