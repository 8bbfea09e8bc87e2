import Mathlib.Data.List.Perm.Basic
import Mathlib.Data.List.Nodup
import Mathlib.Data.Int.ModEq
import Upnp.Timer.TimerThread

/-!
# Accounting of timer events

What one call does to the queue, the invariant of the timer system, and the
result over whole runs: the queue stays sorted and its ids distinct, every
scheduled event is in exactly one place, nothing is dispatched early, and the
timer thread never sleeps past a pending event.
-/

namespace Upnp.Timer

open Upnp.Lib

variable {κ α : Type}

/-! ## The queue under one call -/

/-- Linking an event in adds it and nothing else. -/
theorem link_perm (e : TimerEvent κ α) (q : List (TimerEvent κ α)) : (link e q).Perm (e :: q) := by
  induction q with
  | nil => exact .refl _
  | cons f q ih =>
    simp only [link]
    split
    · exact (ih.cons f).trans (.swap e f q)
    · exact .refl _

@[simp] theorem mem_link {e f : TimerEvent κ α} {q : List (TimerEvent κ α)} :
    f ∈ link e q ↔ f = e ∨ f ∈ q := by
  rw [(link_perm e q).mem_iff, List.mem_cons]

/-- The order of the queue: by non-decreasing time. -/
def Sorted (q : List (TimerEvent κ α)) : Prop := q.Pairwise fun e f ↦ e.time ≤ f.time

/-- The walk stops where the new event keeps the queue sorted. -/
theorem Sorted.link {e : TimerEvent κ α} {q : List (TimerEvent κ α)} (h : Sorted q) :
    Sorted (link e q) := by
  induction q with
  | nil => exact List.pairwise_singleton _ _
  | cons f q ih =>
    obtain ⟨hf, hq⟩ := List.pairwise_cons.mp h
    simp only [Timer.link]
    split
    case isTrue hlt =>
      refine List.pairwise_cons.mpr ⟨?_, ih hq⟩
      intro g hg
      rcases mem_link.mp hg with rfl | hg
      · exact hlt.le
      · exact hf g hg
    case isFalse hle =>
      refine List.pairwise_cons.mpr ⟨?_, h⟩
      intro g hg
      rcases List.mem_cons.mp hg with rfl | hg
      · exact not_lt.mp hle
      · exact (not_lt.mp hle).trans (hf g hg)

/-- What the walk of `RemoveTimerEvent` finds and leaves. -/
theorem unlink_spec {i : Int} {q rest : List (TimerEvent κ α)} {e : TimerEvent κ α}
    (h : unlink i q = some (e, rest)) : e.eventId = i ∧ q.Perm (e :: rest) ∧ rest.Sublist q := by
  induction q generalizing rest with
  | nil => cases h
  | cons f q ih =>
    simp only [unlink] at h
    split at h
    case isTrue hf =>
      cases h
      exact ⟨hf, .refl _, List.sublist_cons_self _ _⟩
    case isFalse =>
      simp only [Option.map_eq_some_iff, Prod.mk.injEq, Prod.exists] at h
      obtain ⟨e', rest', h, rfl, rfl⟩ := h
      obtain ⟨hi, hp, hs⟩ := ih h
      exact ⟨hi, (hp.cons f).trans (.swap e' f rest'), hs.cons_cons f⟩

/-- The counter runs through the residues of the number of events scheduled. -/
theorem nextEventId_mod (n : Nat) : nextEventId ((n % 2147483648 : Nat) : Int) =
    ((n + 1) % 2147483648 : Nat) := by
  have hn : n % 2147483648 < 2147483648 := Nat.mod_lt _ (by simp)
  unfold nextEventId
  by_cases hmax : n % 2147483648 = 2147483647
  · have hwrap : wrap32 (((n % 2147483648 : Nat) : Int) + 1) = -2147483648 := by
      rw [hmax]
      exact wrap32_succ_intMax
    rw [hwrap]
    simp only [show (-2147483648 : Int) < 0 by simp, if_true]
    omega
  · rw [wrap32_of_range (by omega) (by omega), if_neg (by omega)]
    omega

/-! ## The invariant -/

/-- The events handed out by `RemoveTimerEvent`. -/
def State.removed (s : State κ α) : List (TimerEvent κ α) := s.removals.map Removal.event

/-- The events handed to the thread pool. -/
def State.dispatched (s : State κ α) : List (TimerEvent κ α) := s.dispatches.map Dispatch.event

/-- Where the timer thread sleeps without news, no pending event is earlier than its wake-up. -/
def Position.Covers (q : List (TimerEvent κ α)) : Position → Prop
  | .timedWait tv_sec => ∀ e ∈ q, tv_sec ≤ e.time
  | .wait => q = []
  | _ => True

/-- The invariant of the timer system. -/
structure Accounted (s : State κ α) : Prop where
  running : s.timer.shutdown = false
  sorted : Sorted s.timer.eventQ
  /-- The scheduled events are numbered in order. -/
  serials : s.scheduled.map TimerEvent.serial = List.range s.scheduled.length
  /-- Ids are the numbers modulo `2^31`. -/
  ids : ∀ e ∈ s.scheduled, e.eventId = ((e.serial % 2147483648 : Nat) : Int)
  counter : s.timer.currentEventId = ((s.scheduled.length % 2147483648 : Nat) : Int)
  /-- Pending events are recent. -/
  recent : ∀ e ∈ s.timer.eventQ, s.scheduled.length ≤ e.serial + 2147483648
  positive : ∀ e ∈ s.timer.eventQ, 0 < e.time
  /-- Every scheduled event is pending, removed or dispatched. -/
  placed : s.scheduled.Perm (s.timer.eventQ ++ s.removed ++ s.dispatched)
  /-- A found call asked for the event's id and received its argument. -/
  handed : ∀ r ∈ s.removals, r.eventId = r.event.eventId ∧ r.argument = .value r.event.argument
  notEarly : ∀ d ∈ s.dispatches, d.event.time ≤ d.current_time
  covers : s.timer.newEvent = 0 → s.position.Covers s.timer.eventQ

namespace Accounted

variable {s : State κ α}

/-- Pending events were scheduled. -/
theorem pending_mem (h : Accounted s) {e : TimerEvent κ α} (he : e ∈ s.timer.eventQ) :
    e ∈ s.scheduled := by
  rw [h.placed.mem_iff]
  simp [he]

theorem scheduled_serial_nodup (h : Accounted s) : (s.scheduled.map TimerEvent.serial).Nodup := by
  rw [h.serials]
  exact List.nodup_range

theorem scheduled_nodup (h : Accounted s) : s.scheduled.Nodup :=
  h.scheduled_serial_nodup.of_map _

theorem serial_lt (h : Accounted s) {e : TimerEvent κ α} (he : e ∈ s.scheduled) :
    e.serial < s.scheduled.length := by
  have hmem : e.serial ∈ s.scheduled.map TimerEvent.serial := List.mem_map_of_mem he
  rwa [h.serials, List.mem_range] at hmem

/-- Two pending events with one id are one event: their numbers differ by less than `2^31`. -/
theorem pending_ids (h : Accounted s) : (s.timer.eventQ.map TimerEvent.eventId).Nodup := by
  have hsub : (s.timer.eventQ.map TimerEvent.serial).Nodup := by
    have hp := h.placed.map TimerEvent.serial
    have hall := hp.nodup_iff.mp h.scheduled_serial_nodup
    rw [List.map_append, List.map_append, List.append_assoc] at hall
    exact hall.of_append_left
  have hinj : ∀ e ∈ s.timer.eventQ, ∀ f ∈ s.timer.eventQ, e.eventId = f.eventId →
      e.serial = f.serial := by
    intro e he f hf heq
    rw [h.ids e (h.pending_mem he), h.ids f (h.pending_mem hf)] at heq
    have hle := h.serial_lt (h.pending_mem he)
    have hlf := h.serial_lt (h.pending_mem hf)
    have hre := h.recent e he
    have hrf := h.recent f hf
    omega
  rw [List.Nodup, List.pairwise_map] at hsub ⊢
  apply hsub.imp_of_mem
  intro e f he hf hne heq
  exact hne (hinj e he f hf heq)

end Accounted

/-! ## One lemma per action -/

section Steps

variable {s s' : State κ α}

theorem Accounted.initial (h : s.Initial) : Accounted s := by
  obtain ⟨ht, hp, hs, hr, hd⟩ := h
  constructor
  case placed => simp [State.removed, State.dispatched, ht, hs, hr, hd, InitTimerThread]
  case sorted => simp [Sorted, ht, InitTimerThread]
  case covers => simp [hp, Position.Covers]
  all_goals simp [ht, hs, hr, hd, InitTimerThread]

/-- The clock carries nothing the invariant speaks of. -/
theorem Accounted.tick (h : Accounted s) (now : Int) : Accounted { s with now := now } :=
  ⟨h.running, h.sorted, h.serials, h.ids, h.counter, h.recent, h.positive, h.placed, h.handed,
    h.notEarly, h.covers⟩

/-- `ScheduleTimerEvent` on a running timer. -/
theorem State.schedule_eq (hrun : s.timer.shutdown = false) (current_time TimeOut : Int)
    (callback : κ) (argument : α) :
    s.schedule current_time TimeOut callback argument =
      let e := newTimerEvent s.timer (current_time + TimeOut) callback argument s.scheduled.length
      { s with
        timer := { s.timer with
          currentEventId := nextEventId s.timer.currentEventId
          eventQ := link e s.timer.eventQ
          newEvent := 1 }
        scheduled := s.scheduled ++ [e] } := by
  simp [State.schedule, ScheduleTimerEvent, hrun]

theorem Accounted.schedule (h : Accounted s) {current_time TimeOut : Int} {callback : κ}
    {argument : α} (hb : Bounded s (.schedule current_time TimeOut callback argument)) :
    Accounted (s.schedule current_time TimeOut callback argument) := by
  obtain ⟨hpos, hrecent⟩ := hb
  rw [State.schedule_eq h.running]
  generalize he : newTimerEvent s.timer (current_time + TimeOut) callback argument
    s.scheduled.length = e
  have hserial : e.serial = s.scheduled.length := by rw [← he]; rfl
  have hid : e.eventId = s.timer.currentEventId := by rw [← he]; rfl
  have htime : e.time = current_time + TimeOut := by rw [← he]; rfl
  constructor
  case running => exact h.running
  case sorted => exact h.sorted.link
  case serials =>
    show (s.scheduled ++ [e]).map TimerEvent.serial = List.range (s.scheduled ++ [e]).length
    rw [List.map_append, h.serials, List.length_append, List.length_singleton, List.range_succ,
      List.map_singleton, hserial]
  case ids =>
    intro f hf
    rcases List.mem_append.mp hf with hf | hf
    · exact h.ids f hf
    · rw [List.mem_singleton.mp hf, hid, hserial]
      exact h.counter
  case counter =>
    show nextEventId s.timer.currentEventId = (((s.scheduled ++ [e]).length % _ : Nat) : Int)
    rw [h.counter, nextEventId_mod, List.length_append, List.length_singleton]
  case recent =>
    intro f hf
    show (s.scheduled ++ [e]).length ≤ f.serial + 2147483648
    rw [List.length_append, List.length_singleton]
    rcases mem_link.mp hf with rfl | hf
    · omega
    · have := hrecent f hf
      omega
  case positive =>
    intro f hf
    rcases mem_link.mp hf with rfl | hf
    · exact htime ▸ hpos
    · exact h.positive f hf
  case placed =>
    show (s.scheduled ++ [e]).Perm (link e s.timer.eventQ ++ s.removed ++ s.dispatched)
    calc
      (s.scheduled ++ [e]).Perm (e :: s.scheduled) := List.perm_append_singleton _ _
      List.Perm _ (e :: (s.timer.eventQ ++ s.removed ++ s.dispatched)) := h.placed.cons e
      List.Perm _ (link e s.timer.eventQ ++ s.removed ++ s.dispatched) :=
        (((link_perm e _).symm.append_right _).append_right _)
  case handed => exact h.handed
  case notEarly => exact h.notEarly
  case covers =>
    intro hnew
    cases hnew

/-- `RemoveTimerEvent` either takes one event out of the queue or changes nothing. -/
theorem State.remove_cases (s : State κ α) (i : Int) :
    s.remove i = s ∨ ∃ e rest, unlink i s.timer.eventQ = some (e, rest) ∧
      s.remove i = { s with
        timer := { s.timer with eventQ := rest }
        removals := s.removals ++ [⟨i, .value e.argument, e⟩] } := by
  unfold State.remove RemoveTimerEvent
  by_cases hi : i = -1
  · exact .inl (by simp [hi])
  · cases hu : unlink i s.timer.eventQ with
    | none => exact .inl (by simp [hi])
    | some p => exact .inr ⟨p.1, p.2, rfl, by simp [hi]⟩

theorem Position.Covers.sublist {p : Position} {q q' : List (TimerEvent κ α)} (h : p.Covers q)
    (hs : q'.Sublist q) : p.Covers q' := by
  cases p with
  | timedWait tv_sec => exact fun e he ↦ h e (hs.subset he)
  | wait => exact List.sublist_nil.mp (h ▸ hs)
  | top => trivial
  | gone => trivial

theorem Accounted.remove (h : Accounted s) (i : Int) : Accounted (s.remove i) := by
  rcases s.remove_cases i with heq | ⟨e, rest, hu, heq⟩
  · rw [heq]
    exact h
  obtain ⟨hi, hp, hs⟩ := unlink_spec hu
  rw [heq]
  constructor
  case running => exact h.running
  case sorted => exact h.sorted.sublist hs
  case serials => exact h.serials
  case ids => exact h.ids
  case counter => exact h.counter
  case recent => exact fun f hf ↦ h.recent f (hs.subset hf)
  case positive => exact fun f hf ↦ h.positive f (hs.subset hf)
  case placed =>
    show s.scheduled.Perm (rest ++ (s.removals ++ [_]).map Removal.event ++ s.dispatched)
    rw [List.map_append, List.map_singleton]
    calc
      s.scheduled.Perm (s.timer.eventQ ++ s.removed ++ s.dispatched) := h.placed
      List.Perm _ (e :: rest ++ s.removed ++ s.dispatched) :=
        (hp.append_right _).append_right _
      List.Perm _ (rest ++ (s.removed ++ [e]) ++ s.dispatched) := by
        refine List.Perm.append_right _ ?_
        rw [← List.append_assoc]
        exact (List.perm_append_singleton e (rest ++ s.removed)).symm
  case handed =>
    intro r hr
    rcases List.mem_append.mp hr with hr | hr
    · exact h.handed r hr
    · rw [List.mem_singleton.mp hr]
      exact ⟨hi.symm, rfl⟩
  case notEarly => exact h.notEarly
  case covers => exact fun hnew ↦ (h.covers hnew).sublist hs

/-- The timer and the thread after a loop around a wait: only `newEvent` can have changed. -/
structure Waited (timer timer' : TimerThreadStruct κ α) (p : Position) : Prop where
  running : timer'.shutdown = timer.shutdown
  counter : timer'.currentEventId = timer.currentEventId
  eventQ : timer'.eventQ = timer.eventQ
  covers : timer'.newEvent = 0 → p.Covers timer'.eventQ

theorem afterWait_waited {timer : TimerThreadStruct κ α} (h : timer.shutdown = false) :
    Waited timer (afterWait timer).1 (afterWait timer).2 := by
  rw [afterWait, if_neg (by simp [h])]
  exact ⟨rfl, rfl, rfl, fun _ ↦ trivial⟩

theorem timedWaitLoop_waited {timer : TimerThreadStruct κ α} (h : timer.shutdown = false)
    (now tv_sec : Int) (timedOut : Bool)
    (hc : timer.newEvent = 0 → ∀ e ∈ timer.eventQ, tv_sec ≤ e.time) :
    Waited timer (timedWaitLoop now tv_sec timedOut timer).1
      (timedWaitLoop now tv_sec timedOut timer).2 := by
  unfold timedWaitLoop
  split
  · exact ⟨rfl, rfl, rfl, hc⟩
  · exact afterWait_waited h

theorem waitLoop_waited {timer : TimerThreadStruct κ α} (h : timer.shutdown = false)
    (hc : timer.newEvent = 0 → timer.eventQ = []) :
    Waited timer (waitLoop timer).1 (waitLoop timer).2 := by
  unfold waitLoop
  split
  · exact ⟨rfl, rfl, rfl, hc⟩
  · rw [if_neg (by simp [h])]
    exact ⟨rfl, rfl, rfl, fun _ ↦ trivial⟩

/-- The invariant after a wait, entered or left. -/
theorem Accounted.waited (h : Accounted s) {timer : TimerThreadStruct κ α} {p : Position}
    (hw : Waited s.timer timer p) : Accounted { s with timer := timer, position := p } := by
  obtain ⟨hrun, hcount, hq, hcov⟩ := hw
  constructor
  case running => exact hrun.trans h.running
  case sorted => exact (congrArg Sorted hq).mpr h.sorted
  case serials => exact h.serials
  case ids => exact h.ids
  case counter => exact hcount.trans h.counter
  case recent => exact fun e he ↦ h.recent e (hq ▸ he)
  case positive => exact fun e he ↦ h.positive e (hq ▸ he)
  case placed =>
    show s.scheduled.Perm (timer.eventQ ++ s.removed ++ s.dispatched)
    rw [hq]
    exact h.placed
  case handed => exact h.handed
  case notEarly => exact h.notEarly
  case covers => exact hcov

/-- The three ways a pass of a running timer with positive event times ends. -/
inductive PassOf (s : State κ α) : State κ α → Prop
  /-- The head is due and goes to the pool. -/
  | dispatch (e : TimerEvent κ α) (rest : List (TimerEvent κ α)) :
    s.timer.eventQ = e :: rest → e.time ≤ s.now →
    PassOf s { s with
      timer := { s.timer with eventQ := rest }
      position := .top
      dispatches := s.dispatches ++ [⟨e, s.now⟩] }
  /-- The head is not due. -/
  | sleep (e : TimerEvent κ α) (rest : List (TimerEvent κ α)) :
    s.timer.eventQ = e :: rest → s.now < e.time →
    PassOf s { s with
      timer := (timedWaitLoop s.now e.time false s.timer).1
      position := (timedWaitLoop s.now e.time false s.timer).2 }
  /-- Nothing is pending. -/
  | idle : s.timer.eventQ = [] →
    PassOf s { s with timer := (waitLoop s.timer).1, position := (waitLoop s.timer).2 }

theorem Accounted.pass_cases (h : Accounted s) : PassOf s s.pass := by
  cases hq : s.timer.eventQ with
  | nil =>
    have heq : s.pass =
        { s with timer := (waitLoop s.timer).1, position := (waitLoop s.timer).2 } := by
      simp [State.pass, Timer.pass, h.running, hq]
    exact heq ▸ .idle hq
  | cons e rest =>
    have hpos : e.time ≠ -1 := by
      have := h.positive e (by simp [hq])
      omega
    by_cases hdue : e.time ≤ s.now
    · have heq : s.pass = { s with
          timer := { s.timer with eventQ := rest }
          position := .top
          dispatches := s.dispatches ++ [⟨e, s.now⟩] } := by
        simp [State.pass, Timer.pass, h.running, hq, hpos, hdue]
      exact heq ▸ .dispatch e rest hq hdue
    · have heq : s.pass = { s with
          timer := (timedWaitLoop s.now e.time false s.timer).1
          position := (timedWaitLoop s.now e.time false s.timer).2 } := by
        simp [State.pass, Timer.pass, h.running, hq, hpos, hdue]
      exact heq ▸ .sleep e rest hq (not_le.mp hdue)

/-- The head of a sorted queue is the earliest event. -/
theorem Sorted.head_le {e : TimerEvent κ α} {rest : List (TimerEvent κ α)}
    (h : Sorted (e :: rest)) : ∀ f ∈ e :: rest, e.time ≤ f.time := by
  rintro f (_ | ⟨_, hf⟩)
  · exact le_refl _
  · exact (List.pairwise_cons.mp h).1 f hf

theorem Accounted.pass (h : Accounted s) : Accounted s.pass := by
  have hcases := h.pass_cases
  generalize s.pass = t at hcases ⊢
  cases hcases with
  | sleep e rest hq hlt =>
    exact h.waited (timedWaitLoop_waited h.running _ _ _
      fun _ ↦ hq ▸ (hq ▸ h.sorted : Sorted (e :: rest)).head_le)
  | idle hq => exact h.waited (waitLoop_waited h.running fun _ ↦ hq)
  | dispatch e rest hq hdue =>
    have hsub : rest.Sublist s.timer.eventQ := hq ▸ List.sublist_cons_self e rest
    constructor
    case running => exact h.running
    case sorted => exact h.sorted.sublist hsub
    case serials => exact h.serials
    case ids => exact h.ids
    case counter => exact h.counter
    case recent => exact fun f hf ↦ h.recent f (hsub.subset hf)
    case positive => exact fun f hf ↦ h.positive f (hsub.subset hf)
    case placed =>
      show s.scheduled.Perm (rest ++ s.removed ++ (s.dispatches ++ [_]).map Dispatch.event)
      rw [List.map_append, List.map_singleton]
      calc
        s.scheduled.Perm (e :: (rest ++ s.removed ++ s.dispatched)) := by
          have hplaced := h.placed
          rwa [hq] at hplaced
        List.Perm _ (rest ++ s.removed ++ s.dispatched ++ [e]) :=
          (List.perm_append_singleton e _).symm
        List.Perm _ (rest ++ s.removed ++ (s.dispatched ++ [e])) := by
          rw [List.append_assoc]
    case handed => exact h.handed
    case notEarly =>
      intro d hd
      rcases List.mem_append.mp hd with hd | hd
      · exact h.notEarly d hd
      · rw [List.mem_singleton.mp hd]
        exact hdue
    case covers => exact fun _ ↦ trivial

/-- A wait that ends: the loop around it goes on or is left. -/
theorem Accounted.wake (h : Accounted s) {timedOut : Bool} {timer : TimerThreadStruct κ α}
    {p : Position} (hw : Timer.wake s.now timedOut s.timer s.position = some (timer, p)) :
    Accounted { s with timer := timer, position := p } := by
  have hcov := h.covers
  apply h.waited
  cases hp : s.position with
  | timedWait tv_sec =>
    rw [hp] at hw hcov
    simp only [Timer.wake] at hw
    split at hw
    · have hloop := timedWaitLoop_waited h.running s.now tv_sec timedOut hcov
      rwa [Option.some.inj hw] at hloop
    · cases hw
  | wait =>
    rw [hp] at hw hcov
    simp only [Timer.wake] at hw
    split at hw
    · cases hw
    · have hloop := waitLoop_waited h.running hcov
      rwa [Option.some.inj hw] at hloop
  | top => simp [hp, Timer.wake] at hw
  | gone => simp [hp, Timer.wake] at hw

/-- Every admissible action keeps the invariant. -/
theorem Accounted.step (h : Accounted s) {l : Action κ α} (hb : Bounded s l)
    (hs : Timer.step s l = some s') : Accounted s' := by
  cases l with
  | tick now =>
    obtain ⟨-, hs⟩ := Option.ite_none_right_eq_some.mp hs
    exact Option.some.inj hs ▸ h.tick now
  | schedule current_time TimeOut callback argument =>
    obtain ⟨-, hs⟩ := Option.ite_none_right_eq_some.mp hs
    exact Option.some.inj hs ▸ h.schedule hb
  | remove eventId =>
    cases hs
    exact h.remove eventId
  | pass =>
    obtain ⟨-, hs⟩ := Option.ite_none_right_eq_some.mp hs
    exact Option.some.inj hs ▸ h.pass
  | wake timedOut =>
    obtain ⟨⟨timer, p⟩, hw, rfl⟩ := Option.map_eq_some_iff.mp hs
    exact h.wake hw

end Steps

/-- The invariant is inductive. -/
theorem accounted_inductive : (machine (κ := κ) (α := α)).Inductive Bounded Accounted where
  init _ h := Accounted.initial h
  step _ _ _ h hb hs := h.step hb hs

/-! ## Going to sleep -/

/-- A thread that waits has seen no news, and its wake-up time is still to come. -/
structure Asleep (now : Int) (timer : TimerThreadStruct κ α) (p : Position) : Prop where
  noNews : p ≠ .top → p ≠ .gone → timer.newEvent = 0
  later : ∀ tv_sec, p = .timedWait tv_sec → now < tv_sec

theorem afterWait_asleep (now : Int) (timer : TimerThreadStruct κ α) :
    Asleep now (afterWait timer).1 (afterWait timer).2 := by
  unfold afterWait
  split
  · exact ⟨fun _ hgone ↦ absurd rfl hgone, nofun⟩
  · exact ⟨fun htop ↦ absurd rfl htop, nofun⟩

theorem timedWaitLoop_asleep (now tv_sec : Int) (timedOut : Bool)
    (timer : TimerThreadStruct κ α) :
    Asleep now (timedWaitLoop now tv_sec timedOut timer).1
      (timedWaitLoop now tv_sec timedOut timer).2 := by
  unfold timedWaitLoop
  split
  case isTrue h =>
    constructor
    · exact fun _ _ ↦ h.1
    · rintro _ ⟨⟩
      exact h.2.2
  case isFalse => exact afterWait_asleep now timer

theorem waitLoop_asleep (now : Int) (timer : TimerThreadStruct κ α) :
    Asleep now (waitLoop timer).1 (waitLoop timer).2 := by
  unfold waitLoop
  split
  case isTrue h => exact ⟨fun _ _ ↦ h, nofun⟩
  case isFalse =>
    split
    · exact ⟨fun _ hgone ↦ absurd rfl hgone, nofun⟩
    · exact ⟨fun htop ↦ absurd rfl htop, nofun⟩

/-- A step of the timer thread leaves it awake or properly asleep. -/
theorem Accounted.asleep {s s' : State κ α} (h : Accounted s) {l : Action κ α}
    (hs : Timer.step s l = some s') (hl : GoesToSleep s' l) :
    Asleep s'.now s'.timer s'.position := by
  cases l with
  | pass =>
    obtain ⟨-, hs⟩ := Option.ite_none_right_eq_some.mp hs
    rw [← Option.some.inj hs]
    have hcases := h.pass_cases
    generalize s.pass = t at hcases ⊢
    cases hcases with
    | dispatch e rest _ _ => exact ⟨fun htop ↦ absurd rfl htop, nofun⟩
    | sleep e rest _ _ => exact timedWaitLoop_asleep ..
    | idle _ => exact waitLoop_asleep ..
  | wake timedOut =>
    obtain ⟨⟨timer, p⟩, hw, rfl⟩ := Option.map_eq_some_iff.mp hs
    show Asleep s.now timer p
    cases hp : s.position with
    | timedWait tv_sec =>
      obtain ⟨-, hw⟩ := Option.ite_none_right_eq_some.mp (hp ▸ hw)
      have hloop := timedWaitLoop_asleep s.now tv_sec timedOut s.timer
      rwa [Option.some.inj hw] at hloop
    | wait =>
      obtain ⟨-, hw⟩ := Option.ite_none_left_eq_some.mp (hp ▸ hw)
      have hloop := waitLoop_asleep s.now s.timer
      rwa [Option.some.inj hw] at hloop
    | top => simp [hp, Timer.wake] at hw
    | gone => simp [hp, Timer.wake] at hw
  | tick _ => exact hl.elim
  | schedule _ _ _ _ => exact hl.elim
  | remove _ => exact hl.elim

/-! ## The timer queue over whole runs -/

/-- In every reachable state the queue is sorted and its ids are distinct; every scheduled event
is exactly once pending, removed by a found call that received its argument, or dispatched, and
not before its time; and a step that sends the timer thread to sleep leaves no pending event that
is due or earlier than the wake-up. -/
theorem timer_queue [DecidableEq κ] [DecidableEq α] (s : State κ α)
    (h : machine.Reach Bounded s) :
    Sorted s.timer.eventQ ∧
    (s.timer.eventQ.map TimerEvent.eventId).Nodup ∧
    (∀ e ∈ s.scheduled,
      s.timer.eventQ.count e + s.removed.count e + s.dispatched.count e = 1) ∧
    (∀ e ∈ s.timer.eventQ ++ s.removed ++ s.dispatched, e ∈ s.scheduled) ∧
    (∀ r ∈ s.removals, r.eventId = r.event.eventId ∧ r.argument = .value r.event.argument) ∧
    (∀ d ∈ s.dispatches, d.event.time ≤ d.current_time) ∧
    (∀ (l : Action κ α) (s' : State κ α), Bounded s l → machine.step s l = some s' →
      GoesToSleep s' l → ∀ e ∈ s'.timer.eventQ,
        s'.now < e.time ∧ ∃ tv_sec, s'.position = .timedWait tv_sec ∧ tv_sec ≤ e.time) := by
  have hacc : Accounted s := Machine.Reach.invariant accounted_inductive h
  refine ⟨hacc.sorted, hacc.pending_ids, ?_, ?_, hacc.handed, hacc.notEarly, ?_⟩
  · intro e he
    rw [← List.count_append, ← List.count_append, ← hacc.placed.count_eq]
    exact List.count_eq_one_of_mem hacc.scheduled_nodup he
  · intro e he
    exact hacc.placed.mem_iff.mpr he
  · intro l s' hb hs hl e he
    have hacc' : Accounted s' := hacc.step hb hs
    have hasleep : Asleep s'.now s'.timer s'.position := hacc.asleep hs hl
    have hsleeps : s'.position = .wait ∨ ∃ tv_sec, s'.position = .timedWait tv_sec := by
      cases l with
      | pass => exact hl
      | wake _ => exact hl
      | tick _ => exact hl.elim
      | schedule _ _ _ _ => exact hl.elim
      | remove _ => exact hl.elim
    have hcov := hacc'.covers (hasleep.noNews (by rcases hsleeps with hp | ⟨_, hp⟩ <;> simp [hp])
      (by rcases hsleeps with hp | ⟨_, hp⟩ <;> simp [hp]))
    rcases hsleeps with hp | ⟨tv_sec, hp⟩
    · rw [hp] at hcov
      exact absurd (hcov ▸ he) List.not_mem_nil
    · rw [hp] at hcov
      exact ⟨(hasleep.later tv_sec hp).trans_le (hcov e he), tv_sec, hp, hcov e he⟩

/-- The initial timer, as an input for the theorem. -/
def atInit (now : Int) : State κ α := ⟨InitTimerThread, .top, now, [], [], []⟩

/-- A timer with one event scheduled at clock 5 for clock 7, and the thread asleep until then. -/
theorem timer_queue_once :
    let s : State Unit Nat := ((atInit 5).schedule 5 2 () 9).pass.pass
    s.timer.eventQ.count (newTimerEvent InitTimerThread 7 () 9 0) + s.removed.count
        (newTimerEvent InitTimerThread 7 () 9 0) + s.dispatched.count
        (newTimerEvent InitTimerThread 7 () 9 0) = 1 ∧ s.position = .timedWait 7 := by
  have h₀ : (machine (κ := Unit) (α := Nat)).Reach Bounded (atInit 5) :=
    .init ⟨rfl, rfl, rfl, rfl, rfl⟩
  have hb : Bounded (atInit 5) (.schedule 5 2 () 9 : Action Unit Nat) := ⟨by simp, nofun⟩
  have h₁ := h₀.step hb rfl
  have h₂ := h₁.step (l := .pass) (show Bounded _ .pass from trivial) rfl
  have h₃ := h₂.step (l := .pass) (show Bounded _ .pass from trivial) rfl
  exact ⟨(timer_queue _ h₃).2.2.1 _ (by decide), rfl⟩

end Upnp.Timer
