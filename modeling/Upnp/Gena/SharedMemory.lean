import Upnp.Gena.Ordering

/-!
# The memory that the jobs of a broadcast share

The counter, the UDN, the service id, the headers and the property set of a broadcast
are shared by its jobs and freed together.  The eventing machine is run here with
an account of what is used and freed.
-/

namespace Upnp.Gena

open Upnp.Lib

/-! ## The account -/

/-- The account of the shared memory of the broadcasts, by the address of their counter. -/
structure Memory where
  /-- How far behind the beginning of its block the property set is that the jobs free. -/
  offset : Nat → Nat
  /-- How often the memory was freed. -/
  freed : Nat → Nat
  /-- Nothing was used after it was freed, and no block was freed behind its beginning. -/
  valid : Bool

namespace Memory

/-- The account of a library that was just initialised. -/
def initial : Memory := ⟨fun _ ↦ 0, fun _ ↦ 0, true⟩

/-- A section of `genaNotifyThread`, which uses the memory, and frees it with the counter. -/
def thread (m : Memory) (s s' : State) (input : NotifyThreadStruct) : Memory :=
  if s.counters input.referenceCount = none then { m with valid := false }
  else if s'.counters input.referenceCount = none then
    { m with
      freed := Function.update m.freed input.referenceCount (m.freed input.referenceCount + 1)
      valid := m.valid && m.offset input.referenceCount = 0 }
  else m

/-- A broadcast that was begun: without a job its memory is freed by the caller, from the
beginning of each block. -/
def create (m : Memory) (s s' : State) (offset : Nat) : Memory :=
  if s'.nextCounter = s.nextCounter then m
  else if s'.counters s.nextCounter = none then
    { m with freed := Function.update m.freed s.nextCounter (m.freed s.nextCounter + 1) }
  else { m with offset := Function.update m.offset s.nextCounter offset }

/-- A call of `genaInitNotifyExt` that fails after it has the property set frees it. -/
def release (m : Memory) (reached : Bool) (s s' : State) (offset : Nat) : Memory :=
  { m with valid := m.valid && (!reached || s'.nextCounter ≠ s.nextCounter || offset = 0) }

end Memory

/-- How far behind the beginning of the printed document its property set is. -/
def propertySetOffset (printed : Option CString) : Nat :=
  match documentPropertySet printed with
  | .ok propertySet => (printed.getD []).length - propertySet.length
  | .error _ => 0

/-- `genaInitNotify` gets as far as making the property set: the error of that step is seen. -/
def initReaches (env : InitEnv) (s : State) (h : Int) (udn servId sid : CString) : Bool :=
  (initNotify env (.error 1) s h udn servId sid).2 = 1

/-- What an action does to the memory, between the states before and behind it. -/
def Memory.act (m : Memory) (s s' : State) : Action → Memory
  | .genaInitNotify .. => m.create s s' 0
  | .genaInitNotifyExt env printed h udn servId sid =>
    (m.create s s' (propertySetOffset printed)).release (initReaches env s h udn servId sid) s s'
      (propertySetOffset printed)
  | .genaNotifyAll .. => m.create s s' 0
  | .genaNotifyAllExt _ printed .. => m.create s s' (propertySetOffset printed)
  | .check _ t => m.thread s s' t
  | .finish t .. => m.thread s s' t
  | _ => m

variable (samePath : CString → CString → Bool)

/-- The eventing machine with the account. -/
def memoryMachine : Machine (State × Memory) Action where
  init p := p.1.Initial ∧ (∀ a, p.1.counters a = none) ∧ p.1.nextCounter = 0 ∧ p.2 = .initial
  step p a := (step samePath p.1 a).map fun s' ↦ (s', p.2.act p.1 s' a)

/-- No job gets lost: `tpool_Schedule` queues the jobs of `genaNotifyAll` and those that are not
next, and a document's property set is where its text begins. -/
def Action.Queues : Action → Prop
  | .check env _ => env.schedule = 0
  | .genaInitNotifyExt _ printed .. => propertySetOffset printed = 0
  | .genaNotifyAll env .. => ∀ i, env.schedule i = 0
  | .genaNotifyAllExt env printed .. => (∀ i, env.schedule i = 0) ∧ propertySetOffset printed = 0
  | _ => True

/-! ## What the actions do to jobs and counters -/

/-- The jobs of a broadcast that are queued or running. -/
def State.jobsAt (s : State) (a : Nat) : Nat := s.pool.countP (·.thread.referenceCount = a)

variable {samePath : CString → CString → Bool} {s s' s₁ : State} {t : NotifyThreadStruct}

/-- Jobs and counters are the same. -/
structure SameJobs (s s' : State) : Prop where
  pool : s'.pool = s.pool
  counters : s'.counters = s.counters
  nextCounter : s'.nextCounter = s.nextCounter

theorem SameJobs.refl (s : State) : SameJobs s s := ⟨rfl, rfl, rfl⟩

theorem sameJobs_setService (l : Loc) (svc : ServiceInfo) : SameJobs s (s.setService l svc) :=
  ⟨rfl, rfl, rfl⟩

/-- A broadcast with its own counter and jobs. -/
structure Creates (s s' : State) (queued : List NotifyThreadStruct) : Prop where
  own : ∀ t ∈ queued, t.referenceCount = s.nextCounter
  pool : s'.pool = (queued.map fun t ↦ (⟨t, .queued⟩ : Job)) + s.pool
  counters : s'.counters =
    if queued.length = 0 then s.counters
    else Function.update s.counters s.nextCounter (some queued.length)
  nextCounter : s'.nextCounter = s.nextCounter + 1

/-- The check lets the job end, or go on. -/
theorem notifyThreadCheck_jobs {env : CheckEnv} (hsched : env.schedule = 0) :
    ∃ s₁, SameJobs s s₁ ∧ (notifyThreadCheck env s t = (freeNotifyStruct s₁ t, none) ∨
      ∃ p, notifyThreadCheck env s t = (s₁, some p)) := by
  rw [notifyThreadCheck]
  split
  · exact ⟨s, .refl s, .inl rfl⟩
  · split
    · exact ⟨s, .refl s, .inl rfl⟩
    · split
      · exact ⟨_, sameJobs_setService _ _, .inl rfl⟩
      · dsimp only
        split
        · exact ⟨_, sameJobs_setService _ _, .inl rfl⟩
        · split
          · exact ⟨_, sameJobs_setService _ _, .inr ⟨_, rfl⟩⟩
          · refine ⟨_, ?_, .inr ⟨_, rfl⟩⟩
            exact ⟨rfl, rfl, rfl⟩

theorem notifyThreadFinish_jobs (now return_code : Int) :
    ∃ s₁, SameJobs s s₁ ∧ notifyThreadFinish now return_code s t = freeNotifyStruct s₁ t := by
  rw [notifyThreadFinish]
  split
  · exact ⟨s, .refl s, rfl⟩
  · split
    · exact ⟨s, .refl s, rfl⟩
    · split
      · exact ⟨_, sameJobs_setService _ _, rfl⟩
      · exact ⟨_, sameJobs_setService _ _, rfl⟩

theorem initNotify_jobs (env : InitEnv) (propertySet : Except Int CString) (s : State) (h : Int)
    (udn servId sid : CString) :
    SameJobs s (initNotify env propertySet s h udn servId sid).1 ∨
      ∃ queued, Creates s (initNotify env propertySet s h udn servId sid).1 queued := by
  rw [initNotify.eq_def]
  split
  · exact .inl (.refl s)
  · split
    · exact .inl (.refl s)
    · split
      · exact .inl (.refl s)
      · split
        · exact .inl (sameJobs_setService _ _)
        · split
          · exact .inl (sameJobs_setService _ _)
          · dsimp only
            split
            · exact .inl (sameJobs_setService _ _)
            · split
              · exact .inl (sameJobs_setService _ _)
              · split
                · exact .inl ⟨rfl, rfl, rfl⟩
                · exact .inr ⟨[_], fun t ht ↦ by rw [List.mem_singleton.mp ht], rfl, rfl, rfl⟩

theorem broadcast_count {env : NotifyEnv} {mk : Subscription → NotifyThreadStruct}
    (hsched : ∀ i, env.schedule i = 0) {i : Nat} {subs : List Subscription} :
    (broadcast env mk i subs).count = (broadcast env mk i subs).queued.length := by
  induction subs generalizing i with
  | nil => rfl
  | cons finger rest ih =>
    rw [broadcast]
    split
    · exact ih
    · split
      · exact ih
      · split
        · rfl
        · dsimp only
          rw [if_neg (not_not_intro (hsched i))]
          exact congrArg (· + 1) ih

theorem notifyAll_jobs {env : NotifyEnv} (hsched : ∀ i, env.schedule i = 0)
    (propertySet : Except Int CString) (s : State) (h : Int) (udn servId : CString) :
    SameJobs s (notifyAll env propertySet s h udn servId).1 ∨
      ∃ queued, Creates s (notifyAll env propertySet s h udn servId).1 queued := by
  rw [notifyAll.eq_def]
  split
  · exact .inl (.refl s)
  · split
    · exact .inl (.refl s)
    · split
      · exact .inl (.refl s)
      · split
        · exact .inl (.refl s)
        · split
          · exact .inl (.refl s)
          · refine .inr ⟨_, ?_, rfl, ?_, rfl⟩
            · intro t ht
              obtain ⟨a, -, rfl⟩ := mem_broadcast_queued ht
              rfl
            · dsimp only
              rw [broadcast_count hsched]
              rfl

/-! ## The invariant -/

/-- Every counter is the number of its jobs and gone when there are none, the memory of a
broadcast without jobs was freed once, that of the others was not, and nothing went wrong. -/
structure Accounted (p : State × Memory) : Prop where
  counters : ∀ a, p.1.counters a = if p.1.jobsAt a = 0 then none else some (p.1.jobsAt a : Int)
  fresh : ∀ a, p.1.nextCounter ≤ a → p.1.jobsAt a = 0
  freed : ∀ a, p.2.freed a = if a < p.1.nextCounter ∧ p.1.jobsAt a = 0 then 1 else 0
  offset : ∀ a, p.2.offset a = 0
  valid : p.2.valid = true

variable {m : Memory} {a : Nat}

/-- The account reads the numbers of jobs only. -/
theorem Accounted.congr (h : Accounted (s, m)) (hjobs : ∀ a, s'.jobsAt a = s.jobsAt a)
    (hcounters : s'.counters = s.counters) (hnext : s'.nextCounter = s.nextCounter) :
    Accounted (s', m) := by
  refine ⟨fun a ↦ ?_, fun a ha ↦ ?_, fun a ↦ ?_, h.offset, h.valid⟩
  · rw [hjobs, hcounters]
    exact h.counters a
  · rw [hjobs]
    exact h.fresh a (hnext ▸ ha)
  · rw [hjobs, hnext]
    exact h.freed a

theorem SameJobs.jobsAt (hs : SameJobs s s') (a : Nat) : s'.jobsAt a = s.jobsAt a := by
  rw [State.jobsAt, hs.pool]
  rfl

theorem Accounted.same (h : Accounted (s, m)) (hs : SameJobs s s') : Accounted (s', m) :=
  h.congr hs.jobsAt hs.counters hs.nextCounter

theorem Creates.jobsAt {queued : List NotifyThreadStruct} (h : Creates s s' queued) (a : Nat) :
    s'.jobsAt a = (if a = s.nextCounter then queued.length else 0) + s.jobsAt a := by
  rw [State.jobsAt, h.pool, Multiset.countP_add, Multiset.coe_countP, List.countP_map, State.jobsAt]
  refine congrArg (· + _) ?_
  split
  · rename_i ha
    refine List.countP_eq_length.mpr fun t ht ↦ ?_
    exact decide_eq_true ((h.own t ht).trans ha.symm)
  · rename_i ha
    refine List.countP_eq_zero.mpr fun t ht ↦ ?_
    exact fun heq ↦ ha ((of_decide_eq_true heq).symm.trans (h.own t ht))

theorem Accounted.create {queued : List NotifyThreadStruct} (h : Accounted (s, m))
    (hs : Creates s s' queued) : Accounted (s', m.create s s' 0) := by
  have hnew : s.jobsAt s.nextCounter = 0 := h.fresh s.nextCounter le_rfl
  have hnext : s'.nextCounter ≠ s.nextCounter := by
    rw [hs.nextCounter]
    exact Nat.succ_ne_self _
  have hcounters : ∀ a, s'.counters a =
      if s'.jobsAt a = 0 then none else some (s'.jobsAt a : Int) := by
    intro a
    rw [hs.counters, hs.jobsAt]
    by_cases hzero : queued.length = 0
    · rw [if_pos hzero, hzero, ite_self, Nat.zero_add]
      exact h.counters a
    · rw [if_neg hzero]
      by_cases ha : a = s.nextCounter
      · rw [ha, Function.update_self, if_pos rfl, hnew, Nat.add_zero, if_neg hzero]
      · rw [Function.update_of_ne ha, if_neg ha, Nat.zero_add]
        exact h.counters a
  have hfresh : ∀ a, s'.nextCounter ≤ a → s'.jobsAt a = 0 := by
    intro a ha
    rw [hs.nextCounter] at ha
    rw [hs.jobsAt, if_neg (Nat.ne_of_gt ha), h.fresh a (Nat.le_of_succ_le ha)]
  have hlt : ∀ a, a ≠ s.nextCounter → (a < s'.nextCounter ↔ a < s.nextCounter) := by
    intro a ha
    rw [hs.nextCounter]
    omega
  have hother : ∀ a, a ≠ s.nextCounter → m.freed a =
      if a < s'.nextCounter ∧ s'.jobsAt a = 0 then 1 else 0 := by
    intro a ha
    rw [hs.jobsAt, if_neg ha, Nat.zero_add, h.freed a]
    simp only [hlt a ha]
  have hunfreed : m.freed s.nextCounter = 0 :=
    (h.freed _).trans (if_neg fun hlt ↦ Nat.lt_irrefl _ hlt.1)
  rw [Memory.create, if_neg hnext]
  split
  · rename_i hnone
    refine ⟨hcounters, hfresh, fun a ↦ ?_, h.offset, h.valid⟩
    dsimp only
    by_cases ha : a = s.nextCounter
    · rw [hcounters] at hnone
      have hzero : s'.jobsAt s.nextCounter = 0 := by
        by_contra hne
        rw [if_neg hne] at hnone
        cases hnone
      rw [ha, Function.update_self, hunfreed, if_pos ⟨hs.nextCounter ▸ Nat.lt_succ_self _, hzero⟩]
    · rw [Function.update_of_ne ha]
      exact hother a ha
  · rename_i hsome
    refine ⟨hcounters, hfresh, fun a ↦ ?_, fun a ↦ ?_, h.valid⟩
    · dsimp only
      by_cases ha : a = s.nextCounter
      · rw [hcounters] at hsome
        rw [ha, hunfreed, if_neg fun hzero ↦ hsome (if_pos hzero.2)]
      · exact hother a ha
    · dsimp only
      by_cases ha : a = s.nextCounter
      · rw [ha, Function.update_self]
      · rw [Function.update_of_ne ha]
        exact h.offset a

theorem State.jobsAt_take {j : Job} (hj : j ∈ s.pool) (a : Nat) :
    s.jobsAt a = (s.take j).jobsAt a + if j.thread.referenceCount = a then 1 else 0 := by
  rw [State.jobsAt, ← Multiset.cons_erase hj, Multiset.countP_cons]
  rfl

theorem State.jobsAt_ne_zero {p : Phase} (hj : ⟨t, p⟩ ∈ s.pool) :
    s.jobsAt t.referenceCount ≠ 0 := by
  rw [State.jobsAt_take hj, if_pos rfl]
  exact Nat.succ_ne_zero _

/-- A job that goes on to another phase. -/
theorem State.jobsAt_put {p p' : Phase} (hj : ⟨t, p⟩ ∈ s.pool)
    (hs : SameJobs (s.take ⟨t, p⟩) s₁) (a : Nat) : (s₁.put t (some p')).jobsAt a = s.jobsAt a := by
  rw [State.jobsAt_take hj, ← hs.jobsAt, State.jobsAt]
  exact Multiset.countP_cons ..

/-- The counter of a job that is there. -/
theorem Accounted.counter (h : Accounted (s, m)) {p : Phase} (hj : ⟨t, p⟩ ∈ s.pool) :
    s.counters t.referenceCount = some ((s.take ⟨t, p⟩).jobsAt t.referenceCount + 1 : Int) := by
  have hjobs := s.jobsAt_take hj t.referenceCount
  rw [if_pos rfl] at hjobs
  rw [h.counters, hjobs, if_neg (Nat.succ_ne_zero _)]
  rfl

theorem Accounted.lt_nextCounter (h : Accounted (s, m)) (ha : s.jobsAt a ≠ 0) :
    a < s.nextCounter := by
  by_contra hge
  exact ha (h.fresh a (not_lt.mp hge))

/-- The memory of a broadcast that has jobs is not freed. -/
theorem Accounted.unfreed (h : Accounted (s, m)) (ha : s.jobsAt a ≠ 0) : m.freed a = 0 :=
  (h.freed a).trans (if_neg fun hzero ↦ ha hzero.2)

/-- A job that goes on keeps the memory. -/
theorem Accounted.move (h : Accounted (s, m)) {p p' : Phase} (hj : ⟨t, p⟩ ∈ s.pool)
    (hs : SameJobs (s.take ⟨t, p⟩) s₁) :
    Accounted (s₁.put t (some p'), m.thread s (s₁.put t (some p')) t) := by
  have hsame : (s₁.put t (some p')).counters = s.counters := hs.counters
  rw [Memory.thread, hsame, h.counter hj, if_neg (Option.some_ne_none _),
    if_neg (Option.some_ne_none _)]
  exact h.congr (State.jobsAt_put hj hs) hsame hs.nextCounter

theorem jobsAt_of_ne {p : Phase} (hj : ⟨t, p⟩ ∈ s.pool) (hs : SameJobs (s.take ⟨t, p⟩) s₁)
    (ha : a ≠ t.referenceCount) : s₁.jobsAt a = s.jobsAt a := by
  rw [hs.jobsAt, State.jobsAt_take hj, if_neg fun heq ↦ ha heq.symm, Nat.add_zero]

theorem State.freeNotifyStruct_jobsAt (s : State) (t : NotifyThreadStruct) (a : Nat) :
    (freeNotifyStruct s t).jobsAt a = s.jobsAt a := by
  rw [State.jobsAt, State.freeNotifyStruct_pool]
  rfl

/-- The counter is one less, and gone when no job is left. -/
theorem Accounted.freeNotifyStruct_eq (h : Accounted (s, m)) {p : Phase} (hj : ⟨t, p⟩ ∈ s.pool)
    (hs : SameJobs (s.take ⟨t, p⟩) s₁) :
    freeNotifyStruct s₁ t = { s₁ with
      counters := Function.update s.counters t.referenceCount
        (if (s₁.jobsAt t.referenceCount) = 0 then none
          else some (s₁.jobsAt t.referenceCount : Int)) } := by
  have hcounters : s₁.counters = s.counters := hs.counters
  rw [freeNotifyStruct, hcounters, h.counter hj, hs.jobsAt]
  dsimp only
  rw [Int.add_sub_cancel]
  simp only [Int.natCast_eq_zero]

theorem Accounted.freeNotifyStruct_counters (h : Accounted (s, m)) {p : Phase}
    (hj : ⟨t, p⟩ ∈ s.pool) (hs : SameJobs (s.take ⟨t, p⟩) s₁) (a : Nat) :
    (freeNotifyStruct s₁ t).counters a =
      if s₁.jobsAt a = 0 then none else some (s₁.jobsAt a : Int) := by
  rw [h.freeNotifyStruct_eq hj hs]
  dsimp only
  by_cases ha : a = t.referenceCount
  · rw [ha, Function.update_self]
  · rw [Function.update_of_ne ha, jobsAt_of_ne hj hs ha]
    exact h.counters a

/-- A job that ends frees the memory when it is the last one. -/
theorem Accounted.finish (h : Accounted (s, m)) {p : Phase} (hj : ⟨t, p⟩ ∈ s.pool)
    (hs : SameJobs (s.take ⟨t, p⟩) s₁) :
    Accounted (freeNotifyStruct s₁ t, m.thread s (freeNotifyStruct s₁ t) t) := by
  have hjobs := State.jobsAt_ne_zero hj
  have hbound := h.lt_nextCounter hjobs
  have hunfreed := h.unfreed hjobs
  have hnext : (freeNotifyStruct s₁ t).nextCounter = s.nextCounter := by
    rw [h.freeNotifyStruct_eq hj hs]
    exact hs.nextCounter
  have hcounters : ∀ a, (freeNotifyStruct s₁ t).counters a =
      if (freeNotifyStruct s₁ t).jobsAt a = 0 then none
        else some ((freeNotifyStruct s₁ t).jobsAt a : Int) := by
    intro a
    rw [State.freeNotifyStruct_jobsAt]
    exact h.freeNotifyStruct_counters hj hs a
  have hfresh : ∀ a, (freeNotifyStruct s₁ t).nextCounter ≤ a →
      (freeNotifyStruct s₁ t).jobsAt a = 0 := by
    intro a ha
    rw [hnext] at ha
    rw [State.freeNotifyStruct_jobsAt, jobsAt_of_ne hj hs (Nat.ne_of_gt (hbound.trans_le ha))]
    exact h.fresh a ha
  rw [Memory.thread, h.counter hj, if_neg (Option.some_ne_none _),
    h.freeNotifyStruct_counters hj hs]
  by_cases hlast : s₁.jobsAt t.referenceCount = 0
  · rw [if_pos (if_pos hlast)]
    refine ⟨hcounters, hfresh, fun a ↦ ?_, h.offset, ?_⟩
    · rw [State.freeNotifyStruct_jobsAt, hnext]
      dsimp only
      by_cases ha : a = t.referenceCount
      · rw [ha, Function.update_self, hunfreed, if_pos ⟨hbound, hlast⟩]
      · rw [Function.update_of_ne ha, jobsAt_of_ne hj hs ha]
        exact h.freed a
    · dsimp only
      rw [h.valid, h.offset]
      rfl
  · rw [if_neg (by rw [if_neg hlast]; exact Option.some_ne_none _)]
    refine ⟨hcounters, hfresh, fun a ↦ ?_, h.offset, h.valid⟩
    rw [State.freeNotifyStruct_jobsAt, hnext]
    by_cases ha : a = t.referenceCount
    · rw [ha, hunfreed, if_neg fun hzero ↦ hlast hzero.2]
    · rw [jobsAt_of_ne hj hs ha]
      exact h.freed a

/-! ## Every action -/

theorem requests_sameJobs (env : RequestEnv) (request : HttpRequest) (uninit : CString) :
    SameJobs s (genaSubscriptionRequest samePath env s request).1 ∧
      SameJobs s (genaRenewRequest samePath env s request uninit).1 ∧
      SameJobs s (genaUnsubscribeRequest samePath env s request uninit).1 := by
  refine ⟨?_, ?_, ?_⟩
  · rcases genaSubscriptionRequest_cases env s request with
      h | ⟨l, svc, sub, -, -, -, -, h | h⟩
    · rw [h]
      exact .refl s
    · rw [h]
      exact ⟨rfl, rfl, rfl⟩
    · rw [h]
      exact ⟨rfl, rfl, rfl⟩
  · rcases genaRenewRequest_cases env s request uninit with
      h | ⟨l, svc, sid, -, h | ⟨sub, -, -, expireTime, h⟩⟩
    · rw [h]
      exact .refl s
    · rw [h]
      exact sameJobs_setService _ _
    · rw [h]
      exact sameJobs_setService _ _
  · rcases genaUnsubscribeRequest_cases env s request uninit with h | ⟨l, svc, sid, -, h⟩
    · rw [h]
      exact .refl s
    · rw [h]
      exact sameJobs_setService _ _

theorem Accounted.issue (h : Accounted (s, m))
    (hs : SameJobs s s' ∨ ∃ queued, Creates s s' queued) : Accounted (s', m.create s s' 0) := by
  rcases hs with hs | ⟨queued, hs⟩
  · rw [Memory.create, if_pos hs.nextCounter]
    exact h.same hs
  · exact h.create hs

theorem Accounted.release (h : Accounted (s, m)) (reached : Bool) (s₁ s₂ : State) :
    Accounted (s, m.release reached s₁ s₂ 0) :=
  ⟨h.counters, h.fresh, h.freed, h.offset, by
    rw [Memory.release, h.valid, decide_eq_true rfl, Bool.or_true]
    rfl⟩

/-- Every action that loses no job keeps the account. -/
theorem Accounted.step {b : Action} (h : Accounted (s, m)) (hq : b.Queues)
    (hstep : step samePath s b = some s') : Accounted (s', m.act s s' b) := by
  cases b with
  | register k info =>
    rw [Gena.step] at hstep
    split at hstep
    · rw [← Option.some.inj hstep]
      exact h.same ⟨rfl, rfl, rfl⟩
    · cases hstep
  | genaUnregisterDevice k =>
    rw [← Option.some.inj hstep, Gena.genaUnregisterDevice]
    split
    · exact h
    · exact h.same ⟨rfl, rfl, rfl⟩
  | freeHandle k =>
    rw [← Option.some.inj hstep]
    exact h.same ⟨rfl, rfl, rfl⟩
  | setMaxSubscriptions k max =>
    rw [← Option.some.inj hstep, Gena.setMaxSubscriptions]
    split
    · exact h
    · split
      · exact h
      · exact h.same ⟨rfl, rfl, rfl⟩
  | subscribe env request =>
    rw [Gena.step] at hstep
    split at hstep
    · cases hstep
    · rw [← Option.some.inj hstep]
      exact h.same (requests_sameJobs env request []).1
  | renew env request uninit =>
    rw [← Option.some.inj hstep]
    exact h.same (requests_sameJobs env request uninit).2.1
  | unsubscribe env request uninit =>
    rw [← Option.some.inj hstep]
    exact h.same (requests_sameJobs env request uninit).2.2
  | genaInitNotify env vars k udn servId sid =>
    rw [← Option.some.inj hstep]
    exact h.issue (initNotify_jobs env _ s k udn servId sid)
  | genaInitNotifyExt env printed k udn servId sid =>
    rw [← Option.some.inj hstep, Memory.act, (hq : propertySetOffset printed = 0)]
    exact (h.issue (initNotify_jobs env _ s k udn servId sid)).release _ _ _
  | genaNotifyAll env vars k udn servId =>
    rw [← Option.some.inj hstep]
    exact h.issue (notifyAll_jobs hq _ s k udn servId)
  | genaNotifyAllExt env printed k udn servId =>
    rw [← Option.some.inj hstep, Memory.act, hq.2]
    exact h.issue (notifyAll_jobs hq.1 _ s k udn servId)
  | start t =>
    rw [Gena.step] at hstep
    split at hstep
    · rename_i hj
      rw [← Option.some.inj hstep]
      exact h.congr (State.jobsAt_put hj (.refl _)) rfl rfl
    · cases hstep
  | check env t =>
    rw [Gena.step] at hstep
    split at hstep
    · rename_i hj
      obtain ⟨s₁, hs, hcheck | ⟨p, hcheck⟩⟩ :=
        @notifyThreadCheck_jobs (s.take ⟨t, .running⟩) t env hq
      · rw [hcheck] at hstep
        rw [← Option.some.inj hstep]
        exact h.finish hj hs
      · rw [hcheck] at hstep
        rw [← Option.some.inj hstep]
        exact h.move hj hs
    · cases hstep
  | finish t sub_copy now return_code =>
    rw [Gena.step] at hstep
    split at hstep
    · rename_i hj
      rw [← Option.some.inj hstep]
      obtain ⟨s₁, hs, hfinish⟩ :=
        @notifyThreadFinish_jobs (s.take ⟨t, .sending sub_copy⟩) t now return_code
      rw [hfinish]
      exact h.finish hj hs
    · cases hstep

theorem accounted_inductive :
    (memoryMachine samePath).Inductive (fun _ b ↦ b.Queues) Accounted where
  init := by
    rintro ⟨s, m⟩ ⟨⟨-, hpool, -, -⟩, hcounters, hnext, rfl⟩
    have hjobs : ∀ a, s.jobsAt a = 0 := fun a ↦ by rw [State.jobsAt, hpool, Multiset.countP_zero]
    refine ⟨fun a ↦ ?_, fun a _ ↦ hjobs a, fun a ↦ ?_, fun _ ↦ rfl, rfl⟩
    · rw [hjobs, if_pos rfl]
      exact hcounters a
    · dsimp only
      rw [hnext]
      exact (if_neg fun hlt ↦ Nat.not_lt_zero _ hlt.1).symm
  step := by
    rintro ⟨s, m⟩ b p h hq hstep
    obtain ⟨s', hs', rfl⟩ := Option.map_eq_some_iff.mp hstep
    exact h.step hq hs'

/-- While no job gets lost, the reference counts are right and the shared memory is freed once. -/
theorem broadcast_reference_count {p : State × Memory}
    (h : (memoryMachine samePath).Reach (fun _ b ↦ b.Queues) p) : Accounted p :=
  h.invariant accounted_inductive

/-- A registered device with one subscription, whose first event is queued. -/
theorem reach_lamp_memory {ok : State × Memory → Action → Prop} {p₁ p₂ p₃ : State × Memory}
    (h₁ : (memoryMachine (· == ·)).step (.empty, .initial) lampRegister = some p₁)
    (h₂ : (memoryMachine (· == ·)).step p₁ lampSubscribe = some p₂)
    (h₃ : (memoryMachine (· == ·)).step p₂ (lampNotify 0) = some p₃)
    (hok : ∀ p, ok p lampRegister ∧ ok p lampSubscribe ∧ ok p (lampNotify 0)) :
    (memoryMachine (· == ·)).Reach ok p₃ := by
  have hinit : (memoryMachine (· == ·)).Reach ok (.empty, .initial) :=
    .init ⟨State.initial_empty, fun _ ↦ rfl, rfl, rfl⟩
  exact ((hinit.step (hok _).1 h₁).step (hok _).2.1 h₂).step (hok _).2.2 h₃

theorem broadcast_reference_count_lamp :
    ∃ p : State × Memory, p.1.jobsAt 0 = 1 ∧ Accounted p := by
  have hreach := @reach_lamp_memory (fun _ b ↦ b.Queues) _ _ _ rfl rfl rfl
    fun _ ↦ ⟨trivial, trivial, trivial⟩
  exact ⟨_, by decide +kernel, broadcast_reference_count hreach⟩

/-- A broadcast to the one subscription, whose job is not queued. -/
def lampBroadcast : Action :=
  .genaNotifyAll ⟨true, true, true, fun _ ↦ 0, fun _ ↦ true, fun _ ↦ -1⟩ [] 1 "uuid:lamp".toList
    "power".toList

/-- The count stays at one, and nothing will free the memory. -/
theorem broadcast_leaks : ¬ ∀ p, (memoryMachine (· == ·)).Reachable p → Accounted p := by
  intro h
  have hreach := @reach_lamp_memory (fun _ _ ↦ True) _ _ _ rfl rfl rfl
    fun _ ↦ ⟨trivial, trivial, trivial⟩
  have hcounters := (h _ (hreach.step (l := lampBroadcast) trivial rfl)).counters 1
  revert hcounters
  decide +kernel

end Upnp.Gena
