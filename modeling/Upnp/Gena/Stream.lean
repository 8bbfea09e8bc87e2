import Mathlib.Data.Multiset.MapFold
import Mathlib.Data.Multiset.Count
import Mathlib.Data.Multiset.UnionInter
import Mathlib.Data.List.Range
import Upnp.Gena.Keys

/-!
# The event stream of one subscription

What the eventing machine is for, seen from one subscription: events are
numbered as they are issued, each is carried by one job until it is sent, and
they are sent in their order.  `Stream a jobs sent m k` says that `m` events
were sent completely and the next `k` are pending, in terms of the counters of
the subscription `a`, of the jobs that carry its SID and of the keys under which
sends were begun.

The lemmas are the moves the machine makes.
-/

namespace Upnp.Gena

/-- The key of the event that a job carries. -/
def Job.key (j : Job) : Int := j.thread.eventKey

/-- The job is between its key check and the update of `ToSendEventKey`. -/
def Job.isSending (j : Job) : Bool :=
  match j.phase with
  | .sending _ => true
  | _ => false

@[simp] theorem Job.key_mk (t : NotifyThreadStruct) (p : Phase) :
    Job.key ⟨t, p⟩ = t.eventKey := rfl

@[simp] theorem Job.isSending_queued (t : NotifyThreadStruct) :
    Job.isSending ⟨t, .queued⟩ = false := rfl

@[simp] theorem Job.isSending_running (t : NotifyThreadStruct) :
    Job.isSending ⟨t, .running⟩ = false := rfl

@[simp] theorem Job.isSending_sending (t : NotifyThreadStruct) (sub : Subscription) :
    Job.isSending ⟨t, .sending sub⟩ = true := rfl

/-- The stream of a subscription with `m` events sent and the next `k` pending. -/
structure Stream (a : Subscription) (jobs : Multiset Job) (sent : List Int) (m k : Nat) :
    Prop where
  /-- `ToSendEventKey` is the key of the first pending event. -/
  next : a.toSendEventKey = keyAt m
  /-- `eventKey` is the key of the event after the last pending one. -/
  last : a.eventKey = keyAt (m + k)
  /-- Nothing is issued before the initial notification. -/
  idle : a.active = false → m + k = 0
  /-- The jobs carry the pending events. -/
  keys : jobs.map Job.key = ((List.range' m k).map keyAt : List Int)
  /-- No two of them carry one key. -/
  nodup : (jobs.map Job.key).Nodup
  /-- A job that is sending carries the first pending event. -/
  current : ∀ j ∈ jobs, j.isSending → j.key = keyAt m
  /-- Sends were begun in the order of the keys. -/
  order : sent = (List.range (m + jobs.countP (·.isSending))).map keyAt

namespace Stream

variable {a : Subscription} {jobs rest : Multiset Job} {sent : List Int} {m k : Nat}

/-- A new subscription. -/
theorem new (hn : a.toSendEventKey = 0) (hl : a.eventKey = 0) : Stream a 0 [] 0 0 where
  next := hn
  last := hl
  idle _ := rfl
  keys := rfl
  nodup := by simp
  current := by simp
  order := rfl

/-- The stream reads only the counters and the activity of the subscription. -/
theorem congr {a' : Subscription} (h : Stream a jobs sent m k)
    (hn : a'.toSendEventKey = a.toSendEventKey) (hl : a'.eventKey = a.eventKey)
    (ha : a.active = true → a'.active = true) : Stream a' jobs sent m k where
  next := hn.trans h.next
  last := hl.trans h.last
  idle hi := h.idle (by by_contra hc; simp [ha (by simpa using hc)] at hi)
  keys := h.keys
  nodup := h.nodup
  current := h.current
  order := h.order

/-- The number of jobs is the number of pending events. -/
theorem card (h : Stream a jobs sent m k) : jobs.card = k := by
  have := congrArg Multiset.card h.keys
  simpa using this

/-- Besides a job at the key `ToSendEventKey` there is no other that is sending. -/
theorem not_isSending (h : Stream a (j ::ₘ rest) sent m k) (hj : j.key = keyAt m) :
    ∀ j' ∈ rest, ¬ j'.isSending := by
  intro j' hj' hs
  have hk : j'.key = j.key := (h.current j' (by simp [hj']) hs).trans hj.symm
  have hnd := h.nodup
  rw [Multiset.map_cons, Multiset.nodup_cons] at hnd
  exact hnd.1 (hk ▸ Multiset.mem_map_of_mem _ hj')

/-- No job of the rest is counted as sending. -/
theorem countP_rest (h : Stream a (j ::ₘ rest) sent m k) (hj : j.key = keyAt m) :
    rest.countP (·.isSending) = 0 :=
  Multiset.countP_eq_zero.mpr (h.not_isSending hj)

/-- At most one job is sending. -/
theorem countP_isSending_le (h : Stream a jobs sent m k) : jobs.countP (·.isSending) ≤ 1 := by
  by_contra hlt
  have hpos : 0 < jobs.countP (·.isSending) := by omega
  obtain ⟨j, hj, hjs⟩ := Multiset.countP_pos.mp hpos
  obtain ⟨rest, rfl⟩ := Multiset.exists_cons_of_mem hj
  have hone := Multiset.countP_cons_of_pos (p := fun j : Job ↦ j.isSending = true) rest hjs
  rw [hone, h.countP_rest (h.current j hj hjs)] at hlt
  omega

/-- A job changes its place, but neither begins nor ends to send. -/
theorem move {j j' : Job} (h : Stream a (j ::ₘ rest) sent m k) (hk : j'.key = j.key)
    (hj : j.isSending = false) (hj' : j'.isSending = false) :
    Stream a (j' ::ₘ rest) sent m k where
  next := h.next
  last := h.last
  idle := h.idle
  keys := by rw [← h.keys]; simp [hk]
  nodup := by simpa [hk] using h.nodup
  current i hi hs := by
    rcases Multiset.mem_cons.mp hi with rfl | hi
    · simp [hj'] at hs
    · exact h.current i (by simp [hi]) hs
  order := by
    rw [h.order, Multiset.countP_cons_of_neg _ (by simp [hj]),
      Multiset.countP_cons_of_neg _ (by simp [hj'])]

/-- The job whose turn it is begins to send. -/
theorem startSend {j j' : Job} (h : Stream a (j ::ₘ rest) sent m k) (hk : j'.key = j.key)
    (hj : j.isSending = false) (hj' : j'.isSending = true) (hturn : j.key = a.toSendEventKey) :
    Stream a (j' ::ₘ rest) (sent ++ [a.toSendEventKey]) m k := by
  have hm : j.key = keyAt m := hturn.trans h.next
  have hrest := h.countP_rest hm
  exact {
    next := h.next
    last := h.last
    idle := h.idle
    keys := by rw [← h.keys]; simp [hk]
    nodup := by simpa [hk] using h.nodup
    current := by
      intro i hi hs
      rcases Multiset.mem_cons.mp hi with rfl | hi
      · exact hk.trans hm
      · exact absurd hs (h.not_isSending hm i hi)
    order := by
      rw [Multiset.countP_cons_of_pos _ (by simpa using hj'), hrest, h.order,
        Multiset.countP_cons_of_neg _ (by simp [hj]), hrest, h.next]
      simp [List.range_succ] }

/-- The job that was sending is done, and the next event's turn comes. -/
theorem finish {j : Job} {a' : Subscription} (h : Stream a (j ::ₘ rest) sent m k)
    (hj : j.isSending = true) (hn : a'.toSendEventKey = bumpKey a.toSendEventKey)
    (hl : a'.eventKey = a.eventKey) (ha : a'.active = a.active) :
    ∃ k', k = k' + 1 ∧ Stream a' rest sent (m + 1) k' := by
  have hm : j.key = keyAt m := h.current j (by simp) hj
  have hrest := h.countP_rest hm
  obtain ⟨k', rfl⟩ : ∃ k', k = k' + 1 := ⟨rest.card, by rw [← h.card]; simp⟩
  refine ⟨k', rfl, ?_⟩
  have hkeys : rest.map Job.key = ((List.range' (m + 1) k').map keyAt : List Int) := by
    have := h.keys
    rw [List.range'_succ, List.map_cons, ← Multiset.cons_coe, Multiset.map_cons, hm] at this
    exact (Multiset.cons_inj_right _).mp this
  exact {
    next := by rw [hn, h.next, keyAt_succ]
    last := by rw [hl, h.last, Nat.add_assoc, Nat.add_comm 1]
    idle := fun hi ↦ by
      have := h.idle (ha ▸ hi)
      omega
    keys := hkeys
    nodup := by
      have := h.nodup
      rw [Multiset.map_cons, Multiset.nodup_cons] at this
      exact this.2
    current := fun i hi hs ↦ absurd hs (h.not_isSending hm i hi)
    order := by rw [h.order, Multiset.countP_cons_of_pos _ (by simpa using hj), hrest] }

/-- An event is issued under a key that no pending job carries. -/
theorem issue {j : Job} {a' : Subscription} (h : Stream a jobs sent m k)
    (hj : j.isSending = false) (hk : j.key = a.eventKey)
    (hfresh : a.eventKey ∉ jobs.map Job.key) (hn : a'.toSendEventKey = a.toSendEventKey)
    (hl : a'.eventKey = bumpKey a.eventKey) (ha : a'.active = true) :
    Stream a' (j ::ₘ jobs) sent m (k + 1) where
  next := hn.trans h.next
  last := by rw [hl, h.last, ← Nat.add_assoc, keyAt_succ]
  idle hi := by simp [ha] at hi
  keys := by
    rw [Multiset.map_cons, h.keys, hk, h.last, List.range'_concat, List.map_append,
      Multiset.cons_coe, Multiset.coe_eq_coe]
    simpa using (List.perm_append_singleton _ _).symm
  nodup := by
    rw [Multiset.map_cons, Multiset.nodup_cons, hk]
    exact ⟨hfresh, h.nodup⟩
  current i hi hs := by
    rcases Multiset.mem_cons.mp hi with rfl | hi
    · simp [hj] at hs
    · exact h.current i hi hs
  order := by rw [h.order, Multiset.countP_cons_of_neg _ (by simp [hj])]

/-- Less than a cycle of pending events leaves the next key free. -/
theorem eventKey_notMem (h : Stream a jobs sent m k) (hlt : k < keyPeriod) :
    a.eventKey ∉ jobs.map Job.key := by
  rw [h.keys, h.last]
  simp only [Multiset.mem_coe, List.mem_map, List.mem_range'_1, not_exists, not_and]
  rintro i ⟨hm, hi⟩ heq
  have := keyAt_inj (by omega) (by omega) heq
  omega

/-- The pending keys cover the cyclic interval from `ToSendEventKey` to `eventKey`. -/
theorem exists_job (h : Stream a jobs sent m k) {key : Int}
    (hkey : key ∈ cyclicInterval a.toSendEventKey a.eventKey) : ∃ j ∈ jobs, j.key = key := by
  rw [h.next, h.last] at hkey
  obtain ⟨i, hm, hi, rfl⟩ := exists_of_mem_cyclicInterval (by omega) hkey
  have : keyAt i ∈ jobs.map Job.key := by
    rw [h.keys]
    simpa using ⟨i, ⟨hm, hi⟩, rfl⟩
  simpa using this

/-- Less than a cycle of pending events: their keys are exactly the cyclic interval. -/
theorem mem_keys_iff (h : Stream a jobs sent m k) (hlt : k < keyPeriod) (key : Int) :
    (∃ j ∈ jobs, j.key = key) ↔ key ∈ cyclicInterval a.toSendEventKey a.eventKey := by
  rw [h.next, h.last, mem_cyclicInterval_iff (by omega) (by omega)]
  have : (∃ j ∈ jobs, j.key = key) ↔ key ∈ jobs.map Job.key := by simp
  rw [this, h.keys]
  simp [List.mem_range'_1, and_assoc, eq_comm]

end Stream

end Upnp.Gena
