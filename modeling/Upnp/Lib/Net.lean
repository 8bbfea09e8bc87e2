import Mathlib.Data.List.Basic

/-!
# Byte streams cut into receives

A connection is what the receiving side will see of it: segments of bytes, each
of which one or more calls of `recv` take from the front, and calls that fail.
The end of the list is the peer's close.  `received` forgets how the bytes before
the first failure are cut.
-/

namespace Upnp.Lib

/-- What arrives next on a connection. -/
inductive Arrival where
  /-- Bytes that become readable together. -/
  | segment (bytes : List Char)
  /-- The next call fails or times out. -/
  | failure
deriving DecidableEq, Repr

/-- The rest of a connection. -/
abbrev Net := List Arrival

/-- The result of one receive. -/
inductive Recv where
  | bytes (b : List Char)
  | closed
  | failed
deriving DecidableEq, Repr

namespace Net

/-- `recv` of at most `count` bytes. -/
def recv (count : Nat) : Net → Recv × Net
  | [] => (.closed, [])
  | .failure :: rest => (.failed, rest)
  | .segment [] :: rest => recv count rest
  | .segment (b :: bs) :: rest =>
    (.bytes ((b :: bs).take count), .segment ((b :: bs).drop count) :: rest)

/-- The bytes that arrive before the first failure. -/
def received : Net → List Char
  | [] => []
  | .failure :: _ => []
  | .segment bs :: rest => bs ++ received rest

/-- The number of bytes that arrive at all. -/
def size : Net → Nat
  | [] => 0
  | .failure :: rest => size rest
  | .segment bs :: rest => bs.length + size rest

/-- No receive fails. -/
def Quiet (n : Net) : Prop := .failure ∉ n

variable {count : Nat} {n n' : Net} {bs : List Char}

/-- What a receive does: the peer has closed, the call fails, or the front of the next bytes is
taken. -/
theorem recv_cases (count : Nat) (n : Net) :
    (n.recv count = (.closed, []) ∧ n.received = [] ∧ n.size = 0) ∨
      (∃ rest : Net, n.recv count = (.failed, rest) ∧ n.received = [] ∧ n.size = rest.size ∧
        ¬ n.Quiet) ∨
      ∃ (s : List Char) (rest : Net), s ≠ [] ∧
        n.recv count = (.bytes (s.take count), .segment (s.drop count) :: rest) ∧
        n.received = s ++ rest.received ∧ n.size = s.length + rest.size ∧
        (n.Quiet → rest.Quiet) := by
  induction n with
  | nil => exact .inl ⟨rfl, rfl, rfl⟩
  | cons a rest ih =>
    cases a with
    | failure => exact .inr (.inl ⟨rest, rfl, rfl, rfl, fun h ↦ h List.mem_cons_self⟩)
    | segment s =>
      cases s with
      | nil =>
        have hquiet : Quiet (.segment [] :: rest) ↔ Quiet rest := by simp [Quiet]
        rw [recv, received, size, hquiet, List.nil_append, List.length_nil, Nat.zero_add]
        exact ih
      | cons b s =>
        exact .inr (.inr ⟨b :: s, rest, List.cons_ne_nil b s, rfl, rfl, rfl,
          fun h hmem ↦ h (List.mem_cons_of_mem _ hmem)⟩)

/-- A receive of bytes. -/
theorem of_recv_bytes (h : n.recv count = (.bytes bs, n')) :
    ∃ (s : List Char) (rest : Net), s ≠ [] ∧ bs = s.take count ∧
      n' = .segment (s.drop count) :: rest ∧ n.received = s ++ rest.received ∧
      n.size = s.length + rest.size := by
  obtain ⟨heq, -⟩ | ⟨rest, heq, -⟩ | ⟨s, rest, hne, heq, hreceived, hsize, -⟩ := recv_cases count n
  · rw [h] at heq
    cases heq
  · rw [h] at heq
    cases heq
  · rw [h] at heq
    cases heq
    exact ⟨s, rest, hne, rfl, rfl, hreceived, hsize⟩

/-- What a receive takes is the front of what is received, up to `count` bytes. -/
theorem received_of_recv_bytes (h : n.recv count = (.bytes bs, n')) :
    n.received = bs ++ n'.received ∧ bs.length ≤ count := by
  obtain ⟨s, rest, -, rfl, rfl, hreceived, -⟩ := of_recv_bytes h
  constructor
  · rw [hreceived, received, ← List.append_assoc, List.take_append_drop]
  · exact List.length_take_le ..

/-- A receive of something takes it away. -/
theorem size_of_recv_bytes (h : n.recv count = (.bytes bs, n')) :
    n.size = bs.length + n'.size := by
  obtain ⟨s, rest, -, rfl, rfl, -, hsize⟩ := of_recv_bytes h
  rw [hsize, size, List.length_take, List.length_drop]
  omega

/-- A receive of at least one byte takes at least one. -/
theorem ne_nil_of_recv_bytes (h : n.recv count = (.bytes bs, n')) (hc : 0 < count) : bs ≠ [] := by
  obtain ⟨s, rest, hne, rfl, -⟩ := of_recv_bytes h
  intro hnil
  exact (List.take_eq_nil_iff.mp hnil).elim (Nat.ne_of_gt hc) hne

theorem size_recv_le (count : Nat) (n : Net) : (n.recv count).2.size ≤ n.size := by
  obtain ⟨heq, -⟩ | ⟨rest, heq, -, hsize, -⟩ | ⟨s, rest, -, heq, -, hsize, -⟩ := recv_cases count n
  · rw [heq]
    exact Nat.zero_le _
  · rw [heq]
    exact Nat.le_of_eq hsize.symm
  · rw [heq, hsize, size, List.length_drop]
    omega

/-- The peer has closed: nothing more is received. -/
theorem of_recv_closed (h : n.recv count = (.closed, n')) :
    n.received = [] ∧ n.size = 0 ∧ n' = [] := by
  obtain ⟨heq, hreceived, hsize⟩ | ⟨rest, heq, -⟩ | ⟨s, rest, -, heq, -⟩ := recv_cases count n
  · rw [h] at heq
    cases heq
    exact ⟨hreceived, hsize, rfl⟩
  · rw [h] at heq
    cases heq
  · rw [h] at heq
    cases heq

/-- A receive fails only where nothing is received before. -/
theorem received_of_recv_failed (h : n.recv count = (.failed, n')) :
    n.received = [] ∧ ¬ n.Quiet := by
  obtain ⟨heq, -⟩ | ⟨rest, -, hreceived, -, hquiet⟩ | ⟨s, rest, -, heq, -⟩ := recv_cases count n
  · rw [h] at heq
    cases heq
  · exact ⟨hreceived, hquiet⟩
  · rw [h] at heq
    cases heq

/-- On a quiet connection a receive never fails, and leaves a quiet connection. -/
theorem Quiet.recv (h : n.Quiet) (count : Nat) : (n.recv count).2.Quiet := by
  obtain ⟨heq, -⟩ | ⟨rest, -, -, -, hnot⟩ | ⟨s, rest, -, heq, -, -, hquiet⟩ := recv_cases count n
  · rw [heq]
    exact List.not_mem_nil
  · exact absurd h hnot
  · rw [heq]
    intro hmem
    rcases List.mem_cons.mp hmem with hfailure | hmem
    · cases hfailure
    · exact hquiet h hmem

/-- While bytes are to come a receive gets some. -/
theorem exists_recv_bytes (h : n.received ≠ []) (count : Nat) :
    ∃ bs n', n.recv count = (.bytes bs, n') := by
  obtain ⟨-, hreceived, -⟩ | ⟨rest, -, hreceived, -⟩ | ⟨s, rest, -, heq, -⟩ := recv_cases count n
  · exact absurd hreceived h
  · exact absurd hreceived h
  · exact ⟨_, _, heq⟩

/-- A quiet connection without bytes to come is closed. -/
theorem Quiet.recv_closed (hq : n.Quiet) (h : n.received = []) (count : Nat) :
    n.recv count = (.closed, []) := by
  obtain ⟨heq, -⟩ | ⟨rest, -, -, -, hnot⟩ | ⟨s, rest, hne, -, hreceived, -⟩ := recv_cases count n
  · exact heq
  · exact absurd hq hnot
  · rw [h] at hreceived
    exact absurd (List.append_eq_nil_iff.mp hreceived.symm).1 hne

end Net

end Upnp.Lib
