import Mathlib.Tactic.Common
import Upnp.Http.Client

/-!
# The lines of a byte stream

What `readLine` returns depends on the bytes to come only, not on how they are
cut into receives: `cut n` is the first line of a stream, of `n` characters at
most, with the rest of the stream.
-/

namespace Upnp.Http

open Upnp.Lib

/-- The first line of a stream, of at most `n` characters, and what follows it. -/
def cut : Nat → List Char → List Char × List Char
  | 0, bs => ([], bs)
  | _ + 1, [] => ([], [])
  | n + 1, b :: bs => if b = '\n' then ([b], bs) else (b :: (cut n bs).1, (cut n bs).2)

variable {n : Nat} {bs line rest : List Char} {net net' : Net}

theorem cut_append (n : Nat) (bs : List Char) : (cut n bs).1 ++ (cut n bs).2 = bs := by
  induction n generalizing bs with
  | zero => simp [cut]
  | succ n ih =>
    cases bs with
    | nil => simp [cut]
    | cons b bs =>
      unfold cut
      split
      · rfl
      · simp [ih]

/-- A line that fits is cut off whole. -/
theorem cut_of_line (hline : '\n' ∉ line) (hlen : line.length < n) :
    cut n (line ++ '\n' :: rest) = (line ++ ['\n'], rest) := by
  induction line generalizing n with
  | nil =>
    obtain ⟨n, rfl⟩ := Nat.exists_eq_succ_of_ne_zero (Nat.ne_of_gt hlen)
    simp [cut]
  | cons c line ih =>
    obtain ⟨n, rfl⟩ := Nat.exists_eq_succ_of_ne_zero (Nat.ne_of_gt (Nat.zero_lt_of_lt hlen))
    rw [List.mem_cons, not_or] at hline
    have hc : c ≠ '\n' := fun h ↦ hline.1 h.symm
    simp only [List.length_cons, Nat.succ_eq_add_one, Nat.add_lt_add_iff_right] at hlen
    simp [cut, hc, ih hline.2 hlen]

/-- A receive of one byte. -/
theorem recv_one (hq : net.received = b :: bs) :
    ∃ net', net.recv 1 = (.bytes [b], net') ∧ net'.received = bs := by
  obtain ⟨l, net', hrecv⟩ := Net.exists_recv_bytes (by rw [hq]; exact List.cons_ne_nil b bs) 1
  obtain ⟨happ, hlen⟩ := Net.received_of_recv_bytes hrecv
  have hne := Net.ne_nil_of_recv_bytes hrecv Nat.one_pos
  obtain ⟨c, rfl⟩ := List.length_eq_one_iff.mp
    (Nat.le_antisymm hlen (List.length_pos_iff.mpr hne))
  rw [hq, List.singleton_append, List.cons.injEq] at happ
  obtain ⟨rfl, hbs⟩ := happ
  exact ⟨net', hrecv, hbs.symm⟩

/-- `readLine` returns the first line of the stream. -/
theorem cut_of_readLine (h : readLine n net = (some line, net')) :
    cut n net.received = (line, net'.received) := by
  induction n generalizing net line with
  | zero =>
    simp only [readLine, Prod.mk.injEq, Option.some.injEq] at h
    obtain ⟨rfl, rfl⟩ := h
    rfl
  | succ n ih =>
    cases hr : net.received with
    | nil =>
      unfold readLine at h
      split at h
      · rename_i bs net₁ hrecv
        have := (Net.received_of_recv_bytes hrecv).1
        have hne := Net.ne_nil_of_recv_bytes hrecv Nat.one_pos
        simp_all
      · rename_i net₁ hrecv
        obtain ⟨-, -, rfl⟩ := Net.of_recv_closed hrecv
        obtain ⟨rfl, rfl⟩ : [] = line ∧ [] = net' := by simpa using h
        rfl
      · simp at h
    | cons b bs =>
      obtain ⟨net₁, hrecv, hbs⟩ := recv_one hr
      rw [readLine, hrecv] at h
      by_cases hb : b = '\n'
      · subst hb
        obtain ⟨rfl, rfl⟩ : ['\n'] = line ∧ net₁ = net' := by simpa using h
        simp [cut, hbs]
      · have hb' : ¬ [b] = ['\n'] := by simpa using hb
        simp only [if_neg hb', Prod.mk.injEq, Option.map_eq_some_iff] at h
        obtain ⟨⟨l, hl, rfl⟩, hnet⟩ := h
        have := ih (Prod.ext hl hnet)
        rw [hbs] at this
        simp [cut, hb, this]

/-- On a quiet connection `readLine` never fails. -/
theorem exists_readLine (hq : net.Quiet) (n : Nat) :
    ∃ line net', readLine n net = (some line, net') ∧ net'.Quiet := by
  induction n generalizing net with
  | zero => exact ⟨[], net, rfl, hq⟩
  | succ n ih =>
    have hq₁ := hq.recv 1
    unfold readLine
    split <;> rename_i hrecv <;> rw [hrecv] at hq₁
    · split
      · exact ⟨_, _, rfl, hq₁⟩
      · obtain ⟨line, net', hl, hq'⟩ := ih hq₁
        exact ⟨_, net', by rw [hl]; rfl, hq'⟩
    · exact ⟨_, _, rfl, hq₁⟩
    · exact absurd hq (Net.received_of_recv_failed hrecv).2

/-- On a quiet connection `readLine` takes the first line. -/
theorem readLine_quiet (hq : net.Quiet) (n : Nat) :
    ∃ net', readLine n net = (some (cut n net.received).1, net') ∧
      net'.received = (cut n net.received).2 ∧ net'.Quiet := by
  obtain ⟨line, net', h, hq'⟩ := exists_readLine hq n
  have := cut_of_readLine h
  exact ⟨net', by rw [this]; exact h, by rw [this], hq'⟩

end Upnp.Http
