import Upnp.Lib.CString

/-!
# Fixed buffers

An array or a block from `malloc` is the list of its bytes, `none` for one that was not written.
A write that does not lie in the block is a fault.
-/

namespace Upnp.Lib

/-- A block of memory. -/
abbrev Buffer := List (Option Char)

namespace Buffer

/-- A block of which nothing is written. -/
def alloc (size : Nat) : Buffer := List.replicate size none

/-- `memcpy` of the bytes to the offset. -/
def memcpy (offset : Nat) (bytes : CString) (block : Buffer) : Option Buffer :=
  if offset + bytes.length ≤ block.length then
    some (block.take offset ++ bytes.map some ++ block.drop (offset + bytes.length))
  else none

/-- Copies of pieces, each behind the one before. -/
def memcpyAll : Nat → List CString → Buffer → Option Buffer
  | _, [], block => some block
  | finger, bytes :: pieces, block =>
    (memcpy finger bytes block).bind (memcpyAll (finger + bytes.length) pieces)

/-- `sprintf` of a text to the start, with its NUL. -/
def sprintf (text : CString) (block : Buffer) : Option Buffer :=
  memcpy 0 (text ++ ['\x00']) block

/-- The block holds the text and its NUL. -/
def Holds (block : Buffer) (text : CString) : Prop :=
  (text ++ ['\x00']).map some <+: block

variable {offset : Nat} {text bytes : CString} {block block' front rest : Buffer}

@[simp] theorem length_alloc (size : Nat) : (alloc size).length = size := List.length_replicate

theorem memcpy_isSome_iff : (memcpy offset bytes block).isSome ↔
    offset + bytes.length ≤ block.length := by
  unfold memcpy
  split
  · rename_i h
    exact iff_of_true rfl h
  · rename_i h
    exact iff_of_false Bool.false_ne_true h

/-- A write behind the bytes that are there goes on with them. -/
theorem memcpy_append (h : bytes.length ≤ rest.length) :
    memcpy front.length bytes (front ++ rest) =
      some (front ++ bytes.map some ++ rest.drop bytes.length) := by
  rw [memcpy, if_pos (by rw [List.length_append]; exact Nat.add_le_add_left h _), List.take_left,
    ← List.drop_drop, List.drop_left]

theorem memcpy_eq_none (h : rest.length < bytes.length) :
    memcpy front.length bytes (front ++ rest) = none := by
  rw [memcpy, if_neg]
  rw [List.length_append]
  exact fun hle ↦ absurd h (not_lt.mpr (Nat.le_of_add_le_add_left hle))

/-- Pieces that fit are there one behind the other. -/
theorem memcpyAll_append {pieces : List CString} (h : pieces.flatten.length ≤ rest.length) :
    memcpyAll front.length pieces (front ++ rest) =
      some (front ++ pieces.flatten.map some ++ rest.drop pieces.flatten.length) := by
  induction pieces generalizing front rest with
  | nil =>
    rw [memcpyAll, List.flatten_nil, List.map_nil, List.append_nil]
    rfl
  | cons bytes pieces ih =>
    rw [List.flatten_cons, List.length_append] at h
    have hbytes : bytes.length ≤ rest.length := (Nat.le_add_right _ _).trans h
    have hrest : pieces.flatten.length ≤ (rest.drop bytes.length).length := by
      rw [List.length_drop]
      exact Nat.le_sub_of_add_le' h
    have hnext := @ih (front ++ bytes.map some) _ hrest
    rw [List.length_append, List.length_map] at hnext
    rw [memcpyAll, memcpy_append hbytes, Option.bind_some, hnext, List.flatten_cons,
      List.map_append, List.length_append, List.drop_drop, List.append_assoc front]

/-- Of pieces that do not fit, one is written outside. -/
theorem memcpyAll_eq_none {pieces : List CString} (h : rest.length < pieces.flatten.length) :
    memcpyAll front.length pieces (front ++ rest) = none := by
  induction pieces generalizing front rest with
  | nil => exact absurd h (Nat.not_lt_zero _)
  | cons bytes pieces ih =>
    rw [memcpyAll]
    by_cases hbytes : bytes.length ≤ rest.length
    · rw [List.flatten_cons, List.length_append] at h
      have hrest : (rest.drop bytes.length).length < pieces.flatten.length := by
        rw [List.length_drop]
        omega
      have hnext := @ih (front ++ bytes.map some) _ hrest
      rw [List.length_append, List.length_map] at hnext
      rw [memcpy_append hbytes, Option.bind_some, hnext]
    · rw [memcpy_eq_none (not_le.mp hbytes), Option.bind_none]

theorem sprintf_isSome_iff : (sprintf text block).isSome ↔ text.length < block.length := by
  rw [sprintf, memcpy_isSome_iff, Nat.zero_add, List.length_append]
  exact Iff.rfl

theorem holds_of_sprintf (h : sprintf text block = some block') : block'.Holds text := by
  unfold sprintf memcpy at h
  split at h
  · cases h
    exact List.prefix_append _ _
  · cases h

end Buffer

end Upnp.Lib
