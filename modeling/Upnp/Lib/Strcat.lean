import Upnp.Lib.Buffer

/-!
# Texts put together in a block

`strcpy` and then `strcat`, or `sprintf` to the end of what is there: each piece is written with its
NUL, which the next one overwrites.
-/

namespace Upnp.Lib.Buffer

/-- The pieces of a text, the first of them to the offset. -/
def strcatAll : Nat → List CString → Buffer → Option Buffer
  | _, [], block => some block
  | offset, piece :: pieces, block =>
    (memcpy offset (piece ++ ['\x00']) block).bind (strcatAll (offset + piece.length) pieces)

variable {pieces : List CString} {piece : CString} {block front rest : Buffer}

/-- Pieces that fit with the last NUL are there one behind the other. -/
theorem strcatAll_append (hne : pieces ≠ []) (h : pieces.flatten.length < rest.length) :
    strcatAll front.length pieces (front ++ rest) =
      some (front ++ pieces.flatten.map some ++
        some '\x00' :: rest.drop (pieces.flatten.length + 1)) := by
  induction pieces generalizing front rest with
  | nil => exact absurd rfl hne
  | cons piece pieces ih =>
    rw [List.flatten_cons, List.length_append] at h
    have hpiece : (piece ++ ['\x00']).length ≤ rest.length := by
      rw [List.length_append, List.length_singleton]
      omega
    rw [strcatAll, memcpy_append hpiece, Option.bind_some, List.length_append,
      List.length_singleton, List.map_append]
    cases pieces with
    | nil =>
      rw [strcatAll, List.flatten_cons, List.flatten_nil, List.append_nil]
      simp only [List.append_assoc]
      rfl
    | cons next pieces =>
      have hrest : (next :: pieces).flatten.length <
          (some '\x00' :: rest.drop (piece.length + 1)).length := by
        rw [List.length_cons, List.length_drop]
        omega
      have hnext := @ih (front ++ piece.map some) _ (List.cons_ne_nil _ _) hrest
      rw [List.length_append, List.length_map] at hnext
      have hsplit : front ++ (piece.map some ++ ['\x00'].map some) ++ rest.drop (piece.length + 1) =
          front ++ piece.map some ++ some '\x00' :: rest.drop (piece.length + 1) := by
        simp only [List.append_assoc]
        rfl
      rw [hsplit, hnext, List.flatten_cons (l := piece), List.map_append, List.length_append,
        List.append_assoc front, List.drop_succ_cons, List.drop_drop,
        Nat.add_right_comm piece.length]

/-- Of pieces that do not fit, one is written outside. -/
theorem strcatAll_eq_none (hne : pieces ≠ []) (h : rest.length ≤ pieces.flatten.length) :
    strcatAll front.length pieces (front ++ rest) = none := by
  induction pieces generalizing front rest with
  | nil => exact absurd rfl hne
  | cons piece pieces ih =>
    rw [strcatAll]
    by_cases hpiece : piece.length < rest.length
    · have hle : (piece ++ ['\x00']).length ≤ rest.length := by
        rw [List.length_append]
        exact hpiece
      rw [List.flatten_cons, List.length_append] at h
      rw [memcpy_append hle, Option.bind_some, List.length_append, List.length_singleton,
        List.map_append]
      cases pieces with
      | nil =>
        rw [List.flatten_nil, List.length_nil] at h
        omega
      | cons next pieces =>
        have hrest : (some '\x00' :: rest.drop (piece.length + 1)).length ≤
            (next :: pieces).flatten.length := by
          rw [List.length_cons, List.length_drop]
          omega
        have hnext := @ih (front ++ piece.map some) _ (List.cons_ne_nil _ _) hrest
        rw [List.length_append, List.length_map] at hnext
        have hsplit : front ++ (piece.map some ++ ['\x00'].map some) ++
            rest.drop (piece.length + 1) =
            front ++ piece.map some ++ some '\x00' :: rest.drop (piece.length + 1) := by
          simp only [List.append_assoc]
          rfl
        rw [hsplit, hnext]
    · rw [memcpy_eq_none, Option.bind_none]
      rw [List.length_append]
      exact Nat.lt_succ_of_le (not_lt.mp hpiece)

theorem strcatAll_holds (hne : pieces ≠ []) (h : pieces.flatten.length < block.length) :
    ∃ block', strcatAll 0 pieces block = some block' ∧ block'.Holds pieces.flatten ∧
      block'.length = block.length := by
  have hall := @strcatAll_append pieces [] block hne h
  rw [List.nil_append, List.length_nil] at hall
  refine ⟨_, hall, ?_, ?_⟩
  · rw [List.nil_append, Holds, List.map_append, List.map_singleton]
    refine ⟨block.drop (pieces.flatten.length + 1), ?_⟩
    rw [List.append_assoc, List.singleton_append]
  · rw [List.nil_append, List.length_append, List.length_map, List.length_cons, List.length_drop]
    omega

end Upnp.Lib.Buffer
