import Upnp.Lib.Buffer

/-!
# Copies counted by a `char`

A loop `*(dst+i++) = *src++` whose index is a `char`: behind 127 the index is -128.  A text and
its NUL are copied whole exactly when they fit the array and the index.
-/

namespace Upnp.Lib

/-- Wrap-around to a `char`, which is signed. -/
def wrap8 (x : Int) : Int := Int.bmod x 256

theorem wrap8_of_range {n : Nat} (h : n ≤ 127) : wrap8 n = n := by
  unfold wrap8
  rw [Int.bmod_def]
  omega

namespace Buffer

/-- `*(block+i) = c`. -/
def store (i : Int) (c : Char) (block : Buffer) : Option Buffer :=
  if 0 ≤ i ∧ i < block.length then some (block.set i.toNat (some c)) else none

/-- `*(block+i++) = c` for the characters of a text: the index and the block that come out. -/
def storeChars : Int → CString → Buffer → Option (Int × Buffer)
  | i, [], block => some (i, block)
  | i, c :: s, block => (store i c block).bind (storeChars (wrap8 (i + 1)) s)

/-- `*(block+i) = '\0'`. -/
def terminate (r : Int × Buffer) : Option Buffer := store r.1 '\x00' r.2

variable {i : Int} {c : Char} {s t : CString} {block front rest : Buffer}

theorem store_append (c : Char) (front rest : Buffer) (old : Option Char) :
    store front.length c (front ++ old :: rest) = some ((front ++ [some c]) ++ rest) := by
  rw [store, if_pos]
  · rw [Int.toNat_natCast, List.set_append_right _ _ (Nat.le_refl _), Nat.sub_self,
      List.set_cons_zero, List.append_assoc, List.singleton_append]
  · constructor
    · exact Int.natCast_nonneg _
    · rw [List.length_append, List.length_cons]
      omega

/-- Characters that fit the rest of the block and the index. -/
theorem storeChars_append (hindex : front.length + s.length ≤ 128) (hs : s.length ≤ rest.length) :
    storeChars (wrap8 front.length) s (front ++ rest) =
      some (wrap8 (front.length + s.length : Nat),
        front ++ s.map some ++ rest.drop s.length) := by
  induction s generalizing front rest with
  | nil =>
    rw [storeChars, List.map_nil, List.append_nil]
    rfl
  | cons c s ih =>
    cases rest with
    | nil => exact absurd hs (Nat.not_succ_le_zero _)
    | cons old rest =>
      rw [List.length_cons] at hindex
      have hfront : wrap8 front.length = front.length := wrap8_of_range (by omega)
      have hlen : (front ++ [some c]).length = front.length + 1 := by
        rw [List.length_append, List.length_singleton]
      have hnext := @ih (front ++ [some c]) rest (by rw [hlen]; omega) (Nat.le_of_succ_le_succ hs)
      rw [hlen] at hnext
      rw [storeChars, hfront, store_append, Option.bind_some]
      rw [Nat.cast_add, Nat.cast_one] at hnext
      rw [hnext, List.length_cons, List.map_cons, List.append_assoc front, List.singleton_append,
        List.drop_succ_cons, Nat.add_assoc, Nat.add_comm 1 s.length]

/-- Of characters that do not fit, one is stored outside. -/
theorem storeChars_eq_none (hfront : front.length ≤ 128)
    (h : rest.length < s.length ∨ 128 < front.length + s.length) :
    storeChars (wrap8 front.length) s (front ++ rest) = none := by
  induction s generalizing front rest with
  | nil =>
    rw [List.length_nil] at h
    omega
  | cons c s ih =>
    rw [storeChars]
    by_cases hlast : front.length = 128
    · have hneg : wrap8 front.length = -128 := by
        rw [hlast]
        decide
      rw [store, hneg, if_neg (fun hi ↦ absurd hi.1 (by decide)), Option.bind_none]
    · have hwrap : wrap8 front.length = front.length := wrap8_of_range (by omega)
      rw [hwrap]
      cases rest with
      | nil =>
        rw [store, if_neg, Option.bind_none]
        rw [List.append_nil]
        exact fun hi ↦ lt_irrefl _ hi.2
      | cons old rest =>
        have hlen : (front ++ [some c]).length = front.length + 1 := by
          rw [List.length_append, List.length_singleton]
        simp only [List.length_cons] at h
        have hnext := @ih (front ++ [some c]) rest (by rw [hlen]; omega) (by rw [hlen]; omega)
        rw [hlen, Nat.cast_add, Nat.cast_one] at hnext
        rw [store_append, Option.bind_some, hnext]

theorem storeChars_snoc (i : Int) (s : CString) (c : Char) (block : Buffer) :
    (storeChars i s block).bind (fun r ↦ store r.1 c r.2) =
      (storeChars i (s ++ [c]) block).map (·.2) := by
  induction s generalizing i block with
  | nil =>
    rw [storeChars, Option.bind_some, List.nil_append, storeChars]
    cases store i c block <;> rfl
  | cons d s ih =>
    rw [List.cons_append, storeChars, storeChars]
    cases store i d block with
    | none => rfl
    | some block' => exact ih _ block'

theorem storeChars_terminate (s : CString) (block : Buffer) :
    (storeChars 0 s block).bind terminate =
      (storeChars (wrap8 ([] : Buffer).length) (s ++ ['\x00']) ([] ++ block)).map (·.2) :=
  storeChars_snoc 0 s '\x00' block

/-- A text of fewer than 128 characters that fits with its NUL is copied whole. -/
theorem terminate_eq_some (hs : s.length < block.length) (hindex : s.length < 128) :
    ∃ block', (storeChars 0 s block).bind terminate = some block' ∧ block'.Holds s := by
  have hlen : (s ++ ['\x00']).length = s.length + 1 := by
    rw [List.length_append, List.length_singleton]
  have hall := @storeChars_append (s ++ ['\x00']) [] block (by rw [hlen, List.length_nil]; omega)
    (by omega)
  refine ⟨[] ++ (s ++ ['\x00']).map some ++ block.drop (s ++ ['\x00']).length, ?_, ?_⟩
  · rw [storeChars_terminate, hall, Option.map_some]
  · rw [List.nil_append]
    exact List.prefix_append _ _

/-- Any other is copied to outside of the block. -/
theorem terminate_eq_none (h : block.length ≤ s.length ∨ 128 ≤ s.length) :
    (storeChars 0 s block).bind terminate = none := by
  have hlen : (s ++ ['\x00']).length = s.length + 1 := by
    rw [List.length_append, List.length_singleton]
  have hall := @storeChars_eq_none (s ++ ['\x00']) [] block (Nat.zero_le _)
    (by rw [hlen, List.length_nil]; omega)
  rw [storeChars_terminate, hall, Option.map_none]

/-- The text in a block, up to the first NUL. -/
def str (block : Buffer) : CString := (block.takeWhile (· ≠ some '\x00')).filterMap id

theorem str_of_holds (hs : '\x00' ∉ s) (h : block.Holds s) : block.str = s := by
  obtain ⟨tail, rfl⟩ := h
  rw [str, List.map_append, List.append_assoc, List.takeWhile_append_of_pos]
  · simp
  · intro x hx
    obtain ⟨c, hc, rfl⟩ := List.mem_map.mp hx
    rw [decide_eq_true_iff]
    intro heq
    exact hs (Option.some.inj heq ▸ hc)

/-- Two texts that a block holds are the same. -/
theorem Holds.unique (hs : '\x00' ∉ s) (ht : '\x00' ∉ t) (h : block.Holds s) (h' : block.Holds t) :
    s = t := (str_of_holds hs h).symm.trans (str_of_holds ht h')

end Buffer

end Upnp.Lib
