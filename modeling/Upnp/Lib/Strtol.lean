import Mathlib.Data.List.TakeWhile
import Upnp.Lib.Numeral

/-!
# The end of a conversion

Where `strtol` leaves `endptr`, and the texts that it reads to their end.
-/

namespace Upnp.Lib

/-- `*endptr` behind `strtol(s, endptr, base)`. -/
def endptr (base : Nat) (s : CString) : CString :=
  match strtol base s with
  | none => s
  | some _ =>
    (skipHexPrefix base (signOf (s.dropWhile isSpace)).2).dropWhile fun c ↦ (digitVal base c).isSome

/-- Whether `strtol` sets `errno` to `ERANGE`. -/
def rangeError (base : Nat) (s : CString) : Bool :=
  let (sign, t) := signOf (s.dropWhile isSpace)
  let x := sign * digitRun base 0 (skipHexPrefix base t)
  clampLong x ≠ x

/-- What a sign stands for. -/
def signValue (sign : CString) : Int := if sign = ['-'] then -1 else 1

/-- A text that stands for a number: white space, a sign, the prefix of base 16, and digits. -/
def Spells (base : Nat) (text : CString) (x : Int) : Prop :=
  ∃ ws sign pre digits, text = ws ++ (sign ++ (pre ++ digits)) ∧ (∀ c ∈ ws, isSpace c) ∧
    sign ∈ [[], ['-'], ['+']] ∧ (pre = [] ∨ base = 16 ∧ pre ∈ [['0', 'x'], ['0', 'X']]) ∧
    digits ≠ [] ∧ IsDigits base digits ∧ x = signValue sign * numeral base digits

variable {base : Nat} {s text sign ws pre digits rest : CString} {x : Int} {c : Char}

/-- The sign is the text in front of what `signOf` leaves. -/
theorem exists_sign (s : CString) : ∃ sign ∈ [[], ['-'], ['+']], s = sign ++ (signOf s).2 ∧
    (signOf s).1 = signValue sign := by
  unfold signOf
  split
  · exact ⟨['-'], by simp, rfl, rfl⟩
  · exact ⟨['+'], by simp, rfl, rfl⟩
  · exact ⟨[], by simp, rfl, rfl⟩

/-- A sign is taken off where no second one is behind it. -/
theorem signOf_append (hsign : sign ∈ [[], ['-'], ['+']])
    (hrest : ∀ c ∈ rest.head?, c ≠ '-' ∧ c ≠ '+') : signOf (sign ++ rest) = (signValue sign, rest) := by
  simp only [List.mem_cons, List.not_mem_nil, or_false] at hsign
  rcases hsign with rfl | rfl | rfl
  · rw [List.nil_append]
    unfold signOf
    split
    · exact absurd rfl (hrest '-' rfl).1
    · exact absurd rfl (hrest '+' rfl).2
    · rfl
  · rfl
  · rfl

/-- The prefix is the text in front of what `skipHexPrefix` leaves. -/
theorem exists_hexPrefix (base : Nat) (s : CString) :
    ∃ pre, (pre = [] ∨ base = 16 ∧ pre ∈ [['0', 'x'], ['0', 'X']]) ∧
      s = pre ++ skipHexPrefix base s := by
  unfold skipHexPrefix
  split
  · next x c s =>
    split
    · next h =>
      obtain ⟨hbase, rfl | rfl, -⟩ := h
      · exact ⟨['0', 'x'], .inr ⟨hbase, by simp⟩, rfl⟩
      · exact ⟨['0', 'X'], .inr ⟨hbase, by simp⟩, rfl⟩
    · exact ⟨[], .inl rfl, rfl⟩
  · exact ⟨[], .inl rfl, rfl⟩

/-- A number begins with a digit, be it that of the prefix. -/
theorem head_number (hpre : pre = [] ∨ base = 16 ∧ pre ∈ [['0', 'x'], ['0', 'X']])
    (hdigits : IsDigits base digits) (hc : c ∈ (pre ++ digits).head?) :
    c ≠ '-' ∧ c ≠ '+' ∧ isSpace c = false := by
  rcases hpre with rfl | ⟨-, hpre⟩
  · have hdigit := ne_of_digitVal (hdigits c (List.mem_of_mem_head? hc))
    exact ⟨hdigit.1, hdigit.2.1, hdigit.2.2.2.2⟩
  · simp only [List.mem_cons, List.not_mem_nil, or_false] at hpre
    rcases hpre with rfl | rfl
    · cases hc
      decide
    · cases hc
      decide

theorem skipHexPrefix_append (hpre : pre = [] ∨ base = 16 ∧ pre ∈ [['0', 'x'], ['0', 'X']])
    (hne : digits ≠ []) (hdigits : IsDigits base digits) :
    skipHexPrefix base (pre ++ digits) = digits := by
  rcases hpre with rfl | ⟨rfl, hpre⟩
  · have hskip := skipHexPrefix_of_digits (q := []) hdigits (fun c hc ↦ by cases hc) hne
    rwa [List.append_nil] at hskip
  · obtain ⟨d, digits, rfl⟩ := List.exists_cons_of_ne_nil hne
    have hd := hdigits d (List.mem_cons_self ..)
    simp only [List.mem_cons, List.not_mem_nil, or_false] at hpre
    rcases hpre with rfl | rfl
    · exact if_pos ⟨rfl, .inl rfl, hd⟩
    · exact if_pos ⟨rfl, .inr rfl, hd⟩

/-- A text that stands for a number is read to its end. -/
theorem Spells.strtol (h : Spells base text x) :
    strtol base text = some (clampLong x) ∧ endptr base text = [] := by
  obtain ⟨ws, sign, pre, digits, rfl, hws, hsign, hpre, hne, hdigits, rfl⟩ := h
  have hhead (c : Char) (hc : c ∈ (pre ++ digits).head?) := head_number hpre hdigits hc
  have hdrop : (ws ++ (sign ++ (pre ++ digits))).dropWhile isSpace = sign ++ (pre ++ digits) := by
    rw [List.dropWhile_append_of_pos hws]
    simp only [List.mem_cons, List.not_mem_nil, or_false] at hsign
    rcases hsign with rfl | rfl | rfl
    · obtain ⟨d, rest, hd⟩ := List.exists_cons_of_ne_nil (List.append_ne_nil_of_right_ne_nil pre hne)
      rw [List.nil_append, hd]
      refine List.dropWhile_cons_of_neg ?_
      rw [(hhead d (by rw [hd]; rfl)).2.2]
      exact Bool.false_ne_true
    · rfl
    · rfl
  have hsplit := signOf_append hsign fun c hc ↦ ⟨(hhead c hc).1, (hhead c hc).2.1⟩
  have hskip := skipHexPrefix_append hpre hne hdigits
  have hrun : digitRun base 0 digits = numeral base digits := by
    have hrun := digitRun_append (q := []) hdigits (fun c hc ↦ by cases hc) 0
    rwa [List.append_nil] at hrun
  have hconv : Upnp.Lib.strtol base (ws ++ (sign ++ (pre ++ digits))) =
      some (clampLong (signValue sign * numeral base digits)) := by
    rw [Upnp.Lib.strtol, hdrop, hsplit]
    simp only [hskip, ← hrun]
    obtain ⟨d, digits, rfl⟩ := List.exists_cons_of_ne_nil hne
    exact if_pos (hdigits d (List.mem_cons_self ..))
  refine ⟨hconv, ?_⟩
  rw [endptr, hconv]
  simp only [hdrop, hsplit, hskip]
  exact List.dropWhile_eq_nil_iff.mpr hdigits

/-- A numeral is read up to what ends it. -/
theorem endptr_of_digits (hdigits : IsDigits base digits) (hrest : EndsNumeral base rest)
    (hne : digits ≠ []) : endptr base (digits ++ rest) = rest := by
  have hconv := strtol_of_digits [] (fun c hc ↦ absurd hc List.not_mem_nil) hdigits hrest hne
  rw [List.nil_append] at hconv
  have hhead : ∀ c ∈ (digits ++ rest).head?, c ≠ '-' ∧ c ≠ '+' ∧ isSpace c = false := by
    obtain ⟨d, digits, rfl⟩ := List.exists_cons_of_ne_nil hne
    rintro c ⟨⟩
    have hd := ne_of_digitVal (hdigits d (List.mem_cons_self ..))
    exact ⟨hd.1, hd.2.1, hd.2.2.2.2⟩
  have hdrop : (digits ++ rest).dropWhile isSpace = digits ++ rest := by
    obtain ⟨d, digits, rfl⟩ := List.exists_cons_of_ne_nil hne
    refine List.dropWhile_cons_of_neg ?_
    rw [(hhead d rfl).2.2]
    exact Bool.false_ne_true
  have hsign : signOf (digits ++ rest) = (signValue [], digits ++ rest) :=
    signOf_append (List.mem_cons_self ..) fun c hc ↦
      ⟨(hhead c hc).1, (hhead c hc).2.1⟩
  rw [endptr, hconv]
  simp only [hdrop, hsign, skipHexPrefix_of_digits hdigits hrest hne]
  rw [List.dropWhile_append_of_pos hdigits]
  cases rest with
  | nil => rfl
  | cons c rest =>
    refine List.dropWhile_cons_of_neg ?_
    rw [(hrest c rfl).1]
    exact Bool.false_ne_true

/-- A text that is read to its end is empty or stands for a number. -/
theorem spells_of_endptr (h : endptr base text = []) : text = [] ∨ ∃ x, Spells base text x := by
  rw [endptr] at h
  cases hconv : strtol base text with
  | none =>
    rw [hconv] at h
    exact .inl h
  | some y =>
    rw [hconv] at h
    obtain ⟨sign, hsign, heq, -⟩ := exists_sign (text.dropWhile isSpace)
    obtain ⟨pre, hpre, heq'⟩ := exists_hexPrefix base (signOf (text.dropWhile isSpace)).2
    refine .inr ⟨_, text.takeWhile isSpace, sign, pre, _, ?_, fun c hc ↦ List.mem_takeWhile_imp hc,
      hsign, hpre, ?_, List.dropWhile_eq_nil_iff.mp h, rfl⟩
    · rw [← heq', ← heq, List.takeWhile_append_dropWhile]
    · intro hnil
      rw [strtol] at hconv
      simp only [hnil] at hconv
      cases hconv

end Upnp.Lib
