import Upnp.Lib.Strtol
import Upnp.MiniServer.Request

/-!
# The length that a header states

`ParseContentLength` on every header line.  A field whose name only begins like `Content-Length` is
malformed, and what `strtol` makes of a value is taken: nothing is zero, a sign is allowed, and a
number that does not fit wraps.
-/

namespace Upnp.MiniServer

open Upnp.Lib

/-- A header line, as `getLine` gets it: all CRs are at its end. -/
structure HeaderLine where
  name : CString
  value : CString
  eol : CString
  noColon : ':' ∉ name
  noCr : '\r' ∉ name ++ value
  noLf : '\n' ∉ name ++ value
  isEol : ∃ k, eol = List.replicate k '\r' ++ ['\n']

namespace HeaderLine

def text (h : HeaderLine) : CString := h.name ++ ':' :: (h.value ++ h.eol)

end HeaderLine

/-- A value that is a decimal number which an `int` holds. -/
def ValidLength (value : CString) (n : Nat) : Prop :=
  ∃ blanks digits blanks', value = blanks ++ (digits ++ blanks') ∧ (∀ c ∈ blanks, isBlank c) ∧
    (∀ c ∈ blanks', isBlank c) ∧ digits ≠ [] ∧ IsDigits 10 digits ∧ numeral 10 digits = n ∧ n ≤ intMax

/-- What has to be done with a header line. -/
structure ParsesRight (h : HeaderLine) : Prop where
  taken : LengthName h.name → ∀ n, ValidLength h.value n →
    ParseContentLength h.text = ((n : Int), false)
  rejected : LengthName h.name → (¬ ∃ n, ValidLength h.value n) → (ParseContentLength h.text).2 = true
  ignored : ¬ LengthName h.name → ParseContentLength h.text = (-1, false)

/-- A blank or the end of a line. -/
def isTail (c : Char) : Bool := isBlank c || c = '\r' || c = '\n'

/-- Nothing, or a number with white space and a sign in front of it, and only characters of a kind
behind it. -/
def NumberOr (tailChar : Char → Bool) (text : CString) : Prop :=
  (∀ c ∈ text, tailChar c) ∨ ∃ ws sign digits tail, text = ws ++ (sign ++ (digits ++ tail)) ∧
    (∀ c ∈ ws, isSpace c) ∧ sign ∈ [[], ['-'], ['+']] ∧ digits ≠ [] ∧ IsDigits 10 digits ∧
    ∀ c ∈ tail, tailChar c

/-- A value that `strtol` reads to its end, or to a NUL. -/
def Accepted (value : CString) : Prop := NumberOr isBlank (value.takeWhile (· ≠ '\x00'))

/-- A value that is accepted is a valid one, and a name that begins like the one looked for is that
name. -/
structure Clear (h : HeaderLine) : Prop where
  value : LengthName h.name → Accepted h.value → ∃ n, ValidLength h.value n
  name : ¬ LengthName h.name → (h.name.take 14).map Char.toUpper ≠ "CONTENT-LENGTH".toList

/-! ## `strtol` -/

variable {s t ws sign ds q value eol : CString} {c : Char}

theorem skipHexPrefix_ten (s : CString) : skipHexPrefix 10 s = s := by
  unfold skipHexPrefix
  split
  · exact if_neg fun h ↦ absurd h.1 (by decide)
  · rfl

/-- `strtol` converts nothing where no digit is behind the white space and the sign. -/
theorem strtol_eq_none_iff : strtol 10 s = none ↔
    ∀ c ∈ (signOf (s.dropWhile isSpace)).2.head?, digitVal 10 c = none := by
  rw [strtol]
  simp only [skipHexPrefix_ten]
  cases (signOf (s.dropWhile isSpace)).2 with
  | nil => exact iff_of_true rfl fun c hc ↦ by cases hc
  | cons d e =>
    simp only [List.head?_cons, Option.mem_some_iff, forall_eq']
    by_cases hd : (digitVal 10 d).isSome
    · rw [if_pos hd]
      refine iff_of_false (Option.some_ne_none _) fun hnone ↦ ?_
      rw [hnone] at hd
      cases hd
    · rw [if_neg hd]
      exact iff_of_true rfl (Option.not_isSome_iff_eq_none.mp hd)

theorem ne_sign_of_digit (h : (digitVal 10 c).isSome) : c ≠ '-' ∧ c ≠ '+' ∧ isSpace c = false :=
  ⟨(ne_of_digitVal h).1, (ne_of_digitVal h).2.1, (ne_of_digitVal h).2.2.2.2⟩

/-- Behind white space and a sign `signOf` leaves the digits. -/
theorem signOf_digits (hws : ∀ c ∈ ws, isSpace c) (hsign : sign ∈ [[], ['-'], ['+']]) (hne : ds ≠ [])
    (hds : IsDigits 10 ds) :
    (signOf ((ws ++ (sign ++ (ds ++ q))).dropWhile isSpace)).2 = ds ++ q := by
  obtain ⟨d, ds, rfl⟩ := List.exists_cons_of_ne_nil hne
  obtain ⟨hminus, hplus, hspace⟩ := ne_sign_of_digit (hds d (List.mem_cons_self ..))
  rw [List.dropWhile_append_of_pos hws]
  simp only [List.mem_cons, List.not_mem_nil, or_false] at hsign
  rcases hsign with rfl | rfl | rfl
  · rw [List.nil_append, List.cons_append, List.dropWhile_cons_of_neg (by simp [hspace])]
    unfold signOf
    split
    · next heq => exact absurd (List.cons.inj heq).1 hminus
    · next heq => exact absurd (List.cons.inj heq).1 hplus
    · rfl
  · rfl
  · rfl

theorem strtolEnd_digits (hws : ∀ c ∈ ws, isSpace c) (hsign : sign ∈ [[], ['-'], ['+']])
    (hne : ds ≠ []) (hds : IsDigits 10 ds) (hq : ∀ c ∈ q.head?, digitVal 10 c = none) :
    strtolEnd (ws ++ (sign ++ (ds ++ q))) = q := by
  have hleft := @signOf_digits ws sign ds q hws hsign hne hds
  have hsome : strtol 10 (ws ++ (sign ++ (ds ++ q))) ≠ none := by
    rw [Ne, strtol_eq_none_iff, hleft]
    obtain ⟨d, ds, rfl⟩ := List.exists_cons_of_ne_nil hne
    intro h
    have hd := hds d (List.mem_cons_self ..)
    rw [h d rfl] at hd
    cases hd
  obtain ⟨n, hn⟩ := Option.ne_none_iff_exists'.mp hsome
  rw [strtolEnd, hn]
  simp only [hleft]
  rw [List.dropWhile_append_of_pos fun c hc ↦ hds c hc]
  cases q with
  | nil => rfl
  | cons c q => exact List.dropWhile_cons_of_neg (by simp [hq c rfl])

/-- The white space, the sign and the digits that `strtol` passes. -/
theorem strtolEnd_cases (s : CString) : strtolEnd s = s ∧ strtol 10 s = none ∨
    ∃ ws sign digits, s = ws ++ (sign ++ (digits ++ strtolEnd s)) ∧ (∀ c ∈ ws, isSpace c) ∧
      sign ∈ [[], ['-'], ['+']] ∧ digits ≠ [] ∧ IsDigits 10 digits := by
  rw [strtolEnd]
  cases hn : strtol 10 s with
  | none => exact .inl ⟨rfl, rfl⟩
  | some n =>
    obtain ⟨sign, hsign, heq, -⟩ := exists_sign (s.dropWhile isSpace)
    refine .inr ⟨s.takeWhile isSpace, sign,
      (signOf (s.dropWhile isSpace)).2.takeWhile fun c ↦ (digitVal 10 c).isSome, ?_, ?_, hsign, ?_, ?_⟩
    · simp only
      rw [List.takeWhile_append_dropWhile, ← heq, List.takeWhile_append_dropWhile]
    · exact fun c hc ↦ List.mem_takeWhile_imp hc
    · intro hnil
      have hnone : strtol 10 s = none := by
        rw [strtol_eq_none_iff]
        intro c hc
        obtain ⟨rest, hrest⟩ := List.head?_eq_some_iff.mp hc
        rw [hrest] at hnil
        by_contra hsome
        rw [@List.takeWhile_cons_of_pos _ (fun c ↦ (digitVal 10 c).isSome) _ _
          (Option.isSome_iff_ne_none.mpr hsome)] at hnil
        cases hnil
      rw [hnone] at hn
      cases hn
    · exact fun c hc ↦ @List.mem_takeWhile_imp _ (fun c ↦ (digitVal 10 c).isSome) _ _ hc

/-! ## What is accepted -/

/-- The test of `ParseContentLength` behind the colon. -/
def tailOk (s : CString) : Bool :=
  ((strtolEnd s).takeWhile (· ≠ '\x00')).all fun c ↦ isBlank c || c = '\r' || c = '\n'

theorem isTail_space (h : isTail c) : isSpace c ∧ digitVal 10 c = none ∧ c ≠ '\x00' := by
  rw [isTail, Bool.or_eq_true, Bool.or_eq_true, decide_eq_true_eq, decide_eq_true_eq] at h
  rcases h with (h | rfl) | rfl
  · rw [isBlank, Bool.or_eq_true, decide_eq_true_eq, decide_eq_true_eq] at h
    rcases h with rfl | rfl
    · decide
    · decide
  · decide
  · decide

theorem not_nul_of_space (h : isSpace c) : decide (c ≠ '\x00') = true := by
  rw [decide_eq_true_eq]
  rintro rfl
  cases h

theorem not_nul_of_digit (h : (digitVal 10 c).isSome) : decide (c ≠ '\x00') = true := by
  rw [decide_eq_true_eq]
  rintro rfl
  cases h

theorem not_nul_of_sign (hsign : sign ∈ [[], ['-'], ['+']]) (hc : c ∈ sign) :
    decide (c ≠ '\x00') = true := by
  simp only [List.mem_cons, List.not_mem_nil, or_false] at hsign
  rcases hsign with rfl | rfl | rfl
  · cases hc
  · rw [List.mem_singleton.mp hc]
    decide
  · rw [List.mem_singleton.mp hc]
    decide

/-- What the test accepts, up to a NUL. -/
theorem tailOk_iff (s : CString) :
    tailOk s = true ↔ NumberOr isTail (s.takeWhile (· ≠ '\x00')) := by
  have hall (t : CString) : (t.all fun c ↦ isBlank c || c = '\r' || c = '\n') = true ↔
      ∀ c ∈ t, isTail c := List.all_eq_true
  rw [tailOk, hall]
  constructor
  · intro h
    rcases strtolEnd_cases s with ⟨heq, -⟩ | ⟨ws, sign, digits, heq, hws, hsign, hne, hdigits⟩
    · rw [heq] at h
      exact .inl h
    · refine .inr ⟨ws, sign, digits, (strtolEnd s).takeWhile (· ≠ '\x00'), ?_, hws, hsign, hne,
        hdigits, h⟩
      conv_lhs => rw [heq]
      rw [List.takeWhile_append_of_pos fun c hc ↦ not_nul_of_space (hws c hc),
        List.takeWhile_append_of_pos fun c hc ↦ not_nul_of_sign hsign hc,
        List.takeWhile_append_of_pos fun c hc ↦ not_nul_of_digit (hdigits c hc)]
  · have hsplit := @List.takeWhile_append_dropWhile _ (fun c ↦ decide (c ≠ '\x00')) s
    have hrest : ∀ c ∈ (s.dropWhile (· ≠ '\x00')).head?, c = '\x00' := by
      intro c hc
      have hnot := List.head?_dropWhile_not (fun c ↦ decide (c ≠ '\x00')) s
      rw [Option.mem_def.mp hc] at hnot
      simpa using hnot
    generalize s.takeWhile (· ≠ '\x00') = front at hsplit ⊢
    generalize s.dropWhile (· ≠ '\x00') = rest at hsplit hrest
    rintro (h | ⟨ws, sign, digits, tail, rfl, hws, hsign, hne, hdigits, htail⟩)
    · -- nothing is converted
      have hnone : strtol 10 s = none := by
        rw [strtol_eq_none_iff, ← hsplit,
          List.dropWhile_append_of_pos fun c hc ↦ (isTail_space (h c hc)).1]
        cases rest with
        | nil => exact fun c hc ↦ by cases hc
        | cons d rest =>
          cases hrest d rfl
          intro c hc
          cases hc
          rfl
      rw [strtolEnd, hnone]
      simp only
      rw [← hsplit, List.takeWhile_append_of_pos]
      · cases rest with
        | nil => rwa [List.takeWhile_nil, List.append_nil]
        | cons d rest =>
          cases hrest d rfl
          rwa [List.takeWhile_cons_of_neg (by decide), List.append_nil]
      · exact fun c hc ↦ decide_eq_true (isTail_space (h c hc)).2.2
    · have hend : strtolEnd s = tail ++ rest := by
        rw [← hsplit]
        simp only [List.append_assoc]
        refine strtolEnd_digits hws hsign hne hdigits fun c hc ↦ ?_
        cases tail with
        | nil =>
          cases hrest c hc
          rfl
        | cons d tail =>
          cases hc
          exact (isTail_space (htail _ (List.mem_cons_self ..))).2.1
      rw [hend, List.takeWhile_append_of_pos]
      · cases rest with
        | nil => rwa [List.takeWhile_nil, List.append_nil]
        | cons d rest =>
          cases hrest d rfl
          rwa [List.takeWhile_cons_of_neg (by decide), List.append_nil]
      · exact fun c hc ↦ decide_eq_true (isTail_space (htail c hc)).2.2

/-! ## Letters -/

theorem not_letter_of_space (h : isSpace c) : ¬ ('A' ≤ c ∧ c ≤ 'Z') ∧ ¬ ('a' ≤ c ∧ c ≤ 'z') := by
  simp only [isSpace, Bool.or_eq_true, decide_eq_true_eq] at h
  rcases h with ((((rfl | rfl) | rfl) | rfl) | rfl) | rfl <;> decide

/-- A digit of base ten is not in upper case. -/
theorem not_upper_of_digit (h : (digitVal 10 c).isSome) : ¬ ('A' ≤ c ∧ c ≤ 'Z') := by
  intro hc
  have hlow : 65 ≤ c.toNat := UInt32.le_iff_toNat_le.mp hc.1
  have hhigh : c.toNat ≤ 90 := UInt32.le_iff_toNat_le.mp hc.2
  unfold digitVal at h
  dsimp only at h
  split at h
  · rename_i hdigit
    have hnine : c.toNat ≤ 57 := UInt32.le_iff_toNat_le.mp hdigit.2
    omega
  split at h
  · rename_i hlower
    have ha : 97 ≤ c.toNat := UInt32.le_iff_toNat_le.mp hlower.1
    omega
  split at h
  · simp at h
  · cases h

theorem not_letter_of_digit (h : (digitVal 10 c).isSome) :
    ¬ ('A' ≤ c ∧ c ≤ 'Z') ∧ ¬ ('a' ≤ c ∧ c ≤ 'z') :=
  ⟨not_upper_of_digit h, not_lower_of_digit h⟩

theorem not_letter_of_sign (hsign : sign ∈ [[], ['-'], ['+']]) (hc : c ∈ sign) :
    ¬ ('A' ≤ c ∧ c ≤ 'Z') ∧ ¬ ('a' ≤ c ∧ c ≤ 'z') := by
  simp only [List.mem_cons, List.not_mem_nil, or_false] at hsign
  rcases hsign with rfl | rfl | rfl
  · cases hc
  · rw [List.mem_singleton.mp hc]
    decide
  · rw [List.mem_singleton.mp hc]
    decide

/-- What is accepted has no letter in it. -/
theorem NumberOr.not_letter (h : NumberOr isTail s) (hc : c ∈ s) :
    ¬ ('A' ≤ c ∧ c ≤ 'Z') ∧ ¬ ('a' ≤ c ∧ c ≤ 'z') := by
  rcases h with h | ⟨ws, sign, digits, tail, rfl, hws, hsign, -, hdigits, htail⟩
  · exact not_letter_of_space (isTail_space (h c hc)).1
  · simp only [List.mem_append] at hc
    rcases hc with hc | hc | hc | hc
    · exact not_letter_of_space (hws c hc)
    · exact not_letter_of_sign hsign hc
    · exact not_letter_of_digit (hdigits c hc)
    · exact not_letter_of_space (isTail_space (htail c hc)).1

theorem map_toUpper_eq (h : ∀ c ∈ s.map Char.toUpper, ¬ ('A' ≤ c ∧ c ≤ 'Z')) :
    s.map Char.toUpper = s := by
  induction s with
  | nil => rfl
  | cons c s ih =>
    rw [List.map_cons] at h ⊢
    rw [ih fun d hd ↦ h d (List.mem_cons_of_mem _ hd),
      ← eq_of_toUpper_eq rfl (h _ (List.mem_cons_self ..))]

/-- Upper case changes nothing about it. -/
theorem numberOr_toUpper (s : CString) : NumberOr isTail (s.map Char.toUpper) ↔ NumberOr isTail s := by
  constructor
  · intro h
    rwa [map_toUpper_eq fun c hc ↦ (h.not_letter hc).1] at h
  · intro h
    rwa [map_toUpper_eq_self fun c hc ↦ (h.not_letter hc).2]

theorem takeWhile_toUpper (s : CString) : (s.map Char.toUpper).takeWhile (· ≠ '\x00') =
    (s.takeWhile (· ≠ '\x00')).map Char.toUpper := by
  rw [List.takeWhile_map]
  congr 2
  funext c
  refine decide_eq_decide.mpr (not_congr ⟨fun h ↦ eq_of_toUpper_eq h (by decide), ?_⟩)
  rintro rfl
  rfl

/-! ## The end of the line -/

theorem isTail_of_blank (h : isBlank c) : isTail c := by
  rw [isTail, h]
  rfl

theorem isBlank_of_tail (h : isTail c) (hcr : c ≠ '\r') (hlf : c ≠ '\n') : isBlank c := by
  rw [isTail, decide_eq_false hcr, decide_eq_false hlf] at h
  simpa using h

/-- The end of the line may be left away. -/
theorem numberOr_append (hcr : '\r' ∉ s) (hlf : '\n' ∉ s) (ht : ∀ c ∈ t, isTail c) :
    NumberOr isTail (s ++ t) ↔ NumberOr isBlank s := by
  have hblank (c : Char) (hc : c ∈ s) (htail : isTail c) : isBlank c :=
    isBlank_of_tail htail (fun h ↦ hcr (h ▸ hc)) (fun h ↦ hlf (h ▸ hc))
  constructor
  · rintro (h | ⟨ws, sign, digits, tail, heq, hws, hsign, hne, hdigits, htail⟩)
    · exact .inl fun c hc ↦ hblank c hc (h c (List.mem_append_left _ hc))
    · rw [← List.append_assoc sign, ← List.append_assoc ws] at heq
      rcases List.append_eq_append_iff.mp heq with ⟨a, hfront, ha⟩ | ⟨a, hfront, ha⟩
      · -- no digit is in the end of the line
        have hnil : a = [] := by
          by_contra hane
          have hlast := congrArg List.getLast? hfront
          rw [List.getLast?_append_of_ne_nil _ hane, ← List.append_assoc,
            List.getLast?_append_of_ne_nil _ hne, List.getLast?_eq_getLast_of_ne_nil hane,
            List.getLast?_eq_getLast_of_ne_nil hne] at hlast
          have hd := hdigits _ (List.getLast_mem hne)
          rw [Option.some.inj hlast] at hd
          have hnone := (isTail_space (ht _ (ha ▸ List.mem_append_left _ (List.getLast_mem hane)))).2.1
          rw [hnone] at hd
          cases hd
        subst hnil
        rw [List.append_nil] at hfront
        refine .inr ⟨ws, sign, digits, [], ?_, hws, hsign, hne, hdigits, fun c hc ↦ by cases hc⟩
        rw [← hfront, List.append_nil]
      · refine .inr ⟨ws, sign, digits, a, ?_, hws, hsign, hne, hdigits, fun c hc ↦ ?_⟩
        · rw [hfront]
          simp only [List.append_assoc]
        · exact hblank c (hfront ▸ List.mem_append_right _ hc)
            (htail c (ha ▸ List.mem_append_left _ hc))
  · rintro (h | ⟨ws, sign, digits, tail, rfl, hws, hsign, hne, hdigits, htail⟩)
    · exact .inl fun c hc ↦ (List.mem_append.mp hc).elim (fun hc ↦ isTail_of_blank (h c hc)) (ht c)
    · refine .inr ⟨ws, sign, digits, tail ++ t, ?_, hws, hsign, hne, hdigits, fun c hc ↦ ?_⟩
      · simp only [List.append_assoc]
      · exact (List.mem_append.mp hc).elim (fun hc ↦ isTail_of_blank (htail c hc)) (ht c)

theorem NumberOr.mono {p q : Char → Bool} (hpq : ∀ c, p c → q c) (h : NumberOr p s) :
    NumberOr q s := by
  rcases h with h | ⟨ws, sign, digits, tail, heq, hws, hsign, hne, hdigits, htail⟩
  · exact .inl fun c hc ↦ hpq c (h c hc)
  · exact .inr ⟨ws, sign, digits, tail, heq, hws, hsign, hne, hdigits, fun c hc ↦ hpq c (htail c hc)⟩

variable {h : HeaderLine} {n : Nat}

namespace HeaderLine

theorem eol_isTail (h : HeaderLine) (hc : c ∈ h.eol) : isTail c := by
  obtain ⟨k, heol⟩ := h.isEol
  rw [heol, List.mem_append] at hc
  rcases hc with hc | hc
  · rw [List.eq_of_mem_replicate hc]
    rfl
  · rw [List.mem_singleton.mp hc]
    rfl

theorem eol_ne_nil (h : HeaderLine) : h.eol ≠ [] := by
  obtain ⟨k, heol⟩ := h.isEol
  rw [heol]
  exact List.append_ne_nil_of_right_ne_nil _ (by simp)

theorem not_mem_value (h : HeaderLine) : '\r' ∉ h.value ∧ '\n' ∉ h.value :=
  ⟨fun hc ↦ h.noCr (List.mem_append_right _ hc), fun hc ↦ h.noLf (List.mem_append_right _ hc)⟩

/-- The test of a line, by its value. -/
theorem tailOk_iff_accepted (h : HeaderLine) :
    tailOk ((h.value ++ h.eol).map Char.toUpper) = true ↔ Accepted h.value := by
  rw [tailOk_iff, takeWhile_toUpper, numberOr_toUpper, Accepted]
  have hcr : '\r' ∉ h.value.takeWhile (· ≠ '\x00') := fun hc ↦
    h.not_mem_value.1 ((List.takeWhile_sublist _).subset hc)
  have hlf : '\n' ∉ h.value.takeWhile (· ≠ '\x00') := fun hc ↦
    h.not_mem_value.2 ((List.takeWhile_sublist _).subset hc)
  by_cases hnul : ∀ c ∈ h.value, decide (c ≠ '\x00') = true
  · rw [List.takeWhile_append_of_pos hnul, List.takeWhile_eq_self_iff.mpr hnul,
      numberOr_append h.not_mem_value.1 h.not_mem_value.2]
    exact fun c hc ↦ h.eol_isTail ((List.takeWhile_sublist _).subset hc)
  · have hcut : (h.value ++ h.eol).takeWhile (· ≠ '\x00') = h.value.takeWhile (· ≠ '\x00') := by
      rw [List.takeWhile_append, if_neg]
      exact fun hlen ↦ hnul (List.takeWhile_eq_self_iff.mp
        ((List.takeWhile_prefix _).eq_of_length hlen))
    have happend := numberOr_append (t := []) hcr hlf (fun c hc ↦ by cases hc)
    rw [List.append_nil] at happend
    rw [hcut, happend]

/-- A field of the name looked for. -/
theorem ParseContentLength_text (hname : LengthName h.name) : ParseContentLength h.text =
    if tailOk ((h.value ++ h.eol).map Char.toUpper) then
      (wrap32 ((strtol 10 ((h.value ++ h.eol).map Char.toUpper)).getD 0), false)
    else (-1, true) := by
  have htake : (h.text.take 14).map Char.toUpper = "CONTENT-LENGTH".toList := by
    rw [HeaderLine.text, (hname.take _).1]
    exact hname.1
  have hdrop : (h.text.drop 14).dropWhile isBlank = ':' :: (h.value ++ h.eol) := by
    rw [HeaderLine.text, (hname.take _).2, List.dropWhile_append_of_pos hname.2]
    exact List.dropWhile_cons_of_neg (by decide)
  rw [ParseContentLength_of_name htake hdrop, List.map_cons]
  obtain ⟨c, rest, hrest⟩ := List.exists_cons_of_ne_nil
    (List.append_ne_nil_of_right_ne_nil h.value h.eol_ne_nil)
  rw [hrest, List.map_cons]
  rfl

/-- A line is malformed when its field has a name that only begins like the one looked for. -/
theorem malformed_of_take (hname : ¬ LengthName h.name)
    (htake : (h.name.take 14).map Char.toUpper = "CONTENT-LENGTH".toList) :
    (ParseContentLength h.text).2 = true := by
  have hlen : 14 ≤ h.name.length := by
    have hlength := congrArg List.length htake
    rw [List.length_map, List.length_take, show ("CONTENT-LENGTH".toList).length = 14 from rfl]
      at hlength
    omega
  have hfront : (h.text.take 14).map Char.toUpper = "CONTENT-LENGTH".toList := by
    rw [HeaderLine.text, List.take_append_of_le_length hlen]
    exact htake
  rw [ParseContentLength_of_name hfront rfl]
  split
  · next heq =>
    exfalso
    have hblank : ¬ ∀ c ∈ h.name.drop 14, isBlank c := fun hall ↦ hname ⟨htake, hall⟩
    rw [HeaderLine.text, List.drop_append_of_le_length hlen, List.dropWhile_append] at heq
    rw [if_neg] at heq
    · -- no colon is in the name
      cases hrest : (h.name.drop 14).dropWhile isBlank with
      | nil => exact hblank (List.dropWhile_eq_nil_iff.mp hrest)
      | cons d rest =>
        rw [hrest, List.cons_append, List.map_cons] at heq
        have hd := eq_of_toUpper_eq (List.cons.inj heq).1 (by decide)
        apply h.noColon
        rw [← hd]
        exact List.mem_of_mem_drop ((List.dropWhile_suffix isBlank).subset
          (hrest ▸ List.mem_cons_self ..))
    · intro hempty
      exact hblank (List.dropWhile_eq_nil_iff.mp (List.isEmpty_iff.mp hempty))
  · rfl

/-- A field of another name is none. -/
theorem ignored_of_take (htake : (h.name.take 14).map Char.toUpper ≠ "CONTENT-LENGTH".toList) :
    ParseContentLength h.text = (-1, false) := by
  refine ParseContentLength_of_not_name fun htext ↦ ?_
  rw [HeaderLine.text] at htext
  by_cases hlen : 14 ≤ h.name.length
  · rw [List.take_append_of_le_length hlen] at htext
    exact htake htext
  · -- the colon is among the first characters
    have hmem : ':' ∈ "CONTENT-LENGTH".toList := by
      rw [← htext, List.take_append, List.map_append, List.mem_append]
      refine .inr (List.mem_map.mpr ⟨':', ?_, rfl⟩)
      obtain ⟨k, hk⟩ : ∃ k, 14 - h.name.length = k + 1 := ⟨13 - h.name.length, by omega⟩
      rw [hk]
      exact List.mem_cons_self ..
    exact absurd hmem (by decide)

theorem accepted_of_valid (hv : ValidLength h.value n) : Accepted h.value := by
  obtain ⟨blanks, digits, blanks', heq, hblanks, hblanks', hne, hdigits, -, -⟩ := hv
  have hnul : ∀ c ∈ h.value, decide (c ≠ '\x00') = true := by
    intro c hc
    rw [heq, List.mem_append, List.mem_append] at hc
    rcases hc with hc | hc | hc
    · exact not_nul_of_space (isSpace_of_isBlank (hblanks c hc))
    · exact not_nul_of_digit (hdigits c hc)
    · exact not_nul_of_space (isSpace_of_isBlank (hblanks' c hc))
  rw [Accepted, List.takeWhile_eq_self_iff.mpr hnul]
  exact .inr ⟨blanks, [], digits, blanks', heq, fun c hc ↦ isSpace_of_isBlank (hblanks c hc), by simp,
    hne, hdigits, hblanks'⟩

/-- A valid value is taken. -/
theorem taken_of_valid (hname : LengthName h.name) (hv : ValidLength h.value n) :
    ParseContentLength h.text = ((n : Int), false) := by
  have hok := h.tailOk_iff_accepted.mpr (accepted_of_valid hv)
  rw [ParseContentLength_text hname, if_pos hok]
  obtain ⟨blanks, digits, blanks', heq, hblanks, hblanks', hne, hdigits, hnum, hle⟩ := hv
  have htail : ∀ c ∈ blanks' ++ h.eol, isTail c := fun c hc ↦
    (List.mem_append.mp hc).elim (fun hc ↦ isTail_of_blank (hblanks' c hc)) h.eol_isTail
  have hupper : (h.value ++ h.eol).map Char.toUpper = blanks ++ (digits ++ (blanks' ++ h.eol)) := by
    rw [heq, List.append_assoc, List.append_assoc]
    refine map_toUpper_eq_self fun c hc ↦ ?_
    rw [List.mem_append, List.mem_append] at hc
    rcases hc with hc | hc | hc
    · exact not_lower_of_isBlank (hblanks c hc)
    · exact not_lower_of_digit (hdigits c hc)
    · exact (not_letter_of_space (isTail_space (htail c hc)).1).2
  have hends : EndsNumeral 10 (blanks' ++ h.eol) := by
    intro c hc
    have htc := htail c (List.mem_of_mem_head? hc)
    refine ⟨(isTail_space htc).2.1, ?_, ?_⟩
    · rintro rfl
      exact absurd htc (by decide)
    · rintro rfl
      exact absurd htc (by decide)
  rw [hupper, strtol_of_digits blanks (fun c hc ↦ isSpace_of_isBlank (hblanks c hc)) hdigits hends hne,
    hnum, Option.getD_some]
  rw [intMax] at hle
  have hclamp : clampLong (n : Int) = n := by
    rw [clampLong]
    omega
  rw [hclamp, wrap32_of_range (by omega) (by omega)]

end HeaderLine

open HeaderLine

/-- What is done right with a header line is exactly what no slip of the code touches. -/
theorem parsesRight_iff (h : HeaderLine) : ParsesRight h ↔ Clear h := by
  constructor
  · intro hright
    constructor
    · intro hname hacc
      by_contra hinvalid
      have hrejected := hright.rejected hname hinvalid
      rw [ParseContentLength_text hname, if_pos (h.tailOk_iff_accepted.mpr hacc)] at hrejected
      cases hrejected
    · intro hname htake
      have hmalformed := malformed_of_take hname htake
      rw [hright.ignored hname] at hmalformed
      cases hmalformed
  · intro hclear
    constructor
    · exact fun hname n hv ↦ taken_of_valid hname hv
    · intro hname hinvalid
      rw [ParseContentLength_text hname, if_neg]
      exact fun hok ↦ hinvalid (hclear.value hname (h.tailOk_iff_accepted.mp hok))
    · exact fun hname ↦ ignored_of_take (hclear.name hname)

/-- `Content-Length:` without a value. -/
def emptyLength : HeaderLine where
  name := "Content-Length".toList
  value := []
  eol := ['\r', '\n']
  noColon := by decide
  noCr := by decide
  noLf := by decide
  isEol := ⟨1, rfl⟩

/-- `Content-Length-Hint:5`, a field of another name. -/
def lengthHint : HeaderLine where
  name := "Content-Length-Hint".toList
  value := ['5']
  eol := ['\r', '\n']
  noColon := by decide
  noCr := by decide
  noLf := by decide
  isEol := ⟨1, rfl⟩

/-- No value is the length zero, and a field of another name is malformed. -/
theorem not_parsesRight : ¬ ParsesRight emptyLength ∧ ¬ ParsesRight lengthHint := by
  constructor
  · intro hright
    have hname : LengthName emptyLength.name := by
      constructor
      · rfl
      · exact List.all_eq_true.mp rfl
    have hinvalid : ¬ ∃ n, ValidLength emptyLength.value n := by
      rintro ⟨n, blanks, digits, blanks', heq, -, -, hne, -⟩
      have hnil := List.append_eq_nil_iff.mp heq.symm
      exact hne (List.append_eq_nil_iff.mp hnil.2).1
    have htaken : (ParseContentLength emptyLength.text).2 = false := by decide +kernel
    exact absurd (htaken.symm.trans (hright.rejected hname hinvalid)) Bool.false_ne_true
  · intro hright
    have hname : ¬ LengthName lengthHint.name := by
      intro h
      have hblank := h.2 '-' (by decide)
      cases hblank
    have hmalformed : (ParseContentLength lengthHint.text).2 = true := by decide +kernel
    rw [hright.ignored hname] at hmalformed
    cases hmalformed

end Upnp.MiniServer
