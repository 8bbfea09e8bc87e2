import Upnp.Lib.Strtol
import Upnp.Web.Scanner

/-!
# Numbers in headers and in chunks

`loadNum`.  The result of `strtol` is stored in an `int` before it is tested: the numbers that do
not fit wrap, and the test for a number out of range is never true.  Whether there was a digit is
not tested at all.
-/

namespace Upnp.Web

open Upnp.Lib
open Parse (throw)

/-- `c_str()`, as a string that ends at a NUL. -/
def c_str (s : CString) : CString := s.takeWhile (· ≠ '\x00')

/-- `loadNum`. -/
def loadNum (base : Nat) : Parse Int := do
  let token ← getToken
  -- a `long` that is stored in an `int`
  let num := wrap32 ((strtol base (c_str token.s)).getD 0)
  if endptr base (c_str token.s) ≠ [] ∨ num < 0 then
    pushBack
    throw parseFailure
  else if (num = -9223372036854775808 ∨ num = 9223372036854775807) ∧
      rangeError base (c_str token.s) then
    pushBack
    throw parseFailure
  else return num

/-- The size of a chunk, at the head of the loop of `readEncodedEntity`. -/
def chunkSize : Parse Int := loadNum 16

/-- A string of digits whose value an `int` holds. -/
def IsNumber (base : Nat) (text : CString) (num : Int) : Prop :=
  text ≠ [] ∧ IsDigits base text ∧ (numeral base text : Int) = num ∧ num ≤ intMax

/-- What has to be done with a token, wherever it is to come. -/
def LoadsRight (base : Nat) (t : Token) : Prop :=
  ∀ s s' : Scanner, getToken s = (.ok t, s') →
    ∀ num, (loadNum base s).1 = .ok num ↔ IsNumber base t.s num

/-- What `strtol` makes a number that is not negative as an `int` is a string of digits whose value
an `int` holds; and there is something. -/
structure Legible (base : Nat) (t : Token) : Prop where
  ne_nil : c_str t.s ≠ []
  digits : ∀ x, Spells base (c_str t.s) x → 0 ≤ wrap32 (clampLong x) →
    IsDigits base t.s ∧ numeral base t.s ≤ intMax

variable {base : Nat} {t : Token} {s s' : Scanner} {num x : Int}

theorem wrap32_ne_limit (x : Int) :
    ¬ (wrap32 x = -9223372036854775808 ∨ wrap32 x = 9223372036854775807) := by
  have hrange := wrap32_range x
  omega

/-- The test of `loadNum` on the token that is to come. -/
theorem loadNum_run (h : getToken s = (.ok t, s')) : (loadNum base s).1 =
    if endptr base (c_str t.s) ≠ [] ∨ wrap32 ((strtol base (c_str t.s)).getD 0) < 0 then
      .error parseFailure
    else .ok (wrap32 ((strtol base (c_str t.s)).getD 0)) := by
  obtain ⟨-, -, n, -, hreturned⟩ := getToken_ok h
  obtain ⟨s'', hpush, -⟩ := pushBack_of_returned hreturned
  rw [loadNum, Parse.bind_ok h]
  by_cases hbad : endptr base (c_str t.s) ≠ [] ∨ wrap32 ((strtol base (c_str t.s)).getD 0) < 0
  · simp only [if_pos hbad]
    rw [Parse.bind_ok hpush]
    rfl
  · simp only [if_neg hbad, wrap32_ne_limit, false_and, if_false]
    rfl

/-- What is accepted is nothing, or it stands for a number. -/
theorem loadNum_ok_iff (h : getToken s = (.ok t, s')) : (loadNum base s).1 = .ok num ↔
    c_str t.s = [] ∧ num = 0 ∨
      ∃ x, Spells base (c_str t.s) x ∧ 0 ≤ wrap32 (clampLong x) ∧ num = wrap32 (clampLong x) := by
  rw [loadNum_run h]
  constructor
  · intro hok
    split at hok
    · cases hok
    · next hgood =>
      rw [not_or, not_not, not_lt] at hgood
      cases hok
      rcases spells_of_endptr hgood.1 with hnil | ⟨x, hx⟩
      · rw [hnil]
        exact .inl ⟨rfl, rfl⟩
      · rw [hx.strtol.1, Option.getD_some] at hgood ⊢
        exact .inr ⟨x, hx, hgood.2, rfl⟩
  · rintro (⟨hnil, rfl⟩ | ⟨x, hx, hpos, rfl⟩)
    · rw [hnil]
      rfl
    · rw [hx.strtol.1, hx.strtol.2, Option.getD_some, if_neg]
      rw [not_or, not_not, not_lt]
      exact ⟨rfl, hpos⟩

theorem c_str_of_digits {text : CString} (h : IsDigits base text) : c_str text = text := by
  refine List.takeWhile_eq_self_iff.mpr fun c hc ↦ decide_eq_true ?_
  rintro rfl
  exact absurd (range_of_digitVal (h _ hc)) (by decide)

/-- A string of digits stands for its value. -/
theorem spells_of_digits {text : CString} (h : IsDigits base text) (hne : text ≠ []) :
    Spells base text (numeral base text) := by
  refine ⟨[], [], [], text, rfl, fun c hc ↦ absurd hc List.not_mem_nil, by simp, .inl rfl, hne, h, ?_⟩
  exact (one_mul _).symm

theorem wrap32_clampLong {n : Nat} (h : (n : Int) ≤ intMax) : wrap32 (clampLong n) = n := by
  rw [intMax] at h
  have hclamp : clampLong (n : Int) = n := by
    rw [clampLong]
    omega
  rw [hclamp, wrap32_of_range (by omega) (by omega)]

/-- A number is accepted with its value. -/
theorem loadNum_of_isNumber (h : getToken s = (.ok t, s')) (hnum : IsNumber base t.s num) :
    (loadNum base s).1 = .ok num := by
  obtain ⟨hne, hdigits, rfl, hle⟩ := hnum
  rw [loadNum_ok_iff h, c_str_of_digits hdigits]
  refine .inr ⟨_, spells_of_digits hdigits hne, ?_, ?_⟩
  · rw [wrap32_clampLong hle]
    exact Int.natCast_nonneg _
  · exact (wrap32_clampLong hle).symm

/-- A string of digits stands for nothing but its value. -/
theorem eq_numeral_of_spells {text : CString} (h : Spells base text x) (hdigits : IsDigits base text) :
    x = numeral base text := by
  have hne : text ≠ [] := by
    obtain ⟨ws, sign, pre, digits, rfl, -, -, -, hne, -⟩ := h
    simp [hne]
  obtain ⟨ws, sign, pre, digits, rfl, hws, hsign, hpre, -, -, rfl⟩ := h
  have hdigit (c : Char) (hc : c ∈ ws ++ (sign ++ (pre ++ digits))) := ne_of_digitVal (hdigits c hc)
  have hwsNil : ws = [] := by
    refine List.eq_nil_iff_forall_not_mem.mpr fun c hc ↦ ?_
    have hspace := (hdigit c (by simp [hc])).2.2.2.2
    rw [hws c hc] at hspace
    cases hspace
  have hsignNil : sign = [] := by
    simp only [List.mem_cons, List.not_mem_nil, or_false] at hsign
    rcases hsign with rfl | rfl | rfl
    · rfl
    · exact absurd rfl (hdigit '-' (by simp)).1
    · exact absurd rfl (hdigit '+' (by simp)).2.1
  have hpreNil : pre = [] := by
    rcases hpre with rfl | ⟨-, hpre⟩
    · rfl
    · simp only [List.mem_cons, List.not_mem_nil, or_false] at hpre
      rcases hpre with rfl | rfl
      · exact absurd rfl (hdigit 'x' (by simp)).2.2.1
      · exact absurd rfl (hdigit 'X' (by simp)).2.2.2.1
  subst hwsNil hsignNil hpreNil
  exact one_mul _

/-- A token is loaded as it has to be exactly if it is legible; so the size of a chunk, too. -/
theorem loadsRight_iff (base : Nat) (t : Token) : LoadsRight base t ↔ Legible base t := by
  -- a scanner that has the token
  have hget : getToken ⟨[], [t], [], none⟩ = (.ok t, ⟨[t], [], [], none⟩) := rfl
  constructor
  · intro hright
    constructor
    · intro hnil
      have hzero := (hright _ _ hget 0).mp ((loadNum_ok_iff hget).mpr (.inl ⟨hnil, rfl⟩))
      rw [c_str_of_digits hzero.2.1] at hnil
      exact hzero.1 hnil
    · intro x hx hpos
      have hnumber := (hright _ _ hget _).mp ((loadNum_ok_iff hget).mpr (.inr ⟨x, hx, hpos, rfl⟩))
      obtain ⟨-, hdigits, heq, hle⟩ := hnumber
      exact ⟨hdigits, heq.trans_le hle⟩
  · intro hlegible s s' h num
    refine ⟨fun hok ↦ ?_, loadNum_of_isNumber h⟩
    rcases (loadNum_ok_iff h).mp hok with ⟨hnil, -⟩ | ⟨x, hx, hpos, rfl⟩
    · exact absurd hnil hlegible.ne_nil
    · obtain ⟨hdigits, hle⟩ := hlegible.digits x hx hpos
      have hstr := c_str_of_digits hdigits
      rw [hstr] at hx
      rw [eq_numeral_of_spells hx hdigits, wrap32_clampLong hle]
      refine ⟨?_, hdigits, rfl, hle⟩
      rw [← hstr]
      exact hlegible.ne_nil

/-- Nothing at the end of the stream is zero, and `2^32 + 5` is five. -/
theorem not_loadsRight :
    ¬ LoadsRight 16 ⟨.END_OF_STREAM, []⟩ ∧ ¬ LoadsRight 10 ⟨.IDENTIFIER, "4294967301".toList⟩ := by
  constructor
  · intro hright
    have hzero := (hright ⟨[], [], [], none⟩ _ rfl 0).mp rfl
    exact hzero.1 rfl
  · intro hright
    have hfive := (hright ⟨[], [⟨.IDENTIFIER, "4294967301".toList⟩], [], none⟩ _ rfl 5).mp (by decide)
    have heq := hfive.2.2.1
    revert heq
    decide

end Upnp.Web
