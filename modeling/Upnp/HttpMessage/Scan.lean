import Mathlib.Tactic.Common
import Upnp.Lib.CString

/-!
# The scanners of HTTP messages

`parse_token`, `parse_LWS`, `parse_not_LWS`, `parse_http_line` and `parse_header_value` of
`http_client.c`.  Each of them gets the memory from its first character on, and the number of
characters that it may look at, which is not more than there are.  A `char` is signed, so the
characters from 128 on are not greater than 31.
-/

namespace Upnp.HttpMessage

open Upnp.Lib

def UPNP_E_OUTOF_MEMORY : Int := -104
def UPNP_E_BAD_RESPONSE : Int := -113
def UPNP_E_BAD_REQUEST : Int := -114

def SEPARATORS : CString := "()<>@,;:\\\"/[]?=\x7b\x7d \t".toList

/-- `token`: a pointer into the memory, as an offset, and a size. -/
structure Token where
  buff : Option Nat
  size : Int
deriving DecidableEq, Repr

/-- The text of a token. -/
def Token.text (memory : CString) (t : Token) : CString :=
  match t.buff with
  | none => []
  | some buff => (memory.drop buff).take t.size.toNat

/-- A character of a token. -/
def isToken (c : Char) : Bool := 31 < c.toNat && c.toNat < 127 && !SEPARATORS.contains c

/-- A blank or a tab. -/
def isLWS (c : Char) : Bool := c = ' ' || c = '\t'

/-- The loops over the characters that pass a test. -/
def scan (test : Char → Bool) : Nat → CString → Nat
  | max + 1, c :: rest => if test c then scan test max rest + 1 else 0
  | _, _ => 0

/-- `parse_token`: the size of the token, which is `0` if no character fits. -/
def parse_token (max_size : Int) (input : CString) : Nat := scan isToken max_size.toNat input

/-- `parse_LWS`. -/
def parse_LWS (max_size : Int) (input : CString) : Nat := scan isLWS max_size.toNat input

/-- `parse_not_LWS`. -/
def parse_not_LWS (max_size : Int) (input : CString) : Nat :=
  scan (fun c ↦ !isLWS c) max_size.toNat input

/-- The loop of `parse_http_line`, as long as two characters may be looked at. -/
def lineLoop : Nat → CString → Nat
  | max + 2, c :: rest =>
    if c = '\r' ∧ rest.head? = some '\n' then 0 else lineLoop (max + 1) rest + 1
  | _, _ => 0

/-- `parse_http_line`: the size of the line with its CRLF, or `0`. -/
def parse_http_line (max_size : Int) (input : CString) : Nat :=
  let counter := lineLoop max_size.toNat input
  if (counter : Int) > max_size - 2 then 0 else counter + 2

/-- The loop of `parse_header_value` that strips white space, back from the character `counter`. -/
def stripLoop (input : CString) : Nat → Int
  | 0 => if input[0]?.any isLWS then -1 else 0
  | counter + 1 => if input[counter + 1]?.any isLWS then stripLoop input counter else counter + 1

/-- `parse_header_value`, at the offset `pos`: the token and the size. -/
def parse_header_value (pos : Nat) (max_size : Int) (input : CString) : Token × Int :=
  let counter := parse_http_line max_size input
  if counter = 0 then (⟨none, 0⟩, 0)
  else
    let size := stripLoop input (counter - 2)
    (⟨some pos, size⟩, size)

/-! ## What the scanners find -/

/-- CRLF stands at the offset `q`. -/
def CrlfAt (memory : CString) (q : Nat) : Prop :=
  memory[q]? = some '\r' ∧ memory[q + 1]? = some '\n'

instance (memory : CString) (q : Nat) : Decidable (CrlfAt memory q) :=
  inferInstanceAs (Decidable (_ ∧ _))

variable {test : Char → Bool} {memory input : CString} {max pos q : Nat}

theorem crlfAt_drop : CrlfAt (memory.drop pos) q ↔ CrlfAt memory (pos + q) := by
  rw [CrlfAt, CrlfAt, List.getElem?_drop, List.getElem?_drop, Nat.add_assoc]

theorem scan_le (test : Char → Bool) (max : Nat) (input : CString) : scan test max input ≤ max := by
  induction max generalizing input with
  | zero => exact Nat.le_refl 0
  | succ max ih =>
    cases input with
    | nil => exact Nat.zero_le _
    | cons c rest =>
      rw [scan]
      split
      · exact Nat.succ_le_succ (ih rest)
      · exact Nat.zero_le _

/-- The characters that are passed are there, and fit. -/
theorem scan_passes {k : Nat} (h : k < scan test max input) :
    ∃ c, input[k]? = some c ∧ test c = true := by
  induction max generalizing input k with
  | zero => cases h
  | succ max ih =>
    cases input with
    | nil => cases h
    | cons c rest =>
      rw [scan] at h
      split at h
      · rename_i hc
        cases k with
        | zero => exact ⟨c, rfl, hc⟩
        | succ k => exact @ih rest k (Nat.lt_of_succ_lt_succ h)
      · cases h

/-- Where the scan stops early there is a character that does not fit. -/
theorem scan_stops (hmax : max ≤ input.length) (h : scan test max input < max) :
    ∃ c, input[scan test max input]? = some c ∧ test c = false := by
  induction max generalizing input with
  | zero => cases h
  | succ max ih =>
    cases input with
    | nil => cases hmax
    | cons c rest =>
      rw [scan] at h ⊢
      split
      · rename_i hc
        rw [if_pos hc] at h
        exact ih (Nat.le_of_succ_le_succ hmax) (Nat.lt_of_succ_lt_succ h)
      · rename_i hc
        exact ⟨c, rfl, by simpa using hc⟩

/-- A scan of a text that fits, up to a character that does not. -/
theorem scan_append {text rest : CString} (htext : ∀ c ∈ text, test c)
    (hrest : ∀ c ∈ rest.head?, test c = false) (hmax : text.length ≤ max) :
    scan test max (text ++ rest) = text.length := by
  induction text generalizing max with
  | nil =>
    cases max with
    | zero => rfl
    | succ max =>
      cases rest with
      | nil => rfl
      | cons c rest =>
        have hc : test c = false := hrest c rfl
        rw [List.nil_append, scan, hc]
        rfl
  | cons c text ih =>
    cases max with
    | zero => cases hmax
    | succ max =>
      rw [List.cons_append, scan, if_pos (htext c List.mem_cons_self),
        ih (fun d hd ↦ htext d (List.mem_cons_of_mem _ hd)) (Nat.le_of_succ_le_succ hmax)]
      rfl

/-- `parse_http_line` goes to the first CRLF, if there is one among the characters it may look
at. -/
theorem lineLoop_cases (hmax : max ≤ input.length) :
    (lineLoop max input + 2 ≤ max ∧ CrlfAt input (lineLoop max input) ∧
        ∀ q < lineLoop max input, ¬ CrlfAt input q) ∨
      (max < lineLoop max input + 2 ∧ ∀ q, q + 2 ≤ max → ¬ CrlfAt input q) := by
  induction max generalizing input with
  | zero =>
    refine .inr ⟨Nat.zero_lt_succ _, ?_⟩
    intro q hq
    omega
  | succ max ih =>
    cases max with
    | zero =>
      refine .inr ⟨Nat.lt_of_lt_of_le (by decide) (Nat.le_add_left 2 _), ?_⟩
      intro q hq
      omega
    | succ max =>
      cases input with
      | nil => cases hmax
      | cons c rest =>
        have hshift : ∀ q, CrlfAt (c :: rest) (q + 1) ↔ CrlfAt rest q := fun q ↦ Iff.rfl
        rw [lineLoop]
        by_cases hcrlf : c = '\r' ∧ rest.head? = some '\n'
        · rw [if_pos hcrlf]
          refine .inl ⟨Nat.le_add_left 2 max, ⟨congrArg some hcrlf.1, ?_⟩, ?_⟩
          · rw [List.getElem?_cons_succ, ← List.head?_eq_getElem?]
            exact hcrlf.2
          · intro q hq
            cases hq
        · rw [if_neg hcrlf]
          have hzero : ¬ CrlfAt (c :: rest) 0 := by
            rintro ⟨hc, hlf⟩
            refine hcrlf ⟨Option.some.inj hc, ?_⟩
            rw [List.head?_eq_getElem?]
            exact hlf
          rcases ih (Nat.le_of_succ_le_succ hmax) with ⟨hle, hat, hbefore⟩ | ⟨hlt, hnone⟩
          · refine .inl ⟨by omega, (hshift _).mpr hat, ?_⟩
            intro q hq
            cases q with
            | zero => exact hzero
            | succ q => exact fun h ↦ hbefore q (Nat.lt_of_succ_lt_succ hq) ((hshift q).mp h)
          · refine .inr ⟨by omega, ?_⟩
            intro q hq
            cases q with
            | zero => exact hzero
            | succ q => exact fun h ↦ hnone q (by omega) ((hshift q).mp h)

/-- The ways `parse_http_line` ends, in the memory. -/
theorem parse_http_line_cases {max_size : Int}
    (hlen : pos + max_size.toNat ≤ memory.length) :
    (∃ n, parse_http_line max_size (memory.drop pos) = n + 2 ∧ (n : Int) + 2 ≤ max_size ∧
        CrlfAt memory (pos + n) ∧ ∀ q, pos ≤ q → q < pos + n → ¬ CrlfAt memory q) ∨
      (parse_http_line max_size (memory.drop pos) = 0 ∧
        ∀ q, pos ≤ q → q + 2 ≤ pos + max_size.toNat → ¬ CrlfAt memory q) := by
  have hmax : max_size.toNat ≤ (memory.drop pos).length := by
    rw [List.length_drop]
    omega
  rw [parse_http_line]
  rcases lineLoop_cases hmax with ⟨hle, hat, hbefore⟩ | ⟨hlt, hnone⟩
  · refine .inl ⟨lineLoop max_size.toNat (memory.drop pos), if_neg (by omega), by omega,
      crlfAt_drop.mp hat, ?_⟩
    intro q hq hlt hcrlf
    refine hbefore (q - pos) (by omega) (crlfAt_drop.mpr ?_)
    rwa [Nat.add_sub_cancel' hq]
  · refine .inr ⟨if_pos (by omega), ?_⟩
    intro q hq hle hcrlf
    refine hnone (q - pos) (by omega) (crlfAt_drop.mpr ?_)
    rwa [Nat.add_sub_cancel' hq]

/-- From a character that is no white space nothing is stripped. -/
theorem stripLoop_eq {n : Nat} (h : input[n]?.any isLWS = false) : stripLoop input n = n := by
  cases n with
  | zero =>
    rw [stripLoop, h]
    rfl
  | succ n =>
    rw [stripLoop, h]
    rfl

theorem neg_one_le_stripLoop (input : CString) (n : Nat) : -1 ≤ stripLoop input n := by
  induction n with
  | zero =>
    rw [stripLoop]
    split <;> decide
  | succ n ih =>
    rw [stripLoop]
    split
    · exact ih
    · omega

theorem any_isLWS_of_crlfAt (h : CrlfAt memory q) : memory[q]?.any isLWS = false := by
  rw [h.1]
  decide

/-- The ways `parse_header_value` ends: the stripping begins at the CR, and so never strips
anything. -/
theorem parse_header_value_cases {max_size : Int}
    (hlen : pos + max_size.toNat ≤ memory.length) :
    (∃ n : Nat, parse_header_value pos max_size (memory.drop pos) = (Token.mk (some pos) n, (n : Int)) ∧
        parse_http_line max_size (memory.drop pos) = n + 2 ∧ (n : Int) + 2 ≤ max_size ∧
        CrlfAt memory (pos + n) ∧ ∀ q, pos ≤ q → q < pos + n → ¬ CrlfAt memory q) ∨
      (parse_header_value pos max_size (memory.drop pos) = (Token.mk none 0, (0 : Int)) ∧
        parse_http_line max_size (memory.drop pos) = 0 ∧
        ∀ q, pos ≤ q → q + 2 ≤ pos + max_size.toNat → ¬ CrlfAt memory q) := by
  rw [parse_header_value]
  rcases parse_http_line_cases hlen with ⟨n, hn, hle, hat, hbefore⟩ | ⟨hzero, hnone⟩
  · refine .inl ⟨n, ?_, hn, hle, hat, hbefore⟩
    have hstrip : stripLoop (memory.drop pos) n = n :=
      stripLoop_eq (any_isLWS_of_crlfAt (crlfAt_drop.mpr hat))
    rw [hn]
    dsimp only
    rw [if_neg (Nat.succ_ne_zero _), Nat.add_sub_cancel, hstrip]
  · refine .inr ⟨?_, hzero, hnone⟩
    rw [hzero]
    rfl

end Upnp.HttpMessage
