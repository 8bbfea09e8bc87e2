import Mathlib.Data.List.Infix
import Upnp.Lib.CInt

/-!
# C strings and the string functions of the C library

A C string is the list of the characters before its terminating NUL.  The
functions below follow the C library functions of the same name; where the
library returns a pointer into its argument, the model returns the suffix the
pointer points to, and `none` for the null pointer.
-/

namespace Upnp.Lib

/-- The characters of a C string, without the terminating NUL. -/
abbrev CString := List Char

/-- Strings are compared by `==` as they are by `=`. -/
instance : LawfulBEq CString := inferInstance

/-- A property of each character of a string, from a run over the string. -/
theorem forall_mem_of_all {p : Char → Prop} [DecidablePred p] {l : CString}
    (h : l.all (p ·) = true) : ∀ c ∈ l, p c :=
  fun c hc ↦ of_decide_eq_true (List.all_eq_true.mp h c hc)

/-- `isspace` in the C locale. -/
def isSpace (c : Char) : Bool :=
  c = ' ' || c = '\t' || c = '\n' || c = '\r' || c = '\x0b' || c = '\x0c'

/-! ## Literals -/

/-- The length of a literal, which is a list of characters to the kernel and need not be decoded. -/
theorem length_literal {l : List Char} {n : Nat} (h : l.length = n) :
    (String.ofList l).toList.length = n := by
  rw [String.toList_ofList, h]

/-- What is not a character of a literal. -/
theorem notMem_literal {l : List Char} {c : Char} (h : l.all (· ≠ c) = true) :
    c ∉ (String.ofList l).toList := by
  rw [String.toList_ofList]
  intro hc
  exact of_decide_eq_true (List.all_eq_true.mp h c hc) rfl

/-- A literal cut in two. -/
theorem literal_eq_append {l l₁ l₂ : List Char} (h : l = l₁ ++ l₂) :
    (String.ofList l).toList = (String.ofList l₁).toList ++ (String.ofList l₂).toList := by
  rw [String.toList_ofList, String.toList_ofList, String.toList_ofList, h]

/-! ## Comparison -/

/-- `strcasecmp(a, b) == 0`. -/
def strcaseEq (a b : CString) : Bool := a.map Char.toLower = b.map Char.toLower

/-- `strncasecmp(a, b, n) == 0`. -/
def strncaseEq (a b : CString) (n : Nat) : Bool := strcaseEq (a.take n) (b.take n)

/-- `strncmp(a, b, n) == 0`. -/
def strnEq (a b : CString) (n : Nat) : Bool := a.take n = b.take n

/-- Only letters are changed to letters. -/
theorem eq_of_toLower_eq {c d : Char} (h : c.toLower = d) (hd : ¬ ('a' ≤ d ∧ d ≤ 'z')) :
    c = d := by
  unfold Char.toLower at h
  split at h
  · rename_i hc
    refine absurd ?_ hd
    have hval := congrArg Char.toNat h
    have h₁ : 65 ≤ c.toNat := UInt32.le_iff_toNat_le.mp hc.1
    have h₂ : c.toNat ≤ 90 := UInt32.le_iff_toNat_le.mp hc.2
    simp only [Char.toNat, UInt32.toNat_add] at hval h₁ h₂
    have hsub : ('a'.val - 'A'.val).toNat = 32 := by decide
    rw [hsub] at hval
    constructor <;> refine UInt32.le_iff_toNat_le.mpr ?_
    · change 97 ≤ d.val.toNat
      omega
    · change d.val.toNat ≤ 122
      omega
  · exact h

/-! ## Searching -/

/-- `strstr`: the suffix of the first string that starts with the first occurrence of the
second. -/
def strstr : CString → CString → Option CString
  | [], pat => if pat = [] then some [] else none
  | c :: s, pat => if pat.isPrefixOf (c :: s) then some (c :: s) else strstr s pat

/-- What `strstr` finds is an occurrence. -/
theorem strstr_spec {s pat r : CString} (h : strstr s pat = some r) :
    r <:+ s ∧ pat <+: r := by
  induction s with
  | nil =>
    unfold strstr at h
    split at h
    · rename_i hpat
      obtain rfl := Option.some.inj h
      simp [hpat]
    · cases h
  | cons c s ih =>
    rw [strstr] at h
    split at h
    · rename_i hpre
      obtain rfl := Option.some.inj h
      exact ⟨List.suffix_rfl, List.isPrefixOf_iff_prefix.mp hpre⟩
    · exact ⟨(ih h).1.trans (List.suffix_cons c s), (ih h).2⟩

/-- `strstr` finds the first occurrence. -/
theorem strstr_of_suffix {s pat r : CString} (hs : r <:+ s) (hr : pat <+: r) (hpat : pat ≠ []) :
    ∃ t, strstr s pat = some t ∧ r.length ≤ t.length := by
  induction s with
  | nil =>
    obtain rfl := List.suffix_nil.mp hs
    exact absurd (List.prefix_nil.mp hr) hpat
  | cons c s ih =>
    rw [strstr]
    by_cases hpre : pat.isPrefixOf (c :: s)
    · exact ⟨c :: s, if_pos hpre, hs.length_le⟩
    · rw [if_neg hpre]
      rcases List.suffix_cons_iff.mp hs with rfl | hs
      · exact absurd (List.isPrefixOf_iff_prefix.mpr hr) hpre
      · exact ih hs

/-- `strstr` finds what occurs. -/
theorem strstr_ne_none_iff {s pat : CString} (hpat : pat ≠ []) : strstr s pat ≠ none ↔ pat <:+: s := by
  constructor
  · intro h
    obtain ⟨r, hr⟩ := Option.ne_none_iff_exists'.mp h
    obtain ⟨hsuffix, hprefix⟩ := strstr_spec hr
    exact hprefix.isInfix.trans hsuffix.isInfix
  · rintro ⟨front, rest, rfl⟩
    have hsuffix : pat ++ rest <:+ front ++ pat ++ rest := by
      rw [List.append_assoc]
      exact List.suffix_append _ _
    obtain ⟨t, ht, -⟩ := strstr_of_suffix hsuffix (List.prefix_append _ _) hpat
    rw [ht]
    exact Option.some_ne_none t

/-- `strchr`, for a character other than NUL. -/
def strchr : CString → Char → Option CString
  | [], _ => none
  | c :: s, d => if c = d then some (c :: s) else strchr s d

/-! ## Numbers -/

/-- The digits that `sprintf` writes for `%d`. -/
def decimal : Int → CString
  | .ofNat n => Nat.toDigits 10 n
  | .negSucc n => '-' :: Nat.toDigits 10 (n + 1)

/-- The value of a digit in a base up to 16. -/
def digitVal (base : Nat) (c : Char) : Option Nat :=
  let v := if '0' ≤ c ∧ c ≤ '9' then some (c.toNat - '0'.toNat)
    else if 'a' ≤ c ∧ c ≤ 'f' then some (c.toNat - 'a'.toNat + 10)
    else if 'A' ≤ c ∧ c ≤ 'F' then some (c.toNat - 'A'.toNat + 10)
    else none
  v.filter (· < base)

/-- The value of the longest run of digits at the start of a string, from an accumulated
value; the flag says whether there was a digit. -/
def digitRun (base : Nat) : Nat → CString → Nat
  | acc, [] => acc
  | acc, c :: s =>
    match digitVal base c with
    | some v => digitRun base (acc * base + v) s
    | none => acc

/-- Saturation to the range of a 64 bit `long`. -/
def clampLong (x : Int) : Int := max (-9223372036854775808) (min 9223372036854775807 x)

/-- The optional sign that the conversions accept. -/
def signOf : CString → Int × CString
  | '-' :: s => (-1, s)
  | '+' :: s => (1, s)
  | s => (1, s)

/-- The `0x` that `strtol` skips in base 16, when a digit follows it. -/
def skipHexPrefix (base : Nat) : CString → CString
  | '0' :: x :: c :: s =>
    if base = 16 ∧ (x = 'x' ∨ x = 'X') ∧ (digitVal 16 c).isSome then c :: s else '0' :: x :: c :: s
  | s => s

/-- `strtol`, with `none` where it converts nothing and leaves `*endptr` at the start. -/
def strtol (base : Nat) (s : CString) : Option Int :=
  let (sign, t) := signOf (s.dropWhile isSpace)
  let t := skipHexPrefix base t
  match t with
  | [] => none
  | c :: _ => if (digitVal base c).isSome then some (clampLong (sign * digitRun base 0 t)) else none

/-- `atoi`: the conversion to `long` truncated to an `int`, `0` where nothing converts. -/
def atoi (s : CString) : Int := wrap32 ((strtol 10 s).getD 0)

/-! ## Strings as keys -/

/-- To erase an element with a key changes nothing among those with other keys. -/
theorem filter_eraseP_key {α : Type} (key : α → CString) (k : CString) (l : List α) :
    (l.eraseP (key · = k)).filter (key · ≠ k) = l.filter (key · ≠ k) := by
  induction l with
  | nil => rfl
  | cons a l ih =>
    by_cases ha : key a = k
    · rw [List.eraseP_cons_of_pos (by simpa using ha), List.filter_cons_of_neg (by simpa using ha)]
    · rw [List.eraseP_cons_of_neg (by simpa using ha), List.filter_cons_of_pos (by simpa using ha),
        List.filter_cons_of_pos (by simpa using ha), ih]

end Upnp.Lib
