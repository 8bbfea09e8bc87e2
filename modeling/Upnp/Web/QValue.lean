import Upnp.Web.Lex
import Upnp.Web.LoadNum

/-!
# Quality factors

`ParseQValue`, `LoadQValue` and `loadOptionalQValue`.  A factor is counted in thousandths, which are
as many digits as it may have.
-/

namespace Upnp.Web

open Upnp.Lib
open TokenType
open Parse (throw)

/-- The loop over at most `count` digits: what is behind them. -/
def matchDigits (isDigit : Char → Bool) : Nat → CString → Option CString
  | 0, s => some s
  | _ + 1, [] => some []
  | count + 1, c :: s => if isDigit c then matchDigits isDigit count s else none

/-- `strtod` of a digit and up to three more of them, in thousandths. -/
def thousandths (c : Char) (digits : CString) : Nat :=
  numeral 10 (c :: (digits ++ List.replicate (3 - digits.length) '0'))

/-- `ParseQValue`. -/
def ParseQValue (s : CString) : Except ParseException Nat :=
  match s with
  | [] => .error parseFailure
  | c :: s =>
    if c ≠ '0' ∧ c ≠ '1' then .error parseFailure
    else
      match s with
      | [] => .ok (thousandths c [])
      | dot :: digits =>
        if dot ≠ '.' then .error parseFailure
        else if matchDigits (fun d ↦ if c = '1' then d = '0' else d.isDigit) 3 digits = some [] then
          .ok (thousandths c digits)
        else .error parseFailure

/-- `LoadQValue`. -/
def LoadQValue : Parse Nat := do
  let token ← getToken
  if token.s ≠ ['q'] then
    pushBack
    throw parseFailure
  else
    SkipOptionalLWS
    let token ← getToken
    if token.s ≠ ['='] then
      pushBack
      throw parseFailure
    else
      SkipOptionalLWS
      let token ← getToken
      if token.tokType ≠ IDENTIFIER then
        pushBack
        throw parseFailure
      else
        match ParseQValue (c_str token.s) with
        | .error e => throw e
        | .ok q => return q

/-- `loadOptionalQValue`, where a factor is used. -/
def loadOptionalQValue : Parse Nat := do
  SkipOptionalLWS
  let token ← getToken
  if token.s ≠ [';'] then
    pushBack
    return 1000
  else
    SkipOptionalLWS
    LoadQValue

/-! ## The texts of factors -/

/-- A text is a factor. -/
inductive IsQValue : CString → Nat → Prop where
  | zero : IsQValue ['0'] 0
  | one : IsQValue ['1'] 1000
  | fraction {digits : CString} (hlen : digits.length ≤ 3) (hdigits : ∀ c ∈ digits, c.isDigit) :
      IsQValue ('0' :: '.' :: digits) (numeral 10 (digits ++ List.replicate (3 - digits.length) '0'))
  | whole {digits : CString} (hlen : digits.length ≤ 3) (hdigits : ∀ c ∈ digits, c = '0') :
      IsQValue ('1' :: '.' :: digits) 1000

variable {text : CString} {q : Nat}

theorem matchDigits_of_all {isDigit : Char → Bool} {count : Nat} {digits : CString}
    (hlen : digits.length ≤ count) (hdigits : ∀ c ∈ digits, isDigit c) :
    matchDigits isDigit count digits = some [] := by
  induction digits generalizing count with
  | nil => cases count <;> rfl
  | cons c digits ih =>
    cases count with
    | zero => cases hlen
    | succ count =>
      rw [matchDigits, if_pos (hdigits c (List.mem_cons_self ..))]
      exact ih (Nat.le_of_succ_le_succ hlen) fun d hd ↦ hdigits d (List.mem_cons_of_mem _ hd)

theorem eq_replicate_of_zeros {digits : CString} (hlen : digits.length ≤ 3)
    (hdigits : ∀ c ∈ digits, c = '0') :
    digits ++ List.replicate (3 - digits.length) '0' = ['0', '0', '0'] := by
  rw [List.eq_replicate_of_mem hdigits, List.length_replicate, List.replicate_append_replicate,
    Nat.add_sub_cancel' hlen]
  rfl

/-- A factor is parsed. -/
theorem IsQValue.parse (h : IsQValue text q) : ParseQValue text = .ok q := by
  cases h with
  | zero => rfl
  | one => rfl
  | @fraction digits hlen hdigits =>
    have hmatch : matchDigits (fun d ↦ if '0' = '1' then d = '0' else d.isDigit) 3 digits = some [] :=
      matchDigits_of_all hlen hdigits
    rw [ParseQValue, if_neg (by decide), if_neg (by decide), if_pos hmatch, thousandths, numeral,
      List.foldl_cons]
    rfl
  | @whole digits hlen hdigits =>
    have hmatch : matchDigits (fun d ↦ if '1' = '1' then d = '0' else d.isDigit) 3 digits = some [] :=
      matchDigits_of_all hlen fun c hc ↦ decide_eq_true (hdigits c hc)
    rw [ParseQValue, if_neg (by decide), if_neg (by decide), if_pos hmatch, thousandths,
      eq_replicate_of_zeros hlen hdigits]
    rfl

/-- Exactly the digits that there may be are passed over to the end of the text. -/
theorem matchDigits_eq_nil_iff {isDigit : Char → Bool} {count : Nat} {digits : CString} :
    matchDigits isDigit count digits = some [] ↔
      digits.length ≤ count ∧ ∀ c ∈ digits, isDigit c := by
  constructor
  · intro h
    induction digits generalizing count with
    | nil => exact ⟨Nat.zero_le _, fun c hc ↦ absurd hc List.not_mem_nil⟩
    | cons c digits ih =>
      cases count with
      | zero => cases h
      | succ count =>
        rw [matchDigits] at h
        split at h
        · next hc =>
          obtain ⟨hlen, hdigits⟩ := ih h
          exact ⟨Nat.succ_le_succ hlen, List.forall_mem_cons.mpr ⟨hc, hdigits⟩⟩
        · cases h
  · rintro ⟨hlen, hdigits⟩
    exact matchDigits_of_all hlen hdigits

/-- What is parsed is a factor. -/
theorem isQValue_of_parse (h : ParseQValue text = .ok q) : IsQValue text q := by
  unfold ParseQValue at h
  split at h
  · cases h
  next c s =>
  split at h
  · cases h
  next hc =>
  have hc : c = '0' ∨ c = '1' := by
    by_contra hnot
    exact hc (not_or.mp hnot)
  split at h
  · rcases hc with rfl | rfl
    · cases h
      exact .zero
    · cases h
      exact .one
  next dot digits =>
  split at h
  · cases h
  next hdot =>
  obtain rfl := not_not.mp hdot
  by_cases hmatch : matchDigits (fun d ↦ if c = '1' then d = '0' else d.isDigit) 3 digits = some []
  · rw [if_pos hmatch] at h
    obtain ⟨hlen, hdigits⟩ := matchDigits_eq_nil_iff.mp hmatch
    cases h
    rcases hc with rfl | rfl
    · exact .fraction hlen fun d hd ↦ by simpa using hdigits d hd
    · have hzeros : ∀ d ∈ digits, d = '0' := fun d hd ↦ by simpa using hdigits d hd
      rw [thousandths, eq_replicate_of_zeros hlen hzeros]
      exact .whole hlen hzeros
  · rw [if_neg hmatch] at h
    cases h

/-- Exactly the factors are parsed, each as its number. -/
theorem ParseQValue_eq_ok_iff : ParseQValue text = .ok q ↔ IsQValue text q :=
  ⟨isQValue_of_parse, IsQValue.parse⟩

theorem IsQValue.isIdentifier (h : IsQValue text q) : IsIdentifier text := by
  have hdigit {c : Char} (hc : c.isDigit) : IsIdentifierChar c := isIdentifierChar_of_isDigit hc
  cases h with
  | zero => exact ⟨List.cons_ne_nil _ _, List.all_eq_true.mp rfl⟩
  | one => exact ⟨List.cons_ne_nil _ _, List.all_eq_true.mp rfl⟩
  | fraction hlen hdigits =>
    refine ⟨List.cons_ne_nil _ _, ?_⟩
    simp only [List.forall_mem_cons]
    exact ⟨rfl, rfl, fun c hc ↦ hdigit (hdigits c hc)⟩
  | whole hlen hdigits =>
    refine ⟨List.cons_ne_nil _ _, ?_⟩
    simp only [List.forall_mem_cons]
    exact ⟨rfl, rfl, fun c hc ↦ hdigits c hc ▸ rfl⟩

theorem c_str_of_isIdentifier {name : CString} (h : IsIdentifier name) : c_str name = name := by
  refine List.takeWhile_eq_self_iff.mpr fun c hc ↦ decide_eq_true ?_
  rintro rfl
  cases h.2 _ hc

/-! ## Parameters -/

/-- White space where there may be some. -/
abbrev Space := {sp : List Token // IsSpace sp}

/-- The white space of a parameter: in front of the semicolon, the name, the equals sign and the
value. -/
structure Layout where
  semicolon : Space
  name : Space
  equals : Space
  value : Space

/-- A parameter. -/
def Layout.tokens (l : Layout) (name : CString) (value : Token) : List Token :=
  l.semicolon.val ++ separator ';' ::
    (l.name.val ++ word name :: (l.equals.val ++ separator '=' :: (l.value.val ++ [value])))

theorem Layout.tokens_append (l : Layout) (name : CString) (value : Token) (ts : List Token) :
    l.tokens name value ++ ts = l.semicolon.val ++ separator ';' ::
      (l.name.val ++ word name :: (l.equals.val ++ separator '=' :: (l.value.val ++ value :: ts))) := by
  simp only [Layout.tokens, List.append_assoc, List.cons_append, List.nil_append]

/-- A quality factor. -/
structure QText where
  layout : Layout
  text : CString
  q : Nat
  isQValue : IsQValue text q

def QText.tokens (text : QText) : List Token := text.layout.tokens ['q'] (word text.text)

section Parameters

variable {back ts : List Token}

/-- A quality factor is loaded. -/
theorem yields_LoadQValue (l : Layout) (h : IsQValue text q) : Yields back LoadQValue
    (word ['q'] :: (l.equals.val ++ separator '=' :: (l.value.val ++ word text :: ts))) (.ok q) ts := by
  have hparse : ParseQValue (c_str (word text).s) = .ok q := by
    rw [word, c_str_of_isIdentifier h.isIdentifier, h.parse]
  refine Yields.weaken (yields_getToken ?_)
  rw [if_neg (not_not.mpr (word_s ['q']))]
  refine (l.equals.property.skip_other (separator_ne '=')).bind (yields_getToken ?_)
  rw [if_neg (not_not.mpr (separator_s '='))]
  refine (l.value.property.skip_other (word_ne text)).bind (yields_getToken ?_)
  rw [if_neg (not_word_ne _), hparse]
  exact yields_pure q

theorem yields_loadOptionalQValue (l : Layout) (h : IsQValue text q) :
    Yields back loadOptionalQValue (l.tokens ['q'] (word text) ++ ts) (.ok q) ts := by
  rw [Layout.tokens_append]
  refine (l.semicolon.property.skip_other (separator_ne ';')).bind (yields_getToken ?_)
  rw [if_neg (not_not.mpr (separator_s ';'))]
  exact ((l.name.property.skip_other (word_ne _)).bind (yields_LoadQValue l h)).weaken

/-- A factor that is not there is 1. -/
theorem yields_loadOptionalQValue_none (sp : Space) (h : EndsElement ts) :
    Yields back loadOptionalQValue (sp.val ++ ts) (.ok 1000) ts := by
  refine (sp.property.skip h.skip).bind ?_
  obtain ⟨t, ts', rfl, hne⟩ := h.exists_cons
  refine yields_getToken ?_
  rw [if_pos hne.2]
  exact yields_pushBack (yields_pure 1000)

end Parameters

theorem spends_LoadQValue : Spends [] LoadQValue := by
  refine spends_getToken fun t ↦ spends_ite (spends_pushBack (spends_throw _)) ?_
  refine spends_SkipOptionalLWS.bind fun _ ↦ spends_getToken fun u ↦ ?_
  refine spends_ite (spends_pushBack (spends_throw _)) ?_
  refine spends_SkipOptionalLWS.bind fun _ ↦ spends_getToken fun v ↦ ?_
  refine spends_ite (spends_pushBack (spends_throw _)) ?_
  split
  · exact spends_throw _
  · exact spends_pure _

theorem spends_loadOptionalQValue : Spends [] loadOptionalQValue := by
  refine spends_SkipOptionalLWS.bind fun _ ↦ spends_getToken fun t ↦ ?_
  refine spends_ite (spends_pushBack (spends_pure _)) ?_
  exact spends_SkipOptionalLWS.bind fun _ ↦ spends_LoadQValue

end Upnp.Web
