import Upnp.Web.SortedList

/-!
# Language tags

`LanguageTag::load` reads its tag again when the quality factor is loaded.  The scanner has deleted
the token by then if five more were read.
-/

namespace Upnp.Web

open Upnp.Lib
open TokenType
open Parse (throw)

/-- `IsAlpha`. -/
def IsAlpha (c : Char) : Bool := ('a' ≤ c && c ≤ 'z') || ('A' ≤ c && c ≤ 'Z')

/-- The loop of `ValidLanguageTag`. -/
def matchSubtags (tag : CString) : Bool :=
  let alphas := (tag.take 8).takeWhile IsAlpha
  if alphas = [] then false
  else
    match hdrop : tag.drop alphas.length with
    | [] => true
    | c :: rest => if c ≠ '-' then false else matchSubtags rest
termination_by tag.length
decreasing_by
  have hlength := congrArg List.length hdrop
  rw [List.length_drop, List.length_cons] at hlength
  omega

/-- `ValidLanguageTag`. -/
def ValidLanguageTag (tag : CString) : Bool := if tag = ['*'] then true else matchSubtags tag

/-- `LanguageTag`. -/
structure LanguageTag where
  lang : CString
  q : Nat
deriving DecidableEq, Repr

/-- The scanner, as it is. -/
def getScanner : Parse Scanner := fun s ↦ (.ok s, s)

/-- The token that a scanner `s` returned last is still held when the scanner is `s'`: it is behind
those that were consumed since. -/
def Scanner.Holds (s s' : Scanner) : Bool := s.left - s'.left < s'.returned.length

/-- `LanguageTag::load` with a quality factor, where `freed` is read from a token that was deleted. -/
def LanguageTag.load (freed : CString) : Parse LanguageTag := do
  let token ← getToken
  if !ValidLanguageTag (c_str token.s) then
    pushBack
    throw parseFailure
  else
    let s ← getScanner
    let q ← loadOptionalQValue
    let s' ← getScanner
    return ⟨if s.Holds s' then token.s else freed, q⟩

/-! ## Tags -/

/-- A sequence of one to eight letters. -/
def IsSubtag (alphas : CString) : Prop := alphas ≠ [] ∧ alphas.length ≤ 8 ∧ ∀ c ∈ alphas, IsAlpha c

/-- A language tag. -/
inductive IsTag : CString → Prop where
  | subtag {alphas : CString} (h : IsSubtag alphas) : IsTag alphas
  | cons {alphas tag : CString} (h : IsSubtag alphas) (htag : IsTag tag) : IsTag (alphas ++ '-' :: tag)

/-- A language tag, or a wildcard. -/
def IsLanguage (tag : CString) : Prop := tag = ['*'] ∨ IsTag tag

theorem takeWhile_subtag {alphas : CString} (rest : CString) (h : IsSubtag alphas)
    (hrest : ∀ c ∈ rest.head?, IsAlpha c = false) :
    ((alphas ++ rest).take 8).takeWhile IsAlpha = alphas := by
  rw [List.take_append, List.take_of_length_le h.2.1, List.takeWhile_append_of_pos h.2.2]
  cases rest with
  | nil => rw [List.take_nil, List.takeWhile_nil, List.append_nil]
  | cons c rest =>
    have hc := hrest c rfl
    cases hlen : 8 - alphas.length with
    | zero => rw [List.take_zero, List.takeWhile_nil, List.append_nil]
    | succ n =>
      rw [List.take_succ_cons, List.takeWhile_cons_of_neg (by rw [hc]; decide), List.append_nil]

theorem IsTag.matches {tag : CString} (h : IsTag tag) : matchSubtags tag = true := by
  induction h with
  | @subtag alphas h =>
    have htake := takeWhile_subtag [] h (by simp)
    rw [List.append_nil] at htake
    rw [matchSubtags]
    simp only [htake, if_neg h.1]
    split
    · rfl
    · next heq =>
      rw [htake, List.drop_length] at heq
      cases heq
  | @cons alphas tag h _ ih =>
    have htake := takeWhile_subtag ('-' :: tag) h (by simp [IsAlpha])
    rw [matchSubtags]
    simp only [htake, if_neg h.1]
    split
    · rfl
    · next heq =>
      rw [htake, List.drop_left] at heq
      obtain ⟨rfl, rfl⟩ := List.cons.inj heq
      rw [if_neg (not_not.mpr rfl)]
      exact ih

theorem IsLanguage.valid {tag : CString} (h : IsLanguage tag) : ValidLanguageTag tag = true := by
  rcases h with rfl | h
  · rfl
  · rw [ValidLanguageTag, h.matches, ite_self]

theorem isSubtag_of_take {tag : CString} (h : (tag.take 8).takeWhile IsAlpha ≠ []) :
    IsSubtag ((tag.take 8).takeWhile IsAlpha) := by
  refine ⟨h, ?_, fun c hc ↦ List.mem_takeWhile_imp hc⟩
  exact (List.takeWhile_sublist _).length_le.trans (List.length_take_le 8 tag)

/-- The letters that are matched are those in front of what is left. -/
theorem takeWhile_append_drop (tag : CString) : (tag.take 8).takeWhile IsAlpha ++
    tag.drop ((tag.take 8).takeWhile IsAlpha).length = tag := by
  have hpre : (tag.take 8).takeWhile IsAlpha <+: tag :=
    (List.takeWhile_prefix _).trans (List.take_prefix 8 tag)
  exact List.prefix_iff_eq_append.mp hpre

theorem isTag_of_matches {tag : CString} (h : matchSubtags tag = true) : IsTag tag := by
  fun_induction matchSubtags tag with
  | case1 => cases h
  | case2 tag alphas halphas hdrop =>
    have htag := takeWhile_append_drop tag
    rw [hdrop, List.append_nil] at htag
    rw [← htag]
    exact .subtag (isSubtag_of_take halphas)
  | case3 => cases h
  | case4 tag alphas halphas c rest hdrop hc ih =>
    have htag := takeWhile_append_drop tag
    rw [hdrop, not_not.mp hc] at htag
    rw [← htag]
    exact .cons (isSubtag_of_take halphas) (ih h)

/-- Exactly the language tags and the wildcard are valid. -/
theorem ValidLanguageTag_iff {tag : CString} : ValidLanguageTag tag = true ↔ IsLanguage tag := by
  constructor
  · intro h
    rw [ValidLanguageTag] at h
    split at h
    · next hstar => exact .inl hstar
    · exact .inr (isTag_of_matches h)
  · exact IsLanguage.valid

/-- Of every token: exactly the language tags are valid, and exactly the factors are parsed, each as
its number. -/
theorem token_grammars (t : Token) :
    (ValidLanguageTag (c_str t.s) = true ↔ IsLanguage (c_str t.s)) ∧
    ∀ q, ParseQValue (c_str t.s) = .ok q ↔ IsQValue (c_str t.s) q :=
  ⟨ValidLanguageTag_iff, fun _ ↦ ParseQValue_eq_ok_iff⟩

theorem isIdentifierChar_of_isAlpha {c : Char} (h : IsAlpha c) : IsIdentifierChar c := by
  simp only [IsAlpha, Bool.or_eq_true, Bool.and_eq_true, decide_eq_true_eq] at h
  have hrange : c.toNat ∈ List.range' 97 26 ++ List.range' 65 26 := by
    rw [List.mem_append, List.mem_range'_1, List.mem_range'_1]
    rcases h with ⟨hlow, hhigh⟩ | ⟨hlow, hhigh⟩
    · exact .inl ⟨UInt32.le_iff_toNat_le.mp hlow, Nat.lt_succ_of_le (UInt32.le_iff_toNat_le.mp hhigh)⟩
    · exact .inr ⟨UInt32.le_iff_toNat_le.mp hlow, Nat.lt_succ_of_le (UInt32.le_iff_toNat_le.mp hhigh)⟩
  have hall :
      (List.range' 97 26 ++ List.range' 65 26).all (fun n ↦ IsIdentifierChar (Char.ofNat n)) = true := rfl
  rw [← Char.ofNat_toNat c]
  exact List.all_eq_true.mp hall _ hrange

theorem IsTag.isIdentifier {tag : CString} (h : IsTag tag) : IsIdentifier tag := by
  induction h with
  | subtag h => exact ⟨h.1, fun c hc ↦ isIdentifierChar_of_isAlpha (h.2.2 c hc)⟩
  | cons h _ ih =>
    refine ⟨List.append_ne_nil_of_left_ne_nil h.1 _, fun c hc ↦ ?_⟩
    rcases List.mem_append.mp hc with hc | hc
    · exact isIdentifierChar_of_isAlpha (h.2.2 c hc)
    · rcases List.mem_cons.mp hc with rfl | hc
      · rfl
      · exact ih.2 c hc

theorem IsLanguage.isIdentifier {tag : CString} (h : IsLanguage tag) : IsIdentifier tag := by
  rcases h with rfl | h
  · exact ⟨List.cons_ne_nil _ _, List.all_eq_true.mp rfl⟩
  · exact h.isIdentifier

/-! ## Runs on a scanner that has looked ahead at nothing -/

section Runs

variable {α : Type} {returned source sp : List Token} {failure : Option Exception} {t u : Token}

/-- The tokens that are held when the tokens `ts` were read. -/
def held (returned ts : List Token) : List Token :=
  (ts.reverse ++ returned).take Tokenizer.MAX_PUSHBACKS

theorem held_held (returned ts us : List Token) :
    held (held returned ts) us = held returned (ts ++ us) := by
  rw [held, held, held, List.reverse_append, List.append_assoc]
  rw [List.take_append, List.take_take, Nat.min_eq_left (Nat.sub_le ..), ← List.take_append]

/-- A token that was read last is held. -/
theorem held_concat (returned ts : List Token) (t : Token) :
    held returned (ts ++ [t]) = t :: (ts.reverse ++ returned).take 4 := by
  rw [held, List.reverse_append]
  rfl

theorem getToken_run : getToken ⟨returned, [], t :: source, failure⟩ =
    (.ok t, ⟨held returned [t], [], source, failure⟩) := rfl

theorem getToken_pushedBack (pending : List Token) :
    getToken ⟨returned, t :: pending, source, failure⟩ =
    (.ok t, ⟨t :: returned, pending, source, failure⟩) := rfl

theorem pushBack_run (pending : List Token) : pushBack ⟨t :: returned, pending, source, failure⟩ =
    (.ok (), ⟨returned, t :: pending, source, failure⟩) := rfl

theorem held_one (returned : List Token) (t : Token) : held returned [t] = t :: returned.take 4 := rfl

theorem SkipLWS_other (ht : t.tokType ≠ CRLF ∧ t.tokType ≠ WHITESPACE) :
    SkipLWS ⟨returned, [], t :: source, failure⟩ =
      (.ok false, ⟨(held returned [t]).tail, [t], source, failure⟩) := by
  rw [SkipLWS, Parse.bind_ok getToken_run]
  simp only [ht.1, not_false_eq_true, if_true]
  rw [held_one, Parse.bind_ok (pushBack_run []), Parse.bind_ok (getToken_pushedBack []), if_pos ht.2,
    Parse.bind_ok (pushBack_run [])]
  rfl

theorem SkipLWS_space (ht : t.tokType = WHITESPACE) : SkipLWS ⟨returned, [], t :: source, failure⟩ =
    (.ok true, ⟨held returned [t], [], source, failure⟩) := by
  rw [SkipLWS, Parse.bind_ok getToken_run]
  simp only [ht, reduceCtorEq, not_false_eq_true, if_true]
  rw [held_one, Parse.bind_ok (pushBack_run []), Parse.bind_ok (getToken_pushedBack []),
    if_neg (by simp [ht])]
  rfl

theorem SkipLWS_fold (ht : t.tokType = WHITESPACE) :
    SkipLWS ⟨returned, [], lineEnd :: t :: source, failure⟩ =
    (.ok true, ⟨held (held returned [lineEnd]) [t], [], source, failure⟩) := by
  rw [SkipLWS, Parse.bind_ok getToken_run]
  simp only [lineEnd, not_true_eq_false, if_false]
  rw [Parse.bind_ok getToken_run, if_neg (by simp [ht])]
  rfl

/-- White space is skipped up to a token, which is looked at. -/
theorem SkipOptionalLWS_run (h : IsSpace sp) (ht : t.tokType ≠ CRLF ∧ t.tokType ≠ WHITESPACE) :
    SkipOptionalLWS ⟨returned, [], sp ++ t :: source, failure⟩ =
      (.ok (), ⟨(held returned (sp ++ [t])).tail, [t], source, failure⟩) := by
  induction h generalizing returned with
  | nil =>
    rw [SkipOptionalLWS_eq, List.nil_append, SkipLWS_other ht]
    rfl
  | space h _ _ ih =>
    rw [SkipOptionalLWS_eq, List.cons_append, SkipLWS_space h]
    dsimp only
    rw [ih, held_held]
    rfl
  | fold h _ _ ih =>
    rw [SkipOptionalLWS_eq, List.cons_append, List.cons_append, SkipLWS_fold h]
    dsimp only
    rw [ih, held_held, held_held]
    rfl

/-- White space is skipped up to the end of the line, which is looked at with what is behind it. -/
theorem SkipOptionalLWS_run_crlf (h : IsSpace sp) (hu : u.tokType ≠ WHITESPACE) :
    SkipOptionalLWS ⟨returned, [], sp ++ lineEnd :: u :: source, failure⟩ =
      (.ok (), ⟨(held returned (sp ++ [lineEnd, u])).tail.tail, [lineEnd, u], source, failure⟩) := by
  induction h generalizing returned with
  | nil =>
    have hskip : SkipLWS ⟨returned, [], lineEnd :: u :: source, failure⟩ =
        (.ok false, ⟨(held returned [lineEnd, u]).tail.tail, [lineEnd, u], source, failure⟩) := by
      have htake : (held returned [lineEnd]).take 4 = lineEnd :: returned.take 3 := by
        rw [held_one, List.take_succ_cons, List.take_take]
        rfl
      rw [SkipLWS, Parse.bind_ok getToken_run]
      simp only [lineEnd, not_true_eq_false, if_false]
      rw [Parse.bind_ok getToken_run, if_pos hu, held_one, Parse.bind_ok (pushBack_run []),
        if_pos trivial]
      rw [lineEnd] at htake
      rw [htake, Parse.bind_ok (pushBack_run [u])]
      rfl
    rw [SkipOptionalLWS_eq, List.nil_append, hskip]
    rfl
  | space h _ _ ih =>
    rw [SkipOptionalLWS_eq, List.cons_append, SkipLWS_space h]
    dsimp only
    rw [ih, held_held]
    rfl
  | fold h _ _ ih =>
    rw [SkipOptionalLWS_eq, List.cons_append, List.cons_append, SkipLWS_fold h]
    dsimp only
    rw [ih, held_held, held_held]
    rfl

/-- White space is skipped, and the token behind it is got. -/
theorem skip_getToken_run (h : IsSpace sp) (ht : t.tokType ≠ CRLF ∧ t.tokType ≠ WHITESPACE)
    (f : Token → Parse α) :
    (SkipOptionalLWS >>= fun _ ↦ getToken >>= f) ⟨returned, [], sp ++ t :: source, failure⟩ =
      f t ⟨held returned (sp ++ [t]), [], source, failure⟩ := by
  rw [Parse.bind_ok (SkipOptionalLWS_run h ht), Parse.bind_ok (getToken_pushedBack []), held_concat]
  rfl

theorem loadOptionalQValue_run (text : QText) :
    loadOptionalQValue ⟨returned, [], text.tokens ++ source, failure⟩ =
    (.ok text.q, ⟨held returned text.tokens, [], source, failure⟩) := by
  have hparse : ParseQValue (c_str (word text.text).s) = .ok text.q := by
    rw [word, c_str_of_isIdentifier text.isQValue.isIdentifier, text.isQValue.parse]
  rw [QText.tokens, Layout.tokens_append, loadOptionalQValue,
    skip_getToken_run text.layout.semicolon.property (separator_ne ';'),
    if_neg (not_not.mpr (separator_s ';')), LoadQValue,
    skip_getToken_run text.layout.name.property (word_ne ['q']), if_neg (not_not.mpr (word_s ['q'])),
    skip_getToken_run text.layout.equals.property (separator_ne '='),
      if_neg (not_not.mpr (separator_s '=')),
    skip_getToken_run text.layout.value.property (word_ne text.text), if_neg (not_word_ne _), hparse]
  rw [held_held, held_held, held_held]
  simp only [Layout.tokens, List.append_assoc, List.cons_append, List.nil_append]
  rfl

/-- Where no factor is, the token behind the white space is looked at. -/
theorem loadOptionalQValue_run_none (h : IsSpace sp) (ht : t.tokType ≠ CRLF ∧ t.tokType ≠ WHITESPACE)
    (hs : t.s ≠ [';']) : loadOptionalQValue ⟨returned, [], sp ++ t :: source, failure⟩ =
      (.ok 1000, ⟨(held returned (sp ++ [t])).drop 1, [t], source, failure⟩) := by
  rw [loadOptionalQValue, Parse.bind_ok (SkipOptionalLWS_run h ht),
    Parse.bind_ok (getToken_pushedBack []), if_pos hs,
    Parse.bind_ok (pushBack_run []), List.drop_one]
  rfl

theorem loadOptionalQValue_run_crlf (h : IsSpace sp) (hu : u.tokType ≠ WHITESPACE) :
    loadOptionalQValue ⟨returned, [], sp ++ lineEnd :: u :: source, failure⟩ =
      (.ok 1000, ⟨(held returned (sp ++ [lineEnd, u])).drop 2, [lineEnd, u], source, failure⟩) := by
  have hs : lineEnd.s ≠ [';'] := by decide
  have htail (l : List Token) : l.drop 2 = l.tail.tail := by
    cases l with
    | nil => rfl
    | cons t l => exact List.drop_one
  rw [loadOptionalQValue, Parse.bind_ok (SkipOptionalLWS_run_crlf h hu),
    Parse.bind_ok (getToken_pushedBack [u]), if_pos hs,
    Parse.bind_ok (pushBack_run [u]), htail]
  rfl

theorem SkipOptionalLWS_pending (ht : t.tokType ≠ CRLF ∧ t.tokType ≠ WHITESPACE) :
    SkipOptionalLWS ⟨returned, [t], source, failure⟩ = (.ok (), ⟨returned, [t], source, failure⟩) := by
  have hskip : SkipLWS ⟨returned, [t], source, failure⟩ =
      (.ok false, ⟨returned, [t], source, failure⟩) := by
    rw [SkipLWS, Parse.bind_ok (getToken_pushedBack [])]
    simp only [ht.1, not_false_eq_true, if_true]
    rw [Parse.bind_ok (pushBack_run []), Parse.bind_ok (getToken_pushedBack []), if_pos ht.2,
      Parse.bind_ok (pushBack_run [])]
    rfl
  rw [SkipOptionalLWS_eq, hskip]

theorem behindComma_run (h : IsSpace sp) (ht : t.tokType ≠ CRLF ∧ t.tokType ≠ WHITESPACE) :
    behindComma ⟨returned, [separator ','], sp ++ t :: source, failure⟩ =
      some (some ⟨(held (separator ',' :: returned) (sp ++ [t])).tail, [t], source, failure⟩) := by
  unfold behindComma
  dsimp only [List.cons_append, List.head?_cons, Scanner.unread]
  rw [if_pos (separator_s ','), skipComma, Parse.bind_ok (getToken_pushedBack []),
    SkipOptionalLWS_run h ht]

/-- A token is held while less than five more are read. -/
theorem holds_iff (returned source : List Token) (failure : Option Exception) (t : Token)
    {toks : List Token}
    (la : List Token) (hweight : ∀ t ∈ toks, t.weight = 1) :
    Scanner.Holds ⟨t :: returned, [], toks ++ (la ++ source), failure⟩
      ⟨(held (t :: returned) (toks ++ la)).drop la.length, la, source, failure⟩ =
      decide (toks.length + la.length < Tokenizer.MAX_PUSHBACKS) := by
  have hsum : (toks.map Token.weight).sum = toks.length := by
    clear la
    induction toks with
    | nil => rfl
    | cons u toks ih =>
      rw [List.forall_mem_cons] at hweight
      rw [List.map_cons, List.sum_cons, hweight.1, ih hweight.2, List.length_cons, Nat.add_comm]
  have hleft : Scanner.left ⟨t :: returned, [], toks ++ (la ++ source), failure⟩ =
      toks.length + ((la ++ source).map Token.weight).sum := by
    rw [Scanner.left, Scanner.unread, List.nil_append, List.map_append, List.sum_append, hsum]
  have hleft' (r : List Token) : Scanner.left ⟨r, la, source, failure⟩ =
      ((la ++ source).map Token.weight).sum := rfl
  rw [Scanner.Holds, hleft, hleft', Nat.add_sub_cancel, List.length_drop, held, List.length_take,
    List.length_append, List.length_reverse, List.length_append, List.length_cons]
  refine decide_eq_decide.mpr ?_
  rw [Tokenizer.MAX_PUSHBACKS]
  omega

theorem IsSpace.weight (h : IsSpace sp) : ∀ t ∈ sp, t.weight = 1 := by
  have hspace {t : Token} (ht : t.tokType = WHITESPACE) : t.weight = 1 := weight_of_type (by simp [ht])
  induction h with
  | nil => exact fun t ht ↦ absurd ht List.not_mem_nil
  | space h _ _ ih => exact List.forall_mem_cons.mpr ⟨hspace h, ih⟩
  | fold h _ _ ih => exact List.forall_mem_cons.mpr ⟨rfl, List.forall_mem_cons.mpr ⟨hspace h, ih⟩⟩

theorem QText.weight (text : QText) : ∀ t ∈ text.tokens, t.weight = 1 := by
  have hword (name : CString) : (word name).weight = 1 := weight_of_type fun h ↦ by cases h
  have hseparator (c : Char) : (separator c).weight = 1 := weight_of_type fun h ↦ by cases h
  simp only [QText.tokens, Layout.tokens, List.forall_mem_append, List.forall_mem_cons]
  exact ⟨text.layout.semicolon.property.weight, hseparator ';', text.layout.name.property.weight,
    hword _,
    text.layout.equals.property.weight, hseparator '=', text.layout.value.property.weight, hword _,
    fun t ht ↦ absurd ht List.not_mem_nil⟩

end Runs

/-! ## Loading a tag -/

theorem LanguageTag.spends_load (freed : CString) : Spends [] (LanguageTag.load freed) := by
  have hscanner : Spends [] getScanner := by
    intro s a s' _ h
    cases h
    exact Nat.le_add_right ..
  refine spends_getToken fun t ↦ spends_ite (spends_pushBack (spends_throw _)) ?_
  refine hscanner.bind fun _ ↦ spends_loadOptionalQValue.bind fun _ ↦ hscanner.bind fun _ ↦ ?_
  exact spends_pure _

/-- `LanguageTag`, as `CreateLanguageTag` makes them for lists. -/
def languageTag (freed : CString) : ElementParser LanguageTag where
  load := LanguageTag.load freed
  left_load := (LanguageTag.spends_load freed).left_load

/-- A tag and its quality factor. -/
structure LanguageText where
  tag : CString
  q : Option QText
  isLanguage : IsLanguage tag

namespace LanguageText

/-- The tokens of the quality factor. -/
def qTokens (l : LanguageText) : List Token := (l.q.map QText.tokens).getD []

def tokens (l : LanguageText) : List Token := word l.tag :: l.qTokens

/-- The quality that is declared. -/
def quality (l : LanguageText) : Nat := (l.q.map QText.q).getD 1000

/-- The token of the tag is held when it is read again: no white space is in the factor, or not much
behind a tag without one. -/
def Held (l : LanguageText) (trail : Space) (last : Bool) : Bool :=
  match l.q with
  | some text => text.tokens.length < 5
  | none => trail.val.length + (if last then 2 else 1) < 5

/-- What is loaded. -/
def loaded (freed : CString) (last : Bool) (e : ListEntry LanguageText) : LanguageTag :=
  ⟨if e.element.Held e.trail last then e.element.tag else freed, e.element.quality⟩

end LanguageText

section Loading

variable {returned source : List Token} {failure : Option Exception} {t u : Token}

theorem LanguageTag.load_run (freed : CString) (l : LanguageText) {s' : Scanner} {q : Nat}
    (h : loadOptionalQValue ⟨word l.tag :: returned, [], source, failure⟩ = (.ok q, s')) :
    LanguageTag.load freed ⟨returned, [word l.tag], source, failure⟩ =
      (.ok ⟨if Scanner.Holds ⟨word l.tag :: returned, [], source, failure⟩ s' then l.tag else freed,
        q⟩, s') := by
  have hvalid : ¬ (!ValidLanguageTag (c_str (word l.tag).s)) = true := by
    rw [word_s, c_str_of_isIdentifier l.isLanguage.isIdentifier, l.isLanguage.valid]
    decide
  have hscanner (s : Scanner) : getScanner s = (.ok s, s) := rfl
  rw [LanguageTag.load, Parse.bind_ok (getToken_pushedBack []), if_neg hvalid,
    Parse.bind_ok (hscanner _),
    Parse.bind_ok h, Parse.bind_ok (hscanner _)]
  rfl

variable {e : ListEntry LanguageText} {text : QText} {sp : List Token} (freed : CString)

theorem LanguageText.loaded_some (hq : e.element.q = some text) (last : Bool) :
    LanguageText.loaded freed last e =
    ⟨if decide (text.tokens.length < 5) then e.element.tag else freed, text.q⟩ := by
  rw [loaded, Held, quality, hq]
  rfl

theorem LanguageText.loaded_none (hq : e.element.q = none) (last : Bool) :
    LanguageText.loaded freed last e =
    ⟨if decide (e.trail.val.length + (if last then 2 else 1) < 5) then e.element.tag else freed,
      1000⟩ := by
  rw [loaded, Held, quality, hq]
  rfl

/-- A tag with a quality factor is loaded up to the factor. -/
theorem load_language_some (hq : e.element.q = some text) (last : Bool) :
    LanguageTag.load freed ⟨returned, [word e.element.tag], e.element.qTokens ++ source, failure⟩ =
      (.ok (LanguageText.loaded freed last e),
        ⟨held (word e.element.tag :: returned) text.tokens, [], source, failure⟩) := by
  have htokens : e.element.qTokens = text.tokens := by
    rw [LanguageText.qTokens, hq]
    rfl
  have hholds := holds_iff returned source failure (word e.element.tag) [] text.weight
  rw [List.append_nil, List.length_nil, List.drop_zero, List.nil_append] at hholds
  rw [htokens, LanguageTag.load_run freed e.element (loadOptionalQValue_run text), hholds,
    LanguageText.loaded_some freed hq]
  rfl

/-- A tag without a quality factor is loaded up to the white space behind it, and the tokens `la` are
looked at. -/
theorem load_language_none (returned source : List Token) (failure : Option Exception)
    (hq : e.element.q = none)
    (last : Bool) (la : List Token)
    (hla : la.length = if last then 2 else 1)
    (hload : loadOptionalQValue
    ⟨word e.element.tag :: returned, [], e.trail.val ++ (la ++ source), failure⟩ =
      (.ok 1000,
        ⟨(held (word e.element.tag :: returned) (e.trail.val ++ la)).drop la.length, la, source,
          failure⟩)) :
    LanguageTag.load freed
        ⟨returned, [word e.element.tag], e.element.qTokens ++ (e.trail.val ++ (la ++ source)),
          failure⟩ =
      (.ok (LanguageText.loaded freed last e),
        ⟨(held (word e.element.tag :: returned) (e.trail.val ++ la)).drop la.length, la, source,
          failure⟩) := by
  have htokens : e.element.qTokens = [] := by
    rw [LanguageText.qTokens, hq]
    rfl
  have hholds := holds_iff returned source failure (word e.element.tag) la e.trail.property.weight
  rw [htokens, List.nil_append, LanguageTag.load_run freed e.element hload, hholds,
    LanguageText.loaded_none freed hq, hla]
  rfl

/-- A tag is read, or what is in its place then. -/
theorem readsEntry_language (e : ListEntry LanguageText) :
    ReadsEntry (languageTag freed) (fun s ↦ s.pending.length = 1) e.element.tokens e.trail e.lead
      (LanguageText.loaded freed · e) := by
  have hcomma : (separator ',').s ≠ [';'] := by decide
  constructor
  · intro s t more hI ht hs
    obtain ⟨returned, pending, source, failure⟩ := s
    obtain ⟨v, rfl⟩ := List.length_eq_one_iff.mp hI
    rw [LanguageText.tokens, List.cons_append] at hs
    obtain ⟨rfl, rfl⟩ : v = word e.element.tag ∧ source = _ := List.cons.inj hs
    cases hq : e.element.q with
    | some text =>
      exact ⟨_, _, _, load_language_some freed hq false,
        SkipOptionalLWS_run e.trail.property (separator_ne ','),
        behindComma_run e.lead.property ht, rfl, rfl⟩
    | none =>
      have hload :=
        load_language_none freed returned (e.lead.val ++ t :: more) failure hq false [separator ','] rfl
        (loadOptionalQValue_run_none e.trail.property (separator_ne ',') hcomma)
      exact ⟨_, _, _, hload, SkipOptionalLWS_pending (separator_ne ','),
        behindComma_run e.lead.property ht, rfl, rfl⟩
  · intro s u more hI hu hs
    obtain ⟨returned, pending, source, failure⟩ := s
    obtain ⟨v, rfl⟩ := List.length_eq_one_iff.mp hI
    rw [LanguageText.tokens, List.cons_append] at hs
    obtain ⟨rfl, rfl⟩ : v = word e.element.tag ∧ source = _ := List.cons.inj hs
    cases hq : e.element.q with
    | some text =>
      exact ⟨_, _, load_language_some freed hq true, SkipOptionalLWS_run_crlf e.trail.property hu,
        behindComma_crlf rfl rfl (by decide)⟩
    | none =>
      have hload := load_language_none freed returned more failure hq true [lineEnd, u] rfl
        (loadOptionalQValue_run_crlf e.trail.property hu)
      have hends : EndsElement (lineEnd :: u :: more) := .inr ⟨u, more, rfl, hu⟩
      have hskip : Yields [] SkipOptionalLWS _ _ _ := hends.skip
      obtain ⟨s₂, hskip, hs₂⟩ := hskip
        ⟨(held (word e.element.tag :: returned) (e.trail.val ++ [lineEnd, u])).drop 2, [lineEnd, u],
          more, failure⟩
        rfl (List.nil_prefix ..)
      exact ⟨_, s₂, hload, hskip, behindComma_crlf hs₂ rfl (by decide)⟩

end Loading

end Upnp.Web
