import Upnp.Web.MediaOrder
import Upnp.Web.QValue

/-!
# The texts of media ranges

`MediaRange::load` and what it is made of.  A range without parameters is thrown away, and one whose
first parameter is not `q` is left in the middle of it.
-/

namespace Upnp.Web

open Upnp.Lib
open TokenType
open Parse (throw)

/-- `MediaExtension::load`. -/
def MediaExtension.load : Parse MediaExtension := do
  let token ← getToken
  if token.tokType ≠ IDENTIFIER then throw parseFailure
  else
    let name := token.s
    SkipOptionalLWS
    let token ← getToken
    if token.s ≠ ['='] then throw parseFailure
    else
      SkipOptionalLWS
      let token ← getToken
      if token.tokType ≠ IDENTIFIER ∧ token.tokType ≠ QUOTED_STRING then throw parseFailure
      else return ⟨name, token.s⟩

/-- An extension behind a semicolon. -/
def nextExtension : Parse MediaExtension := do
  SkipOptionalLWS
  MediaExtension.load

theorem spends_nextExtension : Spends [] nextExtension := by
  refine spends_SkipOptionalLWS.bind fun _ ↦ spends_getToken fun t ↦ ?_
  refine spends_ite (spends_throw _) (spends_SkipOptionalLWS.bind fun _ ↦ spends_getToken fun u ↦ ?_)
  refine spends_ite (spends_throw _) (spends_SkipOptionalLWS.bind fun _ ↦ spends_getToken fun v ↦ ?_)
  exact spends_ite (spends_throw _) (spends_pure _)

/-- The loop of `MediaParam::load`, with the extensions that were read. -/
def loadExtensions (extList : List MediaExtension) : Parse (List MediaExtension) := fun s ↦
  match hget : getToken s with
  | (.error e, s) => (.error e, s)
  | (.ok token, s₁) =>
    if hsemicolon : token.s = [';'] then
      match hext : nextExtension s₁ with
      | (.error e, s) => (.error e, s)
      | (.ok ext, s₂) => loadExtensions (extList ++ [ext]) s₂
    else
      match pushBack s₁ with
      | (.error e, s) => (.error e, s)
      | (.ok (), s) => (.ok extList, s)
termination_by s => s.left
decreasing_by
  have hget := left_getToken hget
  have hext := spends_nextExtension.left_load hext
  have hweight := weight_of_char hsemicolon
  omega

/-- `MediaParam::load`.  Nothing is set where no factor is read. -/
def MediaParam.load : Parse (MediaParam (Option Nat)) := do
  let token ← getToken
  if token.s ≠ [';'] then
    pushBack
    throw parseFailure
  else
    SkipOptionalLWS
    let token ← getToken
    if token.s = ['q'] then
      pushBack
      let q ← LoadQValue
      SkipOptionalLWS
      let extList ← loadExtensions []
      return ⟨some q, extList⟩
    else
      SkipOptionalLWS
      let extList ← loadExtensions []
      return ⟨none, extList⟩

/-- `MediaRange::load`. -/
def MediaRange.load : Parse (MediaRange (Option Nat)) := do
  let token ← getToken
  if token.tokType ≠ IDENTIFIER then
    pushBack
    throw parseFailure
  else
    let type := token.s
    SkipOptionalLWS
    let token ← getToken
    if token.s ≠ ['/'] then
      pushBack
      throw parseFailure
    else
      SkipOptionalLWS
      let token ← getToken
      if token.tokType ≠ IDENTIFIER ∨ type = ['*'] ∧ token.s ≠ ['*'] then
        pushBack
        throw parseFailure
      else
        let subtype := token.s
        let mparam ← MediaParam.load
        return ⟨type, subtype, mparam⟩

/-- `MediaExtension::toString`. -/
def MediaExtension.toString (ext : MediaExtension) : CString := ';' :: (ext.name ++ ('=' :: ext.value))

/-- `%1.3f` of a factor. -/
def printQ (q : Nat) : CString :=
  decimal (q / 1000 : Nat) ++
    ['.', Nat.digitChar (q / 100 % 10), Nat.digitChar (q / 10 % 10), Nat.digitChar (q % 10)]

/-- `MediaParam::toString`.  What `sprintf` prints of a factor that was not set is in `memory`. -/
def MediaParam.toString (memory : CString) (mparam : MediaParam (Option Nat)) : CString :=
  (";q=".toList ++ (mparam.q.map printQ).getD memory) ++ mparam.extList.flatMap MediaExtension.toString

/-- `MediaRange::toString`. -/
def MediaRange.toString (memory : CString) (r : MediaRange (Option Nat)) : CString :=
  r.type ++ ('/' :: (r.subtype ++ r.mparam.toString memory))

/-! ## The texts of media ranges -/

/-- A quoted string, whatever was escaped in it, or an identifier. -/
def IsValue (t : Token) : Prop :=
  (∃ name, t = word name ∧ IsIdentifier name) ∨ ∃ body, t = quoted ('"' :: (body ++ ['"']))

/-- A parameter of a range. -/
structure ParamText where
  layout : Layout
  name : CString
  value : Token
  isName : IsIdentifier name
  isValue : IsValue value

/-- A media range, with its parameters in front of the quality factor and behind it. -/
structure RangeText where
  type : CString
  slash : Space
  sub : Space
  subtype : CString
  before : List ParamText
  q : Option (QText × List ParamText)
  isType : IsIdentifier type
  isSubtype : IsIdentifier subtype
  wildcard : type = ['*'] → subtype = ['*']
  notQ : ∀ param ∈ before, param.name ≠ ['q']

def ParamText.tokens (param : ParamText) : List Token := param.layout.tokens param.name param.value

/-- The extension that a parameter is. -/
def ParamText.extension (param : ParamText) : MediaExtension := ⟨param.name, param.value.s⟩

namespace RangeText

/-- The tokens of the parameters. -/
def paramTokens (r : RangeText) : List Token :=
  r.before.flatMap ParamText.tokens ++
    match r.q with
    | none => []
    | some (text, behind) => text.tokens ++ behind.flatMap ParamText.tokens

def tokens (r : RangeText) : List Token :=
  word r.type :: (r.slash.val ++ separator '/' :: (r.sub.val ++ word r.subtype :: r.paramTokens))

/-- All of the text of a range is loaded. -/
def Accepted (r : RangeText) (range : MediaRange (Option Nat)) : Prop :=
  ∀ ts, EndsElement ts → Yields [] MediaRange.load (r.tokens ++ ts) (.ok range) ts

end RangeText

/-- What is printed of a range is loaded as the range, whatever is in the memory. -/
def MediaRange.Reloaded (range : MediaRange (Option Nat)) : Prop :=
  ∀ memory rest, EndsElement (lex rest).1 →
    Yields [] MediaRange.load (lex (range.toString memory ++ rest)).1 (.ok range) (lex rest).1

/-- The text of a range is loaded, and what is printed then is loaded as the same range. -/
def RangeText.RoundTrips (r : RangeText) : Prop := ∃ range, r.Accepted range ∧ range.Reloaded

/-! ## Loading parameters -/

variable {back ts ts' : List Token} {t : Token} {name : CString} {extList : List MediaExtension}

theorem IsValue.tokType (h : IsValue t) : t.tokType = IDENTIFIER ∨ t.tokType = QUOTED_STRING := by
  rcases h with ⟨name, rfl, -⟩ | ⟨body, rfl⟩
  · exact .inl rfl
  · exact .inr rfl

theorem yields_nextExtension (l : Layout) {value : Token}
    (hvalue : value.tokType = IDENTIFIER ∨ value.tokType = QUOTED_STRING) : Yields back nextExtension
      (l.name.val ++ word name :: (l.equals.val ++ separator '=' :: (l.value.val ++ value :: ts)))
      (.ok ⟨name, value.s⟩) ts := by
  have hnot : ¬ (value.tokType ≠ IDENTIFIER ∧ value.tokType ≠ QUOTED_STRING) := by
    rintro ⟨h, h'⟩
    exact hvalue.elim h h'
  have hne : value.tokType ≠ CRLF ∧ value.tokType ≠ WHITESPACE := by
    rcases hvalue with h | h <;> rw [h] <;> decide
  refine (l.name.property.skip_other (word_ne _)).bind (yields_getToken ?_)
  rw [if_neg (not_word_ne _)]
  refine (l.equals.property.skip_other (separator_ne '=')).bind (yields_getToken ?_)
  rw [if_neg (not_not.mpr (separator_s '='))]
  refine (l.value.property.skip_other hne).bind (yields_getToken ?_)
  rw [if_neg hnot]
  exact yields_pure _

theorem loadExtensions_eq (extList : List MediaExtension) : loadExtensions extList = (do
    let token ← getToken
    if token.s = [';'] then
      let ext ← nextExtension
      loadExtensions (extList ++ [ext])
    else
      pushBack
      return extList : Parse (List MediaExtension)) := by
  funext s
  rw [loadExtensions]
  split
  · next hget => rw [Parse.bind_error hget]
  · next token s₁ hget =>
    rw [Parse.bind_ok hget]
    split
    · split
      · next hext => rw [Parse.bind_error hext]
      · next hext => rw [Parse.bind_ok hext]
    · split
      · next hpush => rw [Parse.bind_error hpush]
      · next hpush =>
        rw [Parse.bind_ok hpush]
        rfl

/-- The loop ends in front of what is no semicolon. -/
theorem yields_loadExtensions_other (ht : t.s ≠ [';']) :
    Yields back (loadExtensions extList) (t :: ts) (.ok extList) (t :: ts) := by
  rw [loadExtensions_eq]
  refine Yields.weaken (yields_getToken ?_)
  rw [if_neg ht]
  exact yields_pushBack (yields_pure _)

/-- An extension is read, if no white space is in front of it. -/
theorem yields_loadExtensions_cons (param : ParamText) (h : param.layout.semicolon.val = [])
    {r : Except ParseException (List MediaExtension)}
    (hmore : Yields [] (loadExtensions (extList ++ [param.extension])) ts r ts') :
    Yields back (loadExtensions extList) (param.tokens ++ ts) r ts' := by
  rw [loadExtensions_eq, ParamText.tokens, Layout.tokens_append, h, List.nil_append]
  refine Yields.weaken (yields_getToken ?_)
  rw [if_pos (separator_s ';')]
  exact (yields_nextExtension param.layout param.isValue.tokType).bind hmore

/-- Extensions are read as far as there is no white space in front of one. -/
theorem yields_loadExtensions (ts : List Token) {params : List ParamText}
    (h : ∀ param ∈ params, param.layout.semicolon.val = []) (ht : t.s ≠ [';'])
    (extList : List MediaExtension) :
    Yields [] (loadExtensions extList) (params.flatMap ParamText.tokens ++ t :: ts)
      (.ok (extList ++ params.map ParamText.extension)) (t :: ts) := by
  induction params generalizing extList with
  | nil =>
    rw [List.map_nil, List.append_nil]
    exact yields_loadExtensions_other ht
  | cons param params ih =>
    rw [List.forall_mem_cons] at h
    rw [List.flatMap_cons, List.append_assoc]
    refine yields_loadExtensions_cons param h.1 ?_
    have hmore := ih h.2 (extList ++ [param.extension])
    rw [List.append_assoc] at hmore
    exact hmore

/-- Where a quality factor comes first, what is behind it is read. -/
theorem yields_MediaParam_load (text : QText) (h : text.layout.semicolon.val = []) {ts'' : List Token}
    (hskip : Yields [] SkipOptionalLWS ts (.ok ()) ts') {exts : List MediaExtension}
    (hexts : Yields [] (loadExtensions []) ts' (.ok exts) ts'') :
    Yields [] MediaParam.load (text.tokens ++ ts) (.ok ⟨some text.q, exts⟩) ts'' := by
  rw [QText.tokens, Layout.tokens_append, h, List.nil_append]
  refine yields_getToken ?_
  rw [if_neg (not_not.mpr (separator_s ';'))]
  refine (text.layout.name.property.skip_other (word_ne _)).bind (yields_getToken ?_)
  rw [if_pos (word_s ['q'])]
  refine yields_pushBack ((yields_LoadQValue text.layout text.isQValue).bind (hskip.bind ?_))
  exact hexts.bind (yields_pure _)

/-- A range without parameters is thrown away. -/
theorem yields_MediaParam_load_error (ht : t.s ≠ [';']) :
    Yields [] MediaParam.load (t :: ts) (.error parseFailure) (t :: ts) := by
  refine yields_getToken ?_
  rw [if_pos ht]
  exact yields_pushBack (yields_throw _)

/-- The name of a parameter that is no quality factor is read, and nothing else of it. -/
theorem yields_MediaParam_load_other (ts : List Token) (param : ParamText)
    (h : param.layout.semicolon.val = [])
    (hname : param.name ≠ ['q']) : Yields [] MediaParam.load (param.tokens ++ ts) (.ok ⟨none, []⟩)
      (separator '=' :: (param.layout.value.val ++ param.value :: ts)) := by
  rw [ParamText.tokens, Layout.tokens_append, h, List.nil_append]
  refine yields_getToken ?_
  rw [if_neg (not_not.mpr (separator_s ';'))]
  refine (param.layout.name.property.skip_other (word_ne _)).bind (yields_getToken ?_)
  rw [word_s, if_neg hname]
  refine (param.layout.equals.property.skip_other (separator_ne '=')).bind ?_
  refine Yields.bind (yields_loadExtensions_other ?_) (yields_pure _)
  rw [separator_s]
  decide

/-- A range is loaded as its parameters are. -/
theorem yields_MediaRange_load (r : RangeText)
    (mparam : Except ParseException (MediaParam (Option Nat)))
    (h : Yields [] MediaParam.load (r.paramTokens ++ ts) mparam ts') :
    Yields [] MediaRange.load (r.tokens ++ ts)
      (mparam.map fun mparam ↦ ⟨r.type, r.subtype, mparam⟩) ts' := by
  have hsubtype : ¬ ((word r.subtype).tokType ≠ IDENTIFIER ∨ r.type = ['*'] ∧ r.subtype ≠ ['*']) := by
    rintro (h | ⟨htype, hne⟩)
    · exact not_word_ne _ h
    · exact hne (r.wildcard htype)
  have htokens : r.tokens ++ ts = word r.type :: (r.slash.val ++ separator '/' ::
      (r.sub.val ++ word r.subtype :: (r.paramTokens ++ ts))) := by
    simp only [RangeText.tokens, List.cons_append, List.append_assoc]
  rw [htokens]
  refine yields_getToken ?_
  rw [if_neg (not_word_ne _)]
  refine (r.slash.property.skip_other (separator_ne '/')).bind (yields_getToken ?_)
  rw [if_neg (not_not.mpr (separator_s '/'))]
  refine (r.sub.property.skip_other (word_ne _)).bind (yields_getToken ?_)
  rw [word_s, word_s, if_neg hsubtype]
  cases mparam with
  | error e => exact h.weaken.bind_error
  | ok mparam => exact h.weaken.bind (yields_pure _)

/-! ## Texts that are loaded -/

/-- A text whose quality factor comes first, with no white space in front of it and in front of the
extensions but the first one. -/
def RangeText.Loadable (r : RangeText) : Prop :=
  r.before = [] ∧ ∃ text behind, r.q = some (text, behind) ∧ text.layout.semicolon.val = [] ∧
    ∀ param ∈ behind.tail, param.layout.semicolon.val = []

/-- What the text of a range says. -/
def RangeText.range (r : RangeText) : MediaRange (Option Nat) :=
  ⟨r.type, r.subtype, ⟨r.q.map (·.1.q), r.before.map ParamText.extension ++
    (r.q.map fun q ↦ q.2.map ParamText.extension).getD []⟩⟩

/-- A parameter without white space in front of it. -/
def ParamText.tight (param : ParamText) : ParamText :=
  { param with layout := { param.layout with semicolon := ⟨[], .nil⟩ } }

theorem ParamText.tokens_tight (param : ParamText) :
    param.tokens = param.layout.semicolon.val ++ param.tight.tokens := rfl

theorem ParamText.skip (param : ParamText) :
    Yields back SkipOptionalLWS (param.tokens ++ ts) (.ok ()) (param.tight.tokens ++ ts) := by
  rw [ParamText.tokens_tight, List.append_assoc]
  exact param.layout.semicolon.property.skip_other (separator_ne ';')

theorem IsSpace.head {sp : List Token} (h : IsSpace sp) (hne : sp ≠ []) :
    ∃ t ts, sp = t :: ts ∧ t.s ≠ [';'] ∧ t ≠ separator ',' := by
  cases h with
  | nil => exact absurd rfl hne
  | space h hs _ =>
    refine ⟨_, _, rfl, ?_, ?_⟩
    · intro heq
      rw [heq] at hs
      cases hs ';' (List.mem_singleton_self _)
    · rintro rfl
      cases h
  | fold h hs _ =>
    refine ⟨_, _, rfl, ?_, ?_⟩
    · decide
    · decide

/-- What is behind a range begins with no semicolon. -/
theorem exists_cons_of_ends (sp : Space) (h : EndsElement ts) :
    ∃ t ts', sp.val ++ ts = t :: ts' ∧ t.s ≠ [';'] := by
  by_cases hne : sp.val = []
  · obtain ⟨t, ts', rfl, -, ht⟩ := h.exists_cons
    exact ⟨t, ts', by rw [hne, List.nil_append], ht⟩
  · obtain ⟨t, ts', heq, ht, -⟩ := sp.property.head hne
    exact ⟨t, ts' ++ ts, by rw [heq, List.cons_append], ht⟩

/-- The range is loaded, up to white space. -/
theorem RangeText.Loadable.load {r : RangeText} (h : r.Loadable) (sp : Space) (hts : EndsElement ts) :
    ∃ ts', Yields [] MediaRange.load (r.tokens ++ (sp.val ++ ts)) (.ok r.range) ts' ∧
      Yields [] SkipOptionalLWS ts' (.ok ()) ts ∧ (sp.val = [] → ts' = ts) := by
  obtain ⟨hbefore, text, behind, hq, htext, hbehind⟩ := h
  have hrange : r.range = ⟨r.type, r.subtype, ⟨some text.q, behind.map ParamText.extension⟩⟩ := by
    rw [RangeText.range, hbefore, hq]
    rfl
  have htokens : r.paramTokens = text.tokens ++ behind.flatMap ParamText.tokens := by
    rw [RangeText.paramTokens, hbefore, hq]
    rfl
  obtain ⟨t, ts', hcons, ht⟩ := exists_cons_of_ends sp hts
  cases behind with
  | nil =>
    obtain ⟨u, us, rfl, -, hu⟩ := hts.exists_cons
    refine ⟨u :: us, ?_, hts.skip, fun _ ↦ rfl⟩
    have hload :=
      yields_MediaParam_load text htext (sp.property.skip hts.skip) (yields_loadExtensions_other hu)
    rw [hrange]
    refine yields_MediaRange_load r (.ok _) ?_
    rw [htokens, List.flatMap_nil, List.append_nil]
    exact hload
  | cons param params =>
    refine ⟨sp.val ++ ts, ?_, sp.property.skip hts.skip, fun hnil ↦ by rw [hnil, List.nil_append]⟩
    rw [hrange]
    refine yields_MediaRange_load r (.ok _) ?_
    have htight : ∀ param' ∈ param.tight :: params, param'.layout.semicolon.val = [] :=
      List.forall_mem_cons.mpr ⟨rfl, hbehind⟩
    have hexts := yields_loadExtensions ts' htight ht []
    rw [List.flatMap_cons, List.append_assoc] at hexts
    rw [htokens, List.append_assoc, List.flatMap_cons, List.append_assoc, hcons]
    exact yields_MediaParam_load text htext param.skip hexts

/-- A parser has one result. -/
theorem Yields.unique {α : Type} {p : Parse α} {r r' : Except ParseException α}
    (h : Yields [] p ts r ts')
    {ts'' : List Token} (h' : Yields [] p ts r' ts'') : r = r' ∧ ts' = ts'' := by
  obtain ⟨s, hrun, hs⟩ := h ⟨[], [], ts, none⟩ rfl List.prefix_rfl
  obtain ⟨s', hrun', hs'⟩ := h' ⟨[], [], ts, none⟩ rfl List.prefix_rfl
  rw [hrun] at hrun'
  cases hrun'
  exact ⟨rfl, hs.symm.trans hs'⟩

theorem exists_first {α : Type} {p : α → Prop} {l : List α} (h : ¬ ∀ a ∈ l, p a) :
    ∃ front a rest, l = front ++ a :: rest ∧ (∀ b ∈ front, p b) ∧ ¬ p a := by
  induction l with
  | nil => exact absurd (fun a ha ↦ absurd ha List.not_mem_nil) h
  | cons a l ih =>
    by_cases ha : p a
    · obtain ⟨front, b, rest, rfl, hfront, hb⟩ := ih fun hall ↦ h (List.forall_mem_cons.mpr ⟨ha, hall⟩)
      exact ⟨a :: front, b, rest, rfl, List.forall_mem_cons.mpr ⟨ha, hfront⟩, hb⟩
    · exact ⟨[], a, l, rfl, fun b hb ↦ absurd hb List.not_mem_nil, ha⟩

/-- A text that is not loadable is thrown away, or the loading ends in front of what is no end. -/
theorem RangeText.load_of_not_loadable {r : RangeText} (h : ¬ r.Loadable) (sp : Space)
    (hts : EndsElement ts) :
    (∃ ts', Yields [] MediaRange.load (r.tokens ++ (sp.val ++ ts)) (.error parseFailure) ts') ∨
      ∃ range ts' t ts'', Yields [] MediaRange.load (r.tokens ++ (sp.val ++ ts)) (.ok range) ts' ∧
        Yields [] SkipOptionalLWS ts' (.ok ()) (t :: ts'') ∧ t.tokType ≠ CRLF ∧ t.s ≠ [','] := by
  have herror {t : Token} {ts' : List Token} (hcons : r.paramTokens ++ (sp.val ++ ts) = t :: ts')
      (ht : t.s ≠ [';']) : ∃ ts',
      Yields [] MediaRange.load (r.tokens ++ (sp.val ++ ts)) (.error parseFailure) ts' := by
    refine ⟨t :: ts', yields_MediaRange_load r (.error parseFailure) ?_⟩
    rw [hcons]
    exact yields_MediaParam_load_error ht
  have hspace {l : Layout} {name : CString} {value : Token} {more : List Token}
      (hne : l.semicolon.val ≠ [])
      (heq : r.paramTokens = l.tokens name value ++ more) :
      ∃ ts', Yields [] MediaRange.load (r.tokens ++ (sp.val ++ ts)) (.error parseFailure) ts' := by
    obtain ⟨t, ts', hcons, ht, -⟩ := l.semicolon.property.head hne
    have hhead : r.paramTokens ++ (sp.val ++ ts) = _ := congrArg (· ++ (sp.val ++ ts)) heq
    rw [Layout.tokens, hcons, List.cons_append, List.cons_append, List.cons_append] at hhead
    exact herror hhead ht
  cases hbefore : r.before with
  | cons param params =>
    -- a parameter that is no quality factor
    obtain ⟨more, heq⟩ : ∃ more, r.paramTokens = param.tokens ++ more := by
      rw [RangeText.paramTokens, hbefore, List.flatMap_cons, List.append_assoc]
      exact ⟨_, rfl⟩
    by_cases hsp : param.layout.semicolon.val = []
    · have hname : param.name ≠ ['q'] := r.notQ param (hbefore ▸ List.mem_cons_self ..)
      have hload := yields_MediaParam_load_other (more ++ (sp.val ++ ts)) param hsp hname
      rw [← List.append_assoc, ← heq] at hload
      refine .inr ⟨_, _, _, _, yields_MediaRange_load r _ hload,
        yields_SkipOptionalLWS_other (separator_ne '=').1 (separator_ne '=').2,
          (separator_ne '=').1, ?_⟩
      rw [separator_s]
      decide
    · exact .inl (hspace hsp heq)
  | nil =>
    cases hq : r.q with
    | none =>
      -- no parameter
      obtain ⟨t, ts', hcons, ht⟩ := exists_cons_of_ends sp hts
      have hhead : r.paramTokens ++ (sp.val ++ ts) = t :: ts' := by
        rw [RangeText.paramTokens, hbefore, hq]
        exact hcons
      exact .inl (herror hhead ht)
    | some q =>
      obtain ⟨text, behind⟩ := q
      have heq : r.paramTokens = text.tokens ++ behind.flatMap ParamText.tokens := by
        rw [RangeText.paramTokens, hbefore, hq]
        rfl
      by_cases htext : text.layout.semicolon.val = []
      · have hbehind : ¬ ∀ param ∈ behind.tail, param.layout.semicolon.val = [] := fun hall ↦
          h ⟨hbefore, text, behind, hq, htext, hall⟩
        cases behind with
        | nil => exact absurd (fun param hparam ↦ absurd hparam List.not_mem_nil) hbehind
        | cons param params =>
          -- an extension with white space in front of it
          obtain ⟨front, bad, rest, rfl, hfront, hbad⟩ := exists_first hbehind
          have htight : ∀ param' ∈ param.tight :: front, param'.layout.semicolon.val = [] :=
            List.forall_mem_cons.mpr ⟨rfl, hfront⟩
          obtain ⟨t, ts', hcons, ht, -⟩ := bad.layout.semicolon.property.head hbad
          have hstop : bad.tokens ++ (rest.flatMap ParamText.tokens ++ (sp.val ++ ts)) =
              t :: (ts' ++
                (bad.tight.tokens ++ (rest.flatMap ParamText.tokens ++ (sp.val ++ ts)))) := by
            rw [ParamText.tokens_tight, hcons, List.cons_append, List.cons_append, List.append_assoc]
          have hexts := yields_loadExtensions
            (ts' ++ (bad.tight.tokens ++ (rest.flatMap ParamText.tokens ++ (sp.val ++ ts)))) htight
              ht []
          rw [← hstop, List.flatMap_cons, List.append_assoc] at hexts
          have hload := yields_MediaParam_load text htext param.skip hexts
          have htokens : r.paramTokens ++ (sp.val ++ ts) = text.tokens ++ (param.tokens ++
              (front.flatMap ParamText.tokens ++
                (bad.tokens ++ (rest.flatMap ParamText.tokens ++ (sp.val ++ ts))))) := by
            rw [heq, List.flatMap_cons, List.flatMap_append, List.flatMap_cons]
            simp only [List.append_assoc]
          rw [← htokens] at hload
          refine .inr
            ⟨_, _, separator ';', _, yields_MediaRange_load r _ hload, bad.skip,
              (separator_ne ';').1, ?_⟩
          rw [separator_s]
          decide
      · exact .inl (hspace htext heq)

/-- A text is loaded as what it says exactly if it is loadable. -/
theorem RangeText.accepted_iff {r : RangeText} {range : MediaRange (Option Nat)} :
    r.Accepted range ↔ r.Loadable ∧ range = r.range := by
  constructor
  · intro haccepted
    have hts : EndsElement [separator ','] := .inl ⟨[], rfl⟩
    by_cases h : r.Loadable
    · obtain ⟨ts', hload, -⟩ := h.load ⟨[], .nil⟩ hts
      obtain ⟨heq, -⟩ := (haccepted _ hts).unique hload
      exact ⟨h, Except.ok.inj heq⟩
    · exfalso
      rcases load_of_not_loadable h ⟨[], .nil⟩ hts with ⟨ts', hload⟩ |
        ⟨range', ts', t, ts'', hload, hskip, -, ht⟩
      · obtain ⟨heq, -⟩ := (haccepted _ hts).unique hload
        cases heq
      · obtain ⟨-, rfl⟩ := (haccepted _ hts).unique hload
        obtain ⟨-, heq⟩ := hts.skip.unique hskip
        cases heq
        exact ht rfl
  · rintro ⟨h, rfl⟩ ts hts
    obtain ⟨ts', hload, -, heq⟩ := h.load ⟨[], .nil⟩ hts
    rw [heq rfl, List.nil_append] at hload
    exact hload

/-! ## Loading what is printed -/

theorem digitVal_le (c : Char) : (digitVal 10 c).getD 0 ≤ 9 := by
  cases h : digitVal 10 c with
  | none => exact Nat.zero_le 9
  | some n =>
    rw [digitVal, Option.filter_eq_some_iff, decide_eq_true_eq] at h
    exact Nat.le_of_lt_succ h.2

theorem numeral_three (a b c : Char) : numeral 10 [a, b, c] =
    (digitVal 10 a).getD 0 * 100 + (digitVal 10 b).getD 0 * 10 + (digitVal 10 c).getD 0 := by
  simp only [numeral, List.foldl_cons, List.foldl_nil]
  omega

theorem IsQValue.le {text : CString} {q : Nat} (h : IsQValue text q) : q ≤ 1000 := by
  cases h with
  | zero => exact Nat.zero_le _
  | one => exact Nat.le_refl _
  | @fraction digits hlen hdigits =>
    have hthree : (digits ++ List.replicate (3 - digits.length) '0').length = 3 := by
      rw [List.length_append, List.length_replicate, Nat.add_sub_cancel' hlen]
    obtain ⟨a, b, c, heq⟩ := List.length_eq_three.mp hthree
    rw [heq, numeral_three]
    have ha := digitVal_le a
    have hb := digitVal_le b
    have hc := digitVal_le c
    omega
  | whole => exact Nat.le_refl _

/-- What is printed of a factor is a text of it. -/
theorem isQValue_printQ {q : Nat} (h : q ≤ 1000) : IsQValue (printQ q) q := by
  have hdigit (n : Nat) (hn : n < 10) : (Nat.digitChar n).isDigit = true ∧
      (digitVal 10 (Nat.digitChar n)).getD 0 = n := by
    have hall : (List.range 10).all (fun n ↦ (Nat.digitChar n).isDigit &&
        (digitVal 10 (Nat.digitChar n)).getD 0 == n) = true := rfl
    have hmem := List.all_eq_true.mp hall n (List.mem_range.mpr hn)
    rwa [Bool.and_eq_true, beq_iff_eq] at hmem
  rcases Nat.lt_or_eq_of_le h with hlt | rfl
  · have hzero : q / 1000 = 0 := Nat.div_eq_of_lt hlt
    have h₁ := hdigit (q / 100 % 10) (Nat.mod_lt _ (by decide))
    have h₂ := hdigit (q / 10 % 10) (Nat.mod_lt _ (by decide))
    have h₃ := hdigit (q % 10) (Nat.mod_lt _ (by decide))
    obtain ⟨digits, hdef⟩ : ∃ digits, digits =
        [Nat.digitChar (q / 100 % 10), Nat.digitChar (q / 10 % 10), Nat.digitChar (q % 10)] := ⟨_, rfl⟩
    have hlen : digits.length ≤ 3 := by
      rw [hdef]
      exact Nat.le_refl 3
    have hdigits : ∀ c ∈ digits, c.isDigit = true := by
      rw [hdef]
      simp only [List.forall_mem_cons]
      exact ⟨h₁.1, h₂.1, h₃.1, fun c hc ↦ absurd hc List.not_mem_nil⟩
    have hvalue : numeral 10 (digits ++ List.replicate (3 - digits.length) '0') = q := by
      rw [hdef]
      show numeral 10
        [Nat.digitChar (q / 100 % 10), Nat.digitChar (q / 10 % 10), Nat.digitChar (q % 10)] = q
      rw [numeral_three, h₁.2, h₂.2, h₃.2]
      omega
    have hprint := IsQValue.fraction hlen hdigits
    rw [hvalue, hdef] at hprint
    rw [printQ, hzero]
    exact hprint
  · have hzeros : ∀ c ∈ ['0', '0', '0'], c = '0' := by simp
    exact IsQValue.whole (Nat.le_refl 3) hzeros

/-- No value is a quoted string with a quote or a backslash in it, or a control character. -/
def ParamText.Plain (param : ParamText) : Prop :=
  ∀ body, param.value = quoted ('"' :: (body ++ ['"'])) → ∀ c ∈ body, IsPlainQdText c

/-- The parameters behind the quality factor. -/
def RangeText.behind (r : RangeText) : List ParamText := (r.q.map (·.2)).getD []

/-- No white space. -/
def noSpace : Layout := ⟨⟨[], .nil⟩, ⟨[], .nil⟩, ⟨[], .nil⟩, ⟨[], .nil⟩⟩

/-- A parameter as it is printed. -/
def ParamText.printed (param : ParamText) : ParamText := { param with layout := noSpace }

variable {rest : CString}

theorem lexesAs_value {param : ParamText} (h : param.Plain)
    (hrest : ∀ c ∈ rest.head?, IsIdentifierChar c = false) :
    LexesAs param.value.s [param.value] rest := by
  rcases param.isValue with ⟨name, heq, hname⟩ | ⟨body, heq⟩
  · rw [heq]
    exact lexesAs_word hname hrest
  · have hquoted : IsQuoted ('"' :: (body ++ ['"'])) := ⟨body, rfl, h body heq⟩
    rw [heq]
    exact lexesAs_quoted hquoted

theorem lexesAs_separator {c : Char} (h : c ∈ ['=', ',', ';', '/', '(']) :
    LexesAs [c] [separator c] rest :=
  lex_separator h

theorem lexesAs_extension {param : ParamText} (h : param.Plain)
    (hrest : ∀ c ∈ rest.head?, IsIdentifierChar c = false) :
    LexesAs param.extension.toString param.printed.tokens rest := by
  have hname : ∀ c ∈ (['='] ++ param.value.s ++ rest).head?, IsIdentifierChar c = false := by
    rintro _ ⟨⟩
    rfl
  have hvalue : LexesAs (['='] ++ param.value.s) ([separator '='] ++ [param.value]) rest :=
    (lexesAs_separator (by simp)).append (lexesAs_value h hrest)
  have hsemicolon : LexesAs [';'] [separator ';'] (param.name ++ (['='] ++ param.value.s) ++ rest) :=
    lexesAs_separator (by simp)
  exact hsemicolon.append ((lexesAs_word param.isName hname).append hvalue)

theorem head_of_extensions (params : List ParamText)
    (hrest : ∀ c ∈ rest.head?, IsIdentifierChar c = false) :
    ∀ c ∈ ((params.map ParamText.extension).flatMap MediaExtension.toString ++ rest).head?,
      IsIdentifierChar c = false := by
  cases params with
  | nil => exact hrest
  | cons param params =>
    rintro _ ⟨⟩
    rfl

theorem lexesAs_extensions {params : List ParamText} (h : ∀ param ∈ params, param.Plain)
    (hrest : ∀ c ∈ rest.head?, IsIdentifierChar c = false) :
    LexesAs ((params.map ParamText.extension).flatMap MediaExtension.toString)
      ((params.map ParamText.printed).flatMap ParamText.tokens) rest := by
  induction params with
  | nil => rfl
  | cons param params ih =>
    rw [List.forall_mem_cons] at h
    rw [List.map_cons, List.map_cons, List.flatMap_cons, List.flatMap_cons]
    exact (lexesAs_extension h.1 (head_of_extensions params hrest)).append (ih h.2)

/-- The text that is printed of what was loaded. -/
def RangeText.printed (r : RangeText) (text : QText) : RangeText where
  type := r.type
  slash := ⟨[], .nil⟩
  sub := ⟨[], .nil⟩
  subtype := r.subtype
  before := []
  q := some
    (⟨noSpace, printQ text.q, text.q, isQValue_printQ text.isQValue.le⟩, r.behind.map ParamText.printed)
  isType := r.isType
  isSubtype := r.isSubtype
  wildcard := r.wildcard
  notQ param h := absurd h List.not_mem_nil

theorem RangeText.loadable_printed (r : RangeText) (text : QText) : (r.printed text).Loadable := by
  refine ⟨rfl, _, _, rfl, rfl, fun param hparam ↦ ?_⟩
  obtain ⟨param', -, rfl⟩ := List.mem_map.mp (List.mem_of_mem_tail hparam)
  rfl

/-- The head of what is printed of a range, up to the extensions. -/
def RangeText.printedHead (r : RangeText) (text : QText) : CString :=
  r.type ++ (['/'] ++ (r.subtype ++ ([';'] ++ (['q'] ++ (['='] ++ printQ text.q)))))

theorem lexesAs_printedHead (r : RangeText) (text : QText)
    (hrest : ∀ c ∈ rest.head?, IsIdentifierChar c = false) :
    LexesAs (r.printedHead text) (word r.type :: separator '/' :: word r.subtype ::
      (noSpace.tokens ['q'] (word (printQ text.q)))) rest := by
  have hq : IsIdentifier ['q'] := ⟨List.cons_ne_nil _ _, List.all_eq_true.mp rfl⟩
  have hseparator {c : Char} {text rest : CString} (h : c ∈ ['=', ',', ';', '/', '(']) :
      ∀ d ∈ ([c] ++ text ++ rest).head?, IsIdentifierChar d = false := by
    rintro _ ⟨⟩
    simp only [List.mem_cons, List.not_mem_nil, or_false] at h
    rcases h with rfl | rfl | rfl | rfl | rfl <;> rfl
  have hvalue : LexesAs (printQ text.q) [word (printQ text.q)] rest :=
    lexesAs_word (isQValue_printQ text.isQValue.le).isIdentifier hrest
  refine (lexesAs_word r.isType (hseparator (by simp))).append ?_
  refine (lexesAs_separator (by simp)).append ?_
  refine (lexesAs_word r.isSubtype (hseparator (by simp))).append ?_
  refine (lexesAs_separator (by simp)).append ?_
  refine (lexesAs_word hq (hseparator (by simp))).append ?_
  exact (lexesAs_separator (by simp)).append hvalue

/-- A text whose first token is no identifier begins with no character of one. -/
theorem head_of_lex_other {t : Token} {ts : List Token} (h : (lex rest).1 = t :: ts)
    (ht : t.tokType ≠ IDENTIFIER) :
    ∀ c ∈ rest.head?, IsIdentifierChar c = false := by
  cases rest with
  | nil => exact fun c hc ↦ absurd hc (by simp)
  | cons c rest =>
    rintro _ ⟨⟩
    rw [Bool.eq_false_iff]
    intro hident
    have hlex : lexToken c rest =
        .ok (⟨IDENTIFIER, c :: rest.takeWhile IsIdentifierChar⟩, rest.dropWhile IsIdentifierChar) := by
      rw [lexToken, if_pos hident]
    rw [lex_cons hlex] at h
    obtain ⟨rfl, -⟩ := List.cons.inj h
    exact ht rfl

theorem head_of_ends (h : EndsElement (lex rest).1) : ∀ c ∈ rest.head?, IsIdentifierChar c = false := by
  rcases h with ⟨ts', heq⟩ | ⟨u, ts', heq, -⟩
  · exact head_of_lex_other heq fun h ↦ by cases h
  · exact head_of_lex_other heq fun h ↦ by cases h

theorem RangeText.Loadable.exists_text {r : RangeText} (h : r.Loadable) : ∃ text, ∀ memory,
    r.range = ⟨r.type, r.subtype, ⟨some text.q, r.behind.map ParamText.extension⟩⟩ ∧
      r.range.toString memory =
        r.printedHead text ++ (r.behind.map ParamText.extension).flatMap MediaExtension.toString := by
  obtain ⟨hbefore, text, behind, hq, -⟩ := h
  refine ⟨text, fun memory ↦ ?_⟩
  have hrange : r.range = ⟨r.type, r.subtype, ⟨some text.q, r.behind.map ParamText.extension⟩⟩ := by
    rw [RangeText.range, RangeText.behind, hbefore, hq]
    rfl
  refine ⟨hrange, ?_⟩
  rw [hrange]
  show r.type ++ ('/' :: (r.subtype ++ ((";q=".toList ++ printQ text.q) ++ _))) = _
  rw [RangeText.printedHead]
  have hq : ";q=".toList = [';', 'q', '='] := rfl
  simp only [hq, List.append_assoc, List.cons_append, List.nil_append]

/-- What is printed of a range is loaded as the range, if all values are plain. -/
theorem RangeText.Loadable.reloaded {r : RangeText} (h : r.Loadable)
    (hplain : ∀ param ∈ r.behind, param.Plain) :
    r.range.Reloaded := by
  intro memory rest hends
  have hrest := head_of_ends hends
  obtain ⟨text, htext⟩ := h.exists_text
  have hlex := (lexesAs_printedHead r text (head_of_extensions r.behind hrest)).append
    (lexesAs_extensions hplain hrest)
  have hrange : (r.printed text).range = r.range := by
    have hext : (r.behind.map ParamText.printed).map ParamText.extension =
        r.behind.map ParamText.extension := by
      rw [List.map_map]
      rfl
    rw [(htext memory).1, ← hext]
    rfl
  rw [(htext memory).2, hlex, ← hrange]
  exact RangeText.accepted_iff.mpr ⟨r.loadable_printed text, rfl⟩ _ hends

/-! ## Values that are not plain -/

theorem loadExtensions_keeps {s s' : Scanner} {exts : List MediaExtension}
    (h : loadExtensions extList s = (.ok exts, s')) : extList <+: exts := by
  fun_induction loadExtensions extList s with
  | case1 => cases h
  | case2 => cases h
  | case3 extList s token s₁ hget hsemicolon ext s₂ hext ih =>
    exact (List.prefix_append ..).trans (ih h)
  | case4 => cases h
  | case5 =>
    cases h
    exact List.prefix_rfl

variable {exts : List MediaExtension}

/-- What was read stays. -/
theorem misses_loadExtensions (h : ¬ extList <+: exts) :
    Misses back (loadExtensions extList) ts exts := by
  intro s _ _ hrun
  cases hload : loadExtensions extList s with
  | mk r s' =>
    rw [hload] at hrun
    dsimp only at hrun
    subst hrun
    exact h (loadExtensions_keeps hload)

theorem misses_loadExtensions_cons {param : ParamText} (h : param.layout.semicolon.val = [])
    (hmore : Misses [] (loadExtensions (extList ++ [param.extension])) ts exts) :
    Misses back (loadExtensions extList) (param.tokens ++ ts) exts := by
  rw [loadExtensions_eq, ParamText.tokens, Layout.tokens_append, h, List.nil_append]
  refine Misses.weaken (misses_getToken ?_)
  rw [if_pos (separator_s ';')]
  exact (yields_nextExtension param.layout param.isValue.tokType).misses hmore

/-- Behind the equals sign there is no value. -/
theorem misses_nextExtension (ext : MediaExtension) :
    Misses back nextExtension [word name, separator '='] ext := by
  refine (yields_SkipOptionalLWS_other (word_ne name).1 (word_ne name).2).misses (misses_getToken ?_)
  rw [if_neg (not_word_ne _)]
  refine (yields_SkipOptionalLWS_other (separator_ne '=').1 (separator_ne '=').2).misses
    (misses_getToken ?_)
  rw [if_neg (not_not.mpr (separator_s '='))]
  refine misses_skip_getToken fun s h ↦ ?_
  cases h

/-- An extension whose value is not plain is not read as it was. -/
theorem misses_of_not_plain {param : ParamText} (h : ¬ param.Plain) (rest : CString)
    (more : List MediaExtension) : Misses back (loadExtensions extList)
      (lex (param.extension.toString ++ rest)).1 (extList ++ param.extension :: more) := by
  obtain ⟨body, hbody⟩ := not_forall.mp h
  obtain ⟨hvalue, hplain⟩ := Classical.not_imp.mp hbody
  have hs : param.value.s = '"' :: (body ++ ['"']) := by
    rw [hvalue]
    rfl
  have htext : param.extension.toString ++ rest =
      ';' :: (param.name ++ '=' :: '"' :: (body ++ '"' :: rest)) := by
    show ';' :: (param.name ++ ('=' :: param.value.s)) ++ rest = _
    simp only [hs, List.append_assoc, List.cons_append, List.nil_append]
  have hequals : ∀ c ∈ ('=' :: '"' :: (body ++ '"' :: rest)).head?, IsIdentifierChar c = false := by
    rintro _ ⟨⟩
    rfl
  have hlex : (lex (param.extension.toString ++ rest)).1 = separator ';' :: word param.name ::
      separator '=' :: (lex ('"' :: (body ++ '"' :: rest))).1 := by
    rw [htext, lex_separator (by simp), lexesAs_word param.isName hequals, lex_separator (by simp)]
    rfl
  rw [hlex, loadExtensions_eq]
  refine Misses.weaken (misses_getToken ?_)
  rw [if_pos (separator_s ';')]
  cases hquoted : lexQuoted ['"'] (body ++ '"' :: rest) with
  | error e =>
    have htoken : lexToken '"' (body ++ '"' :: rest) = .error e := by
      rw [lexToken, if_neg (by decide), if_neg (by decide), if_neg (by decide), if_neg (by decide),
        if_pos rfl, hquoted]
    rw [lex_error htoken]
    exact misses_bind misses_nextExtension
  | ok read =>
    obtain ⟨text, rest'⟩ := read
    have htoken : lexToken '"' (body ++ '"' :: rest) = .ok (quoted text, rest') := by
      rw [lexToken, if_neg (by decide), if_neg (by decide), if_neg (by decide), if_neg (by decide),
        if_pos rfl, hquoted]
      rfl
    have hne : text ≠ '"' :: (body ++ ['"']) := by
      rintro rfl
      exact hplain (plain_of_lexQuoted hquoted)
    rw [lex_cons htoken]
    refine (yields_nextExtension noSpace (.inr rfl)).misses (misses_loadExtensions ?_)
    rw [List.prefix_append_right_inj, List.cons_prefix_cons]
    rintro ⟨heq, -⟩
    exact hne ((congrArg MediaExtension.value heq).trans hs)

/-- Extensions that are not all plain are not read as they were. -/
theorem misses_extensions {params : List ParamText} (h : ¬ ∀ param ∈ params, param.Plain)
    (hrest : ∀ c ∈ rest.head?, IsIdentifierChar c = false) (extList : List MediaExtension) :
    Misses back (loadExtensions extList)
      (lex ((params.map ParamText.extension).flatMap MediaExtension.toString ++ rest)).1
      (extList ++ params.map ParamText.extension) := by
  induction params generalizing extList back with
  | nil => exact absurd (fun param hparam ↦ absurd hparam List.not_mem_nil) h
  | cons param params ih =>
    rw [List.map_cons, List.flatMap_cons, List.append_assoc]
    by_cases hplain : param.Plain
    · have hmore : ¬ ∀ param ∈ params, param.Plain :=
        fun hall ↦ h (List.forall_mem_cons.mpr ⟨hplain, hall⟩)
      have hrun : Misses [] _ _ _ := ih hmore (extList ++ [param.extension])
      rw [List.append_assoc] at hrun
      rw [lexesAs_extension hplain (head_of_extensions params hrest)]
      exact misses_loadExtensions_cons rfl hrun
    · exact misses_of_not_plain hplain _ _

theorem misses_MediaParam_load (text : QText) (h : text.layout.semicolon.val = [])
    (hskip : Yields [] SkipOptionalLWS ts (.ok ()) ts')
    (hexts : Misses [] (loadExtensions []) ts' exts) :
    Misses [] MediaParam.load (text.tokens ++ ts) ⟨some text.q, exts⟩ := by
  rw [QText.tokens, Layout.tokens_append, h, List.nil_append]
  refine misses_getToken ?_
  rw [if_neg (not_not.mpr (separator_s ';'))]
  refine (text.layout.name.property.skip_other (word_ne _)).misses (misses_getToken ?_)
  rw [if_pos (word_s ['q'])]
  refine misses_pushBack ((yields_LoadQValue text.layout text.isQValue).misses (hskip.misses ?_))
  refine hexts.map fun exts' heq ↦ ?_
  injection heq

theorem misses_MediaRange_load (r : RangeText) {mparam : MediaParam (Option Nat)}
    (h : Misses [] MediaParam.load ts mparam) : Misses [] MediaRange.load
      (word r.type :: separator '/' :: word r.subtype :: ts) ⟨r.type, r.subtype, mparam⟩ := by
  have hsubtype : ¬ ((word r.subtype).tokType ≠ IDENTIFIER ∨ r.type = ['*'] ∧ r.subtype ≠ ['*']) := by
    rintro (h | ⟨htype, hne⟩)
    · exact not_word_ne _ h
    · exact hne (r.wildcard htype)
  refine misses_getToken ?_
  rw [if_neg (not_word_ne _)]
  refine (yields_SkipOptionalLWS_other (separator_ne '/').1 (separator_ne '/').2).misses
    (misses_getToken ?_)
  rw [if_neg (not_not.mpr (separator_s '/'))]
  refine (yields_SkipOptionalLWS_other (word_ne _).1 (word_ne _).2).misses (misses_getToken ?_)
  rw [word_s, word_s, if_neg hsubtype]
  refine h.map fun mparam' heq ↦ ?_
  injection heq

/-- What is printed of a range whose values are not all plain is not loaded as the range. -/
theorem RangeText.Loadable.not_reloaded {r : RangeText} (h : r.Loadable)
    (hplain : ¬ ∀ param ∈ r.behind, param.Plain) : ¬ r.range.Reloaded := by
  intro hreloaded
  have hends : EndsElement (lex [',']).1 := by
    rw [lex_separator (by simp), lex_nil]
    exact .inl ⟨[], rfl⟩
  have hrest := head_of_ends hends
  obtain ⟨text, htext⟩ := h.exists_text
  obtain ⟨hrange, hprint⟩ := htext []
  -- an extension is printed behind the head
  have hhead : ∃ ts,
      (lex ((r.behind.map ParamText.extension).flatMap MediaExtension.toString ++ [','])).1 =
      separator ';' :: ts := by
    cases hbehind : r.behind with
    | nil =>
      rw [hbehind] at hplain
      exact absurd (fun param hparam ↦ absurd hparam List.not_mem_nil) hplain
    | cons param params => exact ⟨_, congrArg Prod.fst (lex_separator (by simp))⟩
  obtain ⟨ts, hts⟩ := hhead
  have hskip : Yields [] SkipOptionalLWS (separator ';' :: ts) (.ok ()) (separator ';' :: ts) :=
    yields_SkipOptionalLWS_other (separator_ne ';').1 (separator_ne ';').2
  have hexts : Misses [] (loadExtensions []) _ _ := misses_extensions hplain hrest []
  rw [hts] at hexts
  have hmisses := misses_MediaRange_load r (misses_MediaParam_load
    ⟨noSpace, printQ text.q, text.q, isQValue_printQ text.isQValue.le⟩ rfl hskip hexts)
  have hload := hreloaded [] [','] hends
  rw [hprint, hrange, List.append_assoc,
    lexesAs_printedHead r text (head_of_extensions r.behind hrest)] at hload
  dsimp only at hload
  rw [hts] at hload
  obtain ⟨s, hrun, -⟩ := hload ⟨[], [], _, none⟩ rfl List.prefix_rfl
  exact hmisses _ rfl List.prefix_rfl (congrArg Prod.fst hrun)

/-- The text of a range is loaded and what is printed then is loaded again exactly if the quality
factor comes first, no white space is in front of it and of the extensions but the first one, and
the values are plain. -/
theorem mediaRange_roundTrips_iff (r : RangeText) :
    r.RoundTrips ↔ r.Loadable ∧ ∀ param ∈ r.behind, param.Plain := by
  constructor
  · rintro ⟨range, haccepted, hreloaded⟩
    obtain ⟨h, rfl⟩ := RangeText.accepted_iff.mp haccepted
    refine ⟨h, ?_⟩
    by_contra hplain
    exact h.not_reloaded hplain hreloaded
  · rintro ⟨h, hplain⟩
    exact ⟨r.range, RangeText.accepted_iff.mpr ⟨h, rfl⟩, h.reloaded hplain⟩

theorem text_ne_wildcard : "text".toList ≠ ['*'] := by simp

/-- `text/html`. -/
def textHtml : RangeText where
  type := "text".toList
  slash := ⟨[], .nil⟩
  sub := ⟨[], .nil⟩
  subtype := "html".toList
  before := []
  q := none
  isType := ⟨List.cons_ne_nil _ _, List.all_eq_true.mp rfl⟩
  isSubtype := ⟨List.cons_ne_nil _ _, List.all_eq_true.mp rfl⟩
  wildcard h := absurd h text_ne_wildcard
  notQ param h := absurd h List.not_mem_nil

/-- A range without parameters is not loaded. -/
theorem not_mediaRange_roundTrips : ¬ textHtml.RoundTrips := by
  rintro ⟨range, haccepted, -⟩
  obtain ⟨⟨-, text, behind, hq, -⟩, -⟩ := RangeText.accepted_iff.mp haccepted
  cases hq

end Upnp.Web
