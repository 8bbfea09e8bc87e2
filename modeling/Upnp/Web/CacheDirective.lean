import Upnp.Web.CommaList
import Upnp.Web.Lex
import Upnp.Web.LoadNum

/-!
# Cache directives

`CacheDirective`: a directive has the arguments that its type says are used.  What is printed for
`s-maxage` is no directive, and a quoted value is printed with a second pair of quotes.
-/

namespace Upnp.Web

open Upnp.Lib
open Parse (throw)

/-- `CacheDirective::ExtensionType`. -/
inductive ExtensionType where
  | IDENTIFIER
  | QUOTED_STRING
deriving DecidableEq, Repr

/-- `CacheDirective`, by its type.  The seconds of `MAX_STALE` may be not valid. -/
inductive CacheDirective where
  | NO_CACHE
  | NO_CACHE_FIELDS (fields : CString)
  | NO_STORE
  | MAX_AGE (deltaSeconds : Int)
  | MAX_STALE (deltaSeconds : Option Int)
  | MIN_FRESH (deltaSeconds : Int)
  | NO_TRANSFORM
  | ONLY_IF_CACHED
  | PUBLIC
  | PRIVATE (fields : CString)
  | MUST_REVALIDATE
  | PROXY_REVALIDATE
  | S_MAXAGE (deltaSeconds : Int)
  | EXTENSION (extType : ExtensionType) (extensionName extensionValue : CString)
deriving DecidableEq, Repr

namespace CacheDirective

/-- `CacheDirective::toString`. -/
def toString : CacheDirective → CString
  | NO_CACHE => "no-cache".toList
  | NO_CACHE_FIELDS fields => "no-cache=".toList ++ fields
  | NO_STORE => "no-store".toList
  | MAX_AGE deltaSeconds => "max-age = ".toList ++ decimal deltaSeconds
  | MAX_STALE none => "max-stale".toList
  | MAX_STALE (some deltaSeconds) => "max-stale".toList ++ (" = ".toList ++ decimal deltaSeconds)
  | MIN_FRESH deltaSeconds => "min-fresh = ".toList ++ decimal deltaSeconds
  | NO_TRANSFORM => "no-transform".toList
  | ONLY_IF_CACHED => "only-if-cached".toList
  | PUBLIC => "public".toList
  | PRIVATE fields =>
    "private".toList ++ if 0 < fields.length then " = ".toList ++ fields else []
  | MUST_REVALIDATE => "must-revalidate".toList
  | PROXY_REVALIDATE => "proxy-revalidate".toList
  | S_MAXAGE deltaSeconds => "max age = ".toList ++ decimal deltaSeconds
  | EXTENSION .IDENTIFIER name value => name ++ (" = ".toList ++ value)
  | EXTENSION .QUOTED_STRING name value => name ++ (" = ".toList ++ ('"' :: (value ++ ['"'])))

/-- `readFields`, with the fields that were read. -/
def readFields : Parse (Option CString) := do
  SkipOptionalLWS
  let token ← getToken
  if token.s = ['='] then
    SkipOptionalLWS
    let token ← getToken
    if token.tokType ≠ .QUOTED_STRING then
      pushBack
      throw parseFailure
    else return some token.s
  else
    pushBack
    return none

/-- `readDeltaSeconds`, with the seconds that were read. -/
def readDeltaSeconds (optional : Bool) : Parse (Option Int) := do
  SkipOptionalLWS
  let token ← getToken
  if token.s = ['='] then
    SkipOptionalLWS
    let num ← loadNum 10
    return some num
  else
    pushBack
    if !optional then throw parseFailure
    else return none

/-- `readDeltaSeconds( scanner, false )`, which throws where no seconds are read. -/
def readSeconds : Parse Int := do
  match ← readDeltaSeconds false with
  | some num => return num
  | none => throw parseFailure

/-- `readExtension`. -/
def readExtension : Parse (ExtensionType × CString) := do
  SkipOptionalLWS
  let token ← getToken
  if token.s ≠ ['='] then
    pushBack
    throw parseFailure
  else
    SkipOptionalLWS
    let token ← getToken
    if token.tokType = .IDENTIFIER then return (.IDENTIFIER, token.s)
    else if token.tokType = .QUOTED_STRING then return (.QUOTED_STRING, token.s)
    else
      pushBack
      throw parseFailure

/-- The branches of `CacheDirective::load`, by the name that was read. -/
def loadNamed (name : CString) : Parse CacheDirective :=
  if name = "no-cache".toList then do
    match ← readFields with
    | some fields => return NO_CACHE_FIELDS fields
    | none => return NO_CACHE
  else if name = "no-store".toList then return NO_STORE
  else if name = "max-age".toList then return MAX_AGE (← readSeconds)
  else if name = "max-stale".toList then return MAX_STALE (← readDeltaSeconds true)
  else if name = "min-fresh".toList then return MIN_FRESH (← readSeconds)
  else if name = "no-transform".toList then return NO_TRANSFORM
  else if name = "only-if-cached".toList then return ONLY_IF_CACHED
  else if name = "public".toList then return PUBLIC
  else if name = "private".toList then return PRIVATE ((← readFields).getD [])
  else if name = "must-revalidate".toList then return MUST_REVALIDATE
  else if name = "proxy-revalidate".toList then return PROXY_REVALIDATE
  else if name = "s-maxage".toList then return S_MAXAGE (← readSeconds)
  else do
    let (extType, extensionValue) ← readExtension
    return EXTENSION extType name extensionValue

/-- `CacheDirective::load`. -/
def load : Parse CacheDirective := do
  let token ← getToken
  if token.tokType ≠ .IDENTIFIER then
    pushBack
    throw parseFailure
  else loadNamed token.s

/-! ## What is loaded takes nothing into the stream -/

theorem spends_loadNum (base : Nat) : Spends [] (loadNum base) := by
  refine spends_getToken fun t ↦ ?_
  dsimp only
  split
  · exact spends_pushBack (spends_throw _)
  split
  · exact spends_pushBack (spends_throw _)
  · exact spends_pure _

theorem spends_readFields : Spends [] readFields := by
  refine spends_SkipOptionalLWS.bind fun _ ↦ spends_getToken fun t ↦ ?_
  split
  · refine spends_SkipOptionalLWS.bind fun _ ↦ spends_getToken fun u ↦ ?_
    split
    · exact spends_pushBack (spends_throw _)
    · exact spends_pure _
  · exact spends_pushBack (spends_pure _)

theorem spends_readDeltaSeconds (optional : Bool) : Spends [] (readDeltaSeconds optional) := by
  refine spends_SkipOptionalLWS.bind fun _ ↦ spends_getToken fun t ↦ ?_
  split
  · exact spends_SkipOptionalLWS.bind fun _ ↦ (spends_loadNum 10).bind fun _ ↦ spends_pure _
  · refine spends_pushBack ?_
    split
    · exact spends_throw _
    · exact spends_pure _

theorem spends_readSeconds : Spends [] readSeconds := by
  refine (spends_readDeltaSeconds false).bind fun seconds ↦ ?_
  cases seconds with
  | none => exact spends_throw _
  | some num => exact spends_pure _

theorem spends_readExtension : Spends [] readExtension := by
  refine spends_SkipOptionalLWS.bind fun _ ↦ spends_getToken fun t ↦ ?_
  split
  · exact spends_pushBack (spends_throw _)
  · refine spends_SkipOptionalLWS.bind fun _ ↦ spends_getToken fun u ↦ ?_
    split
    · exact spends_pure _
    split
    · exact spends_pure _
    · exact spends_pushBack (spends_throw _)

theorem spends_loadNamed (name : CString) : Spends [] (loadNamed name) := by
  have hseconds (f : Int → CacheDirective) : Spends [] (do return f (← readSeconds)) :=
    spends_readSeconds.bind fun _ ↦ spends_pure _
  refine spends_ite (spends_readFields.bind fun fields ↦ ?_) ?_
  · cases fields with
    | none => exact spends_pure _
    | some fields => exact spends_pure _
  refine spends_ite (spends_pure _) ?_
  refine spends_ite (hseconds MAX_AGE) ?_
  refine spends_ite ((spends_readDeltaSeconds true).bind fun _ ↦ spends_pure _) ?_
  refine spends_ite (hseconds MIN_FRESH) ?_
  refine spends_ite (spends_pure _) ?_
  refine spends_ite (spends_pure _) ?_
  refine spends_ite (spends_pure _) ?_
  refine spends_ite (spends_readFields.bind fun _ ↦ spends_pure _) ?_
  refine spends_ite (spends_pure _) ?_
  refine spends_ite (spends_pure _) ?_
  refine spends_ite (hseconds S_MAXAGE) ?_
  exact spends_readExtension.bind fun _ ↦ spends_pure _

theorem spends_load : Spends [] load := by
  refine spends_getToken fun t ↦ ?_
  split
  · exact spends_pushBack (spends_throw _)
  · exact Spends.weaken (spends_loadNamed _)

/-- `CacheDirective`, as `CreateCacheDirective` makes them for lists. -/
def cacheDirective : ElementParser CacheDirective where
  load := load
  left_load := spends_load.left_load

/-! ## What is loaded of the tokens of a directive -/

variable {ts ts' : List Token} {t : Token} {name value : CString} {num : Int}

theorem yields_readFields_none (h : EndsElement ts) : Yields [] readFields ts (.ok none) ts := by
  obtain ⟨t, ts', rfl, hne, -⟩ := h.exists_cons
  refine h.skip.bind (yields_getToken ?_)
  rw [if_neg hne]
  exact yields_pushBack (yields_pure _)

theorem yields_readFields (b : Bool) (fields : CString) :
    Yields [] readFields (equals b ++ quoted fields :: ts) (.ok (some fields)) ts := by
  rw [equals_append]
  refine (yields_skip b (separator_ne '=')).bind (yields_getToken ?_)
  rw [if_pos (separator_s '=')]
  refine (yields_skip b (quoted_ne _)).bind (yields_getToken ?_)
  exact yields_pure _

/-- A number that fits is loaded. -/
theorem yields_loadNum (h : IsNumber 10 value num) (back : List Token) :
    Yields back (loadNum 10) (word value :: ts) (.ok num) ts := by
  obtain ⟨hne, hdigits, rfl, hle⟩ := h
  have hspells := spells_of_digits hdigits hne
  have hstr : c_str (word value).s = value := c_str_of_digits hdigits
  refine Yields.weaken (yields_getToken ?_)
  simp only [hstr, hspells.strtol.1, hspells.strtol.2, Option.getD_some, wrap32_clampLong hle]
  rw [if_neg (by simp), if_neg fun h ↦ ?_]
  · exact yields_pure _
  · exact wrap32_ne_limit _ (wrap32_clampLong hle ▸ h.1)

theorem yields_readDeltaSeconds (optional : Bool) (h : IsNumber 10 value num) :
    Yields [] (readDeltaSeconds optional) (equals true ++ word value :: ts) (.ok (some num)) ts := by
  rw [equals_append]
  refine (yields_skip true (separator_ne '=')).bind (yields_getToken ?_)
  rw [if_pos (separator_s '=')]
  refine (yields_skip true (word_ne value)).bind ?_
  exact (yields_loadNum h []).bind (yields_pure _)

theorem yields_readDeltaSeconds_none (h : EndsElement ts) :
    Yields [] (readDeltaSeconds true) ts (.ok none) ts := by
  obtain ⟨t, ts', rfl, hne, -⟩ := h.exists_cons
  refine h.skip.bind (yields_getToken ?_)
  rw [if_neg hne]
  exact yields_pushBack (yields_pure _)

theorem yields_readSeconds (h : IsNumber 10 value num) :
    Yields [] readSeconds (equals true ++ word value :: ts) (.ok num) ts :=
  (yields_readDeltaSeconds false h).bind (yields_pure _)

theorem yields_readExtension (value : CString) :
    Yields [] readExtension (equals true ++ word value :: ts) (.ok (.IDENTIFIER, value)) ts ∧
      Yields [] readExtension (equals true ++ quoted value :: ts)
        (.ok (.QUOTED_STRING, value)) ts := by
  constructor
  · rw [equals_append]
    refine (yields_skip true (separator_ne '=')).bind (yields_getToken ?_)
    rw [if_neg (not_not.mpr (separator_s '='))]
    refine (yields_skip true (word_ne value)).bind (yields_getToken ?_)
    exact yields_pure _
  · rw [equals_append]
    refine (yields_skip true (separator_ne '=')).bind (yields_getToken ?_)
    rw [if_neg (not_not.mpr (separator_s '='))]
    refine (yields_skip true (quoted_ne _)).bind (yields_getToken ?_)
    exact yields_pure _

/-- Behind a name without an equals sign there is no extension. -/
theorem yields_readExtension_error (h : t.tokType ≠ .CRLF ∧ t.tokType ≠ .WHITESPACE)
    (hne : t.s ≠ ['=']) :
    Yields [] readExtension (blank :: t :: ts) (.error parseFailure) (t :: ts) := by
  refine (yields_skip true h).bind (yields_getToken ?_)
  rw [if_pos hne]
  exact yields_pushBack (yields_throw _)

/-! ## Directives -/

/-- Seconds that an `int` holds. -/
def IsSeconds (num : Int) : Prop := 0 ≤ num ∧ num ≤ intMax

/-- The names that `load` knows. -/
def knownNames : List CString :=
  ["no-cache".toList, "no-store".toList, "max-age".toList, "max-stale".toList, "min-fresh".toList,
    "no-transform".toList, "only-if-cached".toList, "public".toList, "private".toList,
    "must-revalidate".toList, "proxy-revalidate".toList, "s-maxage".toList]

/-- A directive with arguments as they have to be.  A quoted value may be given with its quotes, as
`load` stores it, or without them. -/
def WellFormed : CacheDirective → Prop
  | NO_CACHE_FIELDS fields => IsQuoted fields
  | MAX_AGE deltaSeconds => IsSeconds deltaSeconds
  | MAX_STALE deltaSeconds => ∀ num ∈ deltaSeconds, IsSeconds num
  | MIN_FRESH deltaSeconds => IsSeconds deltaSeconds
  | PRIVATE fields => fields = [] ∨ IsQuoted fields
  | S_MAXAGE deltaSeconds => IsSeconds deltaSeconds
  | EXTENSION .IDENTIFIER name value => IsIdentifier name ∧ name ∉ knownNames ∧ IsIdentifier value
  | EXTENSION .QUOTED_STRING name value => IsIdentifier name ∧ name ∉ knownNames ∧
      (IsQuoted value ∨ ∀ c ∈ value, IsPlainQdText c)
  | _ => True

/-- A directive that is printed as it is loaded. -/
def Printable : CacheDirective → Prop
  | S_MAXAGE _ => False
  | EXTENSION .QUOTED_STRING _ _ => False
  | _ => True

/-- The tokens that a directive is printed as. -/
def tokens : CacheDirective → List Token
  | NO_CACHE => [word "no-cache".toList]
  | NO_CACHE_FIELDS fields => word "no-cache".toList :: (equals false ++ [quoted fields])
  | NO_STORE => [word "no-store".toList]
  | MAX_AGE deltaSeconds => word "max-age".toList :: (equals true ++ [word (decimal deltaSeconds)])
  | MAX_STALE none => [word "max-stale".toList]
  | MAX_STALE (some deltaSeconds) =>
    word "max-stale".toList :: (equals true ++ [word (decimal deltaSeconds)])
  | MIN_FRESH deltaSeconds => word "min-fresh".toList :: (equals true ++ [word (decimal deltaSeconds)])
  | NO_TRANSFORM => [word "no-transform".toList]
  | ONLY_IF_CACHED => [word "only-if-cached".toList]
  | PUBLIC => [word "public".toList]
  | PRIVATE fields => word "private".toList ::
    if fields = [] then [] else equals true ++ [quoted fields]
  | MUST_REVALIDATE => [word "must-revalidate".toList]
  | PROXY_REVALIDATE => [word "proxy-revalidate".toList]
  | S_MAXAGE deltaSeconds =>
    word "max".toList :: blank :: word "age".toList :: (equals true ++ [word (decimal deltaSeconds)])
  | EXTENSION .IDENTIFIER name value => word name :: (equals true ++ [word value])
  | EXTENSION .QUOTED_STRING name value =>
    word name :: (equals true ++ [quoted ('"' :: (value ++ ['"']))])

theorem digitVal_of_isDigit {c : Char} (h : c.isDigit) :
    digitVal 10 c = some (c.toNat - '0'.toNat) := by
  have hrange : '0' ≤ c ∧ c ≤ '9' := by
    simp only [Char.isDigit, Bool.and_eq_true, decide_eq_true_eq] at h
    exact h
  have hhigh : c.toNat ≤ 57 := UInt32.le_iff_toNat_le.mp hrange.2
  rw [digitVal, if_pos hrange, Option.filter_some, if_pos]
  rw [decide_eq_true_eq]
  have hzero : '0'.toNat = 48 := rfl
  omega

theorem numeral_toDigits (n : Nat) : numeral 10 (Nat.toDigits 10 n) = n := by
  have hdigit (ds : CString) (hds : ∀ c ∈ ds, c.isDigit) (init : Nat) :
      ds.foldl (fun n c ↦ n * 10 + (digitVal 10 c).getD 0) init = Nat.ofDigitChars 10 ds init := by
    induction ds generalizing init with
    | nil => rfl
    | cons c ds ih =>
      rw [List.foldl_cons, ih fun d hd ↦ hds d (List.mem_cons_of_mem _ hd), Nat.ofDigitChars_cons,
        digitVal_of_isDigit (hds c (List.mem_cons_self ..)), Option.getD_some, Nat.mul_comm]
  rw [numeral, hdigit _ (fun c hc ↦ Nat.isDigit_of_mem_toDigits (by decide) (by decide) hc)]
  exact Nat.ofDigitChars_ten_toDigits

/-- The seconds that are printed are a number. -/
theorem isNumber_decimal (h : IsSeconds num) : IsNumber 10 (decimal num) num := by
  obtain ⟨n, rfl⟩ := Int.eq_ofNat_of_zero_le h.1
  refine ⟨Nat.toDigits_ne_nil, fun c hc ↦ ?_, congrArg Int.ofNat (numeral_toDigits n), h.2⟩
  rw [digitVal_of_isDigit (Nat.isDigit_of_mem_toDigits (by decide) (by decide) hc)]
  rfl

/-! ## Loading what is printed -/

variable {d : CacheDirective}

theorem loadNamed_extension (h : name ∉ knownNames) : loadNamed name = (do
    let (extType, extensionValue) ← readExtension
    return EXTENSION extType name extensionValue) := by
  simp only [knownNames, List.mem_cons, List.not_mem_nil, or_false, not_or] at h
  obtain ⟨h₁, h₂, h₃, h₄, h₅, h₆, h₇, h₈, h₉, h₁₀, h₁₁, h₁₂⟩ := h
  rw [loadNamed, if_neg h₁, if_neg h₂, if_neg h₃, if_neg h₄, if_neg h₅, if_neg h₆, if_neg h₇,
    if_neg h₈, if_neg h₉, if_neg h₁₀, if_neg h₁₁, if_neg h₁₂]

/-- A directive is loaded by its name. -/
theorem yields_load (ts : List Token) {r : Except ParseException CacheDirective}
    (h : Yields [] (loadNamed name) ts r ts') : Yields [] load (word name :: ts) r ts' := by
  refine yields_getToken ?_
  rw [if_neg (not_word_ne _)]
  exact h.weaken

/-- The tokens of a directive are loaded as the directive. -/
theorem yields_load_tokens (hwell : d.WellFormed) (hprint : d.Printable) (h : EndsElement ts) :
    Yields [] load (d.tokens ++ ts) (.ok d) ts := by
  have hend (a : CacheDirective) : Yields [] (pure a : Parse CacheDirective) ts (.ok a) ts :=
    yields_pure a
  cases d with
  | NO_CACHE => exact yields_load _ ((yields_readFields_none h).bind (hend _))
  | NO_CACHE_FIELDS fields =>
    refine yields_load (equals false ++ [quoted fields] ++ ts) ?_
    rw [List.append_assoc]
    exact (yields_readFields false fields).bind (hend _)
  | NO_STORE => exact yields_load _ (hend _)
  | MAX_AGE num =>
    refine yields_load (equals true ++ [word (decimal num)] ++ ts) ?_
    rw [List.append_assoc]
    exact (yields_readSeconds (isNumber_decimal hwell)).bind (hend _)
  | MAX_STALE seconds =>
    cases seconds with
    | none => exact yields_load _ ((yields_readDeltaSeconds_none h).bind (hend _))
    | some num =>
      refine yields_load (equals true ++ [word (decimal num)] ++ ts) ?_
      rw [List.append_assoc]
      exact (yields_readDeltaSeconds true (isNumber_decimal (hwell num rfl))).bind (hend _)
  | MIN_FRESH num =>
    refine yields_load (equals true ++ [word (decimal num)] ++ ts) ?_
    rw [List.append_assoc]
    exact (yields_readSeconds (isNumber_decimal hwell)).bind (hend _)
  | NO_TRANSFORM => exact yields_load _ (hend _)
  | ONLY_IF_CACHED => exact yields_load _ (hend _)
  | PUBLIC => exact yields_load _ (hend _)
  | PRIVATE fields =>
    by_cases hnil : fields = []
    · subst hnil
      exact yields_load _ ((yields_readFields_none h).bind (hend _))
    · have htokens : (PRIVATE fields).tokens ++ ts =
          word "private".toList :: (equals true ++ quoted fields :: ts) := by
        rw [tokens, if_neg hnil, List.cons_append, List.append_assoc]
        rfl
      rw [htokens]
      exact yields_load _ ((yields_readFields true fields).bind (hend _))
  | MUST_REVALIDATE => exact yields_load _ (hend _)
  | PROXY_REVALIDATE => exact yields_load _ (hend _)
  | S_MAXAGE num => exact hprint.elim
  | EXTENSION extType name value =>
    cases extType with
    | QUOTED_STRING => exact hprint.elim
    | IDENTIFIER =>
      refine yields_load (equals true ++ [word value] ++ ts) ?_
      rw [List.append_assoc, loadNamed_extension hwell.2.1]
      exact (yields_readExtension value).1.bind (hend _)

/-! ## The tokens of what is printed -/

variable {rest : CString}

theorem isIdentifier_of_mem_knownNames (h : name ∈ knownNames) : IsIdentifier name := by
  have hall : knownNames.all (fun name ↦ !name.isEmpty && name.all IsIdentifierChar) = true := rfl
  have hname := List.all_eq_true.mp hall name h
  rw [Bool.and_eq_true, Bool.not_eq_true', List.isEmpty_eq_false_iff] at hname
  exact ⟨hname.1, List.all_eq_true.mp hname.2⟩

theorem isIdentifier_decimal (h : IsSeconds num) : IsIdentifier (decimal num) := by
  obtain ⟨n, rfl⟩ := Int.eq_ofNat_of_zero_le h.1
  refine ⟨Nat.toDigits_ne_nil, fun c hc ↦ isIdentifierChar_of_isDigit ?_⟩
  exact Nat.isDigit_of_mem_toDigits (by decide) (by decide) hc

/-- A name and its argument. -/
theorem lexesAs_argument (hname : IsIdentifier name) (hvalue : LexesAs value [t] rest)
    (hhead : ∀ c ∈ (value ++ rest).head?, IsWhitespace c = false) :
    LexesAs (name ++ (" = ".toList ++ value)) (word name :: (equals true ++ [t])) rest := by
  refine (lexesAs_word hname ?_).append ((lexesAs_equals hhead).append hvalue)
  simp [IsIdentifierChar, IsSeparator]

theorem isWhitespace_of_isIdentifierChar {c : Char} (h : IsIdentifierChar c) :
    IsWhitespace c = false := by
  rw [Bool.eq_false_iff]
  intro hws
  simp only [IsWhitespace, Bool.or_eq_true, decide_eq_true_eq] at hws
  rcases hws with rfl | rfl <;> cases h

theorem head_of_isIdentifier (h : IsIdentifier name) :
    ∀ c ∈ (name ++ rest).head?, IsWhitespace c = false := by
  obtain ⟨c, name, rfl⟩ := List.exists_cons_of_ne_nil h.1
  rintro _ ⟨⟩
  exact isWhitespace_of_isIdentifierChar (h.2 c (List.mem_cons_self ..))

theorem lexesAs_seconds (hname : IsIdentifier name) (h : IsSeconds num)
    (hrest : ∀ c ∈ rest.head?, IsIdentifierChar c = false) :
    LexesAs (name ++ (" = ".toList ++ decimal num))
      (word name :: (equals true ++ [word (decimal num)])) rest := by
  have hdecimal := isIdentifier_decimal h
  exact lexesAs_argument hname (lexesAs_word hdecimal hrest) (head_of_isIdentifier hdecimal)

theorem lexesAs_fields (hname : IsIdentifier name) (h : IsQuoted value) :
    LexesAs (name ++ (" = ".toList ++ value)) (word name :: (equals true ++ [quoted value])) rest := by
  refine lexesAs_argument hname (lexesAs_quoted h) ?_
  obtain ⟨body, rfl, -⟩ := h
  rintro _ ⟨⟩
  rfl

/-- A directive is lexed as its tokens, if it has no quoted value. -/
theorem lexesAs_toString (hwell : d.WellFormed)
    (hext : ∀ name value, d ≠ EXTENSION .QUOTED_STRING name value)
    (hrest : ∀ c ∈ rest.head?, IsIdentifierChar c = false) : LexesAs d.toString d.tokens rest := by
  have hname (name : CString) (h : knownNames.contains name = true) : IsIdentifier name :=
    isIdentifier_of_mem_knownNames (List.contains_iff_mem.mp h)
  have hword (name : CString) (h : knownNames.contains name = true) : LexesAs name [word name] rest :=
    lexesAs_word (hname name h) hrest
  cases d with
  | NO_CACHE => exact hword "no-cache".toList rfl
  | NO_CACHE_FIELDS fields =>
    have hequals : LexesAs ['='] (equals false) (fields ++ rest) := lex_separator (by simp)
    have hhead : ∀ c ∈ (['='] ++ fields ++ rest).head?, IsIdentifierChar c = false := by
      rintro _ ⟨⟩
      rfl
    exact (lexesAs_word (hname "no-cache".toList rfl) hhead).append
      (hequals.append (lexesAs_quoted hwell))
  | NO_STORE => exact hword "no-store".toList rfl
  | MAX_AGE num => exact lexesAs_seconds (hname "max-age".toList rfl) hwell hrest
  | MAX_STALE seconds =>
    cases seconds with
    | none => exact hword "max-stale".toList rfl
    | some num => exact lexesAs_seconds (hname "max-stale".toList rfl) (hwell num rfl) hrest
  | MIN_FRESH num => exact lexesAs_seconds (hname "min-fresh".toList rfl) hwell hrest
  | NO_TRANSFORM => exact hword "no-transform".toList rfl
  | ONLY_IF_CACHED => exact hword "only-if-cached".toList rfl
  | PUBLIC => exact hword "public".toList rfl
  | PRIVATE fields =>
    rcases hwell with rfl | hfields
    · exact hword "private".toList rfl
    · have hne : fields ≠ [] := by
        obtain ⟨body, rfl, -⟩ := hfields
        exact List.cons_ne_nil _ _
      have htext : (PRIVATE fields).toString = "private".toList ++ (" = ".toList ++ fields) :=
        congrArg ("private".toList ++ ·) (if_pos (List.length_pos_iff.mpr hne))
      have htokens : (PRIVATE fields).tokens = word "private".toList ::
          (equals true ++ [quoted fields]) :=
        congrArg (word "private".toList :: ·) (if_neg hne)
      rw [htext, htokens]
      exact lexesAs_fields (hname "private".toList rfl) hfields
  | MUST_REVALIDATE => exact hword "must-revalidate".toList rfl
  | PROXY_REVALIDATE => exact hword "proxy-revalidate".toList rfl
  | S_MAXAGE num =>
    have hmax : IsIdentifier "max".toList := ⟨by simp, List.all_eq_true.mp rfl⟩
    have hage : IsIdentifier "age".toList := ⟨by simp, List.all_eq_true.mp rfl⟩
    have hblank : LexesAs [' '] [blank] ("age".toList ++ (" = ".toList ++ decimal num) ++ rest) :=
      lex_blank (by simp [IsWhitespace])
    show LexesAs ("max".toList ++ ([' '] ++ ("age".toList ++ (" = ".toList ++ decimal num)))) _ rest
    refine (lexesAs_word hmax ?_).append (hblank.append (lexesAs_seconds hage hwell hrest))
    rintro _ ⟨⟩
    rfl
  | EXTENSION extType name value =>
    cases extType with
    | QUOTED_STRING => exact absurd rfl (hext name value)
    | IDENTIFIER =>
      exact lexesAs_argument hwell.1 (lexesAs_word hwell.2.2 hrest) (head_of_isIdentifier hwell.2.2)

/-- What a directive with a quoted value is lexed as: the value without its quotes in two quotes, or
two quotes and what follows. -/
theorem lex_quoted_extension (rest : CString)
    (hwell : (EXTENSION .QUOTED_STRING name value).WellFormed) :
    ∃ text ts, (lex ((EXTENSION .QUOTED_STRING name value).toString ++ rest)).1 =
        word name :: (equals true ++ quoted text :: ts) ∧
      (text = value → ∃ ts', ts = quoted ['"', '"'] :: ts') := by
  obtain ⟨hname, -, hvalue⟩ := hwell
  have hlex {text rest' : CString} (htext : IsQuoted text) :
      (lex (name ++ (" = ".toList ++ text) ++ rest')).1 = word name ::
        (equals true ++ quoted text :: (lex rest').1) := by
    refine (congrArg Prod.fst (lexesAs_fields hname htext)).trans ?_
    show word name :: (equals true ++ [quoted text] ++ (lex rest').1) = _
    rw [List.append_assoc]
    rfl
  rcases hvalue with ⟨body, rfl, hbody⟩ | hplain
  · -- the value ends at the quote that it begins with
    have hempty : IsQuoted ['"', '"'] := ⟨[], rfl, nofun⟩
    have hprint : (EXTENSION .QUOTED_STRING name ('"' :: (body ++ ['"']))).toString ++ rest =
        name ++ (" = ".toList ++ ['"', '"']) ++ (body ++ '"' :: '"' :: rest) := by
      show name ++ (" = ".toList ++ ('"' :: (('"' :: (body ++ ['"'])) ++ ['"']))) ++ rest = _
      simp only [List.append_assoc, List.cons_append, List.nil_append]
    rw [hprint]
    refine ⟨_, _, hlex hempty, fun h ↦ ?_⟩
    have hnil : body = [] := by simpa using h
    subst hnil
    exact ⟨_, congrArg Prod.fst (lexesAs_quoted hempty)⟩
  · have htext : IsQuoted ('"' :: (value ++ ['"'])) := ⟨value, rfl, hplain⟩
    refine ⟨_, _, hlex htext, fun h ↦ ?_⟩
    have hlength := congrArg List.length h
    simp only [List.length_cons, List.length_append, List.length_nil] at hlength
    omega

/-! ## Lists of directives -/

/-- A text that a line of a message begins with. -/
def StartsLine (rest : CString) : Prop := ∃ t ts, (lex rest).1 = t :: ts ∧ t.tokType ≠ .WHITESPACE

/-- `CacheControl::load`, of what `CacheControl::toString` prints and the next line of a message. -/
def reload (ds : List CacheDirective) (rest : CString) : ListRead CacheDirective :=
  ReadCommaSeparatedList cacheDirective 0 (-1)
    (scannerOf (PrintCommaSeparatedList toString ds ++ '\r' :: '\n' :: rest))

/-- What is loaded is the list that was printed. -/
def RoundTrips (ds : List CacheDirective) : Prop :=
  ∀ rest, StartsLine rest → (reload ds rest).outcome = .ok () ∧ (reload ds rest).added = ds

variable {s : Scanner} {ds : List CacheDirective}

/-- What is printed begins with a word. -/
theorem lex_toString_head (hwell : d.WellFormed)
    (hrest : ∀ c ∈ rest.head?, IsIdentifierChar c = false) :
    ∃ name ts, (lex (d.toString ++ rest)).1 = word name :: ts := by
  by_cases hext : ∃ name value, d = EXTENSION .QUOTED_STRING name value
  · obtain ⟨name, value, rfl⟩ := hext
    obtain ⟨text, ts, hlex, -⟩ := lex_quoted_extension rest hwell
    exact ⟨name, _, hlex⟩
  · simp only [not_exists] at hext
    rw [lexesAs_toString hwell hext hrest]
    have htokens : ∃ name ts, d.tokens = word name :: ts := by
      cases d with
      | MAX_STALE seconds => cases seconds <;> exact ⟨_, _, rfl⟩
      | EXTENSION extType name value => cases extType <;> exact ⟨_, _, rfl⟩
      | _ => exact ⟨_, _, rfl⟩
    obtain ⟨name, ts, htokens⟩ := htokens
    exact ⟨name, _, congrArg (· ++ (lex rest).1) htokens⟩

/-- A directive that is not printed as it has to be is not read. -/
theorem not_listLoop_of_not_printable (hwell : d.WellFormed) (hprint : ¬ d.Printable)
    (hrest : ∀ c ∈ rest.head?, IsIdentifierChar c = false)
    (hs : s.unread = (lex (d.toString ++ rest)).1)
    (added : List CacheDirective) :
    ¬ ((listLoop cacheDirective 0 (-1) added s).outcome = .ok () ∧
      (listLoop cacheDirective 0 (-1) added s).added = added ++ d :: ds) := by
  rintro ⟨houtcome, hadded⟩
  cases d with
  | S_MAXAGE num =>
    -- what is read is an extension with the name `max`
    have hext (name value : CString) : S_MAXAGE num ≠ EXTENSION .QUOTED_STRING name value := nofun
    rw [lexesAs_toString hwell hext hrest] at hs
    have hmax : loadNamed "max".toList = _ := loadNamed_extension (by simp [knownNames])
    have hload : Yields [] load (word "max".toList :: blank :: word "age".toList ::
        (equals true ++ [word (decimal num)] ++ (lex rest).1)) (.error parseFailure)
        (word "age".toList :: (equals true ++ [word (decimal num)] ++ (lex rest).1)) := by
      refine yields_load _ ?_
      rw [hmax]
      exact (yields_readExtension_error (word_ne _) (by simp [word])).bind_error
    obtain ⟨s', hload, -⟩ := hload s hs (List.nil_prefix ..)
    have hfails := (FailsBehind.here (p := cacheDirective) hload).listLoop 0 (-1) added
    rw [hfails.2] at hadded
    simp at hadded
  | EXTENSION extType name value =>
    cases extType with
    | IDENTIFIER => exact hprint trivial
    | QUOTED_STRING =>
      obtain ⟨text, ts, hlex, htext⟩ := lex_quoted_extension rest hwell
      have hyields : Yields [] load (word name :: (equals true ++ quoted text :: ts))
          (.ok (EXTENSION .QUOTED_STRING name text)) ts := by
        refine yields_load _ ?_
        rw [loadNamed_extension hwell.2.1]
        exact (yields_readExtension text).2.bind (yields_pure _)
      obtain ⟨s₁, hload, hs₁⟩ := hyields s (hs.trans hlex) (List.nil_prefix ..)
      have hprefix := added_prefix_of_load (p := cacheDirective) 0 (-1) added hload
      rw [hadded, List.prefix_append_right_inj, List.cons_prefix_cons] at hprefix
      have hvalue : text = value := by
        injection hprefix.1
      -- behind two quotes there are two more
      obtain ⟨ts', rfl⟩ := htext hvalue
      have hquoted := quoted_ne ['"', '"']
      obtain ⟨s₂, hskip, hs₂⟩ :=
        yields_SkipOptionalLWS_other hquoted.1 hquoted.2 s₁ hs₁ (List.nil_prefix ..)
      have hstep := listLoop_step (p := cacheDirective) 0 (-1) added hload hskip
      rw [behindComma_other hs₂ hquoted.1 (by simp [quoted])] at hstep
      obtain ⟨e, herror⟩ := hstep
      rw [houtcome] at herror
      cases herror
  | _ => exact hprint trivial

/-- What is printed of a list that is not empty begins with a word. -/
theorem lex_print_head (ds : List CacheDirective) (rest : CString) (hwell : d.WellFormed) : ∃ name ts,
    (lex (PrintCommaSeparatedList toString (d :: ds) ++ '\r' :: '\n' :: rest)).1 = word name :: ts := by
  rw [PrintCommaSeparatedList, List.append_assoc]
  refine lex_toString_head hwell ?_
  cases ds with
  | nil =>
    rintro _ ⟨⟩
    rfl
  | cons e ds =>
    rintro _ ⟨⟩
    rfl

/-- A directive that is printed as it has to be is read, and the white space behind it is skipped. -/
theorem load_of_printable (hwell : d.WellFormed) (hprint : d.Printable)
    (hrest : ∀ c ∈ rest.head?, IsIdentifierChar c = false) (hends : EndsElement (lex rest).1)
    (hs : s.unread = (lex (d.toString ++ rest)).1) : ∃ s₁ s₂, cacheDirective.load s = (.ok d, s₁) ∧
      SkipOptionalLWS s₁ = (.ok (), s₂) ∧ s₂.unread = (lex rest).1 := by
  have hext : ∀ name value, d ≠ EXTENSION .QUOTED_STRING name value := by
    rintro name value rfl
    exact hprint
  rw [lexesAs_toString hwell hext hrest] at hs
  obtain ⟨s₁, hload, hs₁⟩ := yields_load_tokens hwell hprint hends s hs (List.nil_prefix ..)
  obtain ⟨s₂, hskip, hs₂⟩ := hends.skip s₁ hs₁ (List.nil_prefix ..)
  exact ⟨s₁, s₂, hload, hskip, hs₂⟩

/-- What is printed of a list that is not empty is read as the list exactly if all of it is printed as
it has to be. -/
theorem listLoop_print (hrest : StartsLine rest) (hwell : ∀ e ∈ d :: ds, e.WellFormed)
    (added : List CacheDirective)
    (hs : s.unread = (lex (PrintCommaSeparatedList toString (d :: ds) ++ '\r' :: '\n' :: rest)).1) :
    (listLoop cacheDirective 0 (-1) added s).outcome = .ok () ∧
      (listLoop cacheDirective 0 (-1) added s).added = added ++ d :: ds ↔
        ∀ e ∈ d :: ds, e.Printable := by
  have hcr : ∀ c ∈ ('\r' :: '\n' :: rest).head?, IsIdentifierChar c = false := by
    rintro _ ⟨⟩
    rfl
  have hd := hwell d (List.mem_cons_self ..)
  induction ds generalizing d added s with
  | nil =>
    have htext : PrintCommaSeparatedList toString [d] ++ '\r' :: '\n' :: rest =
        d.toString ++ '\r' :: '\n' :: rest := by
      rw [PrintCommaSeparatedList, List.flatMap_nil, List.append_nil]
    rw [htext] at hs
    by_cases hprint : d.Printable
    · obtain ⟨t, ts, hlex, ht⟩ := hrest
      have hends : EndsElement (lex ('\r' :: '\n' :: rest)).1 := by
        rw [lex_crlf, hlex]
        exact .inr ⟨t, ts, rfl, ht⟩
      obtain ⟨s₁, s₂, hload, hskip, hs₂⟩ := load_of_printable hd hprint hcr hends hs
      have hstep := listLoop_step 0 (-1) added hload hskip
      rw [lex_crlf] at hs₂
      rw [behindComma_crlf hs₂ rfl (by simp)] at hstep
      refine iff_of_true ⟨hstep.1.trans (endOfList_of_inRange ?_), hstep.2⟩ ?_
      · exact ⟨Int.natCast_nonneg _, fun h ↦ absurd h (by decide)⟩
      · rw [List.forall_mem_singleton]
        exact hprint
    · refine iff_of_false (not_listLoop_of_not_printable hd hprint hcr hs added) fun h ↦ ?_
      exact hprint (h d (List.mem_cons_self ..))
  | cons e ds ih =>
    have hmore : ∀ f ∈ e :: ds, f.WellFormed := fun f hf ↦ hwell f (List.mem_cons_of_mem _ hf)
    have he := hmore e (List.mem_cons_self ..)
    generalize htail : PrintCommaSeparatedList toString (e :: ds) ++ '\r' :: '\n' :: rest = tail
    have htext : PrintCommaSeparatedList toString (d :: e :: ds) ++ '\r' :: '\n' :: rest =
        d.toString ++ (", ".toList ++ tail) := by
      rw [← htail]
      simp only [PrintCommaSeparatedList, List.flatMap_cons, List.append_assoc]
    rw [htext] at hs
    have hcomma : ∀ c ∈ (", ".toList ++ tail).head?, IsIdentifierChar c = false := by
      rintro _ ⟨⟩
      rfl
    by_cases hprint : d.Printable
    · obtain ⟨name, ts, hhead⟩ := lex_print_head ds rest he
      rw [htail] at hhead
      have hlex := congrArg Prod.fst (lexesAs_comma (head_of_lex hhead (word_ne name).2))
      rw [hhead] at hlex
      have hends : EndsElement (lex (", ".toList ++ tail)).1 := .inl ⟨_, hlex⟩
      obtain ⟨s₁, s₂, hload, hskip, hs₂⟩ := load_of_printable hd hprint hcomma hends hs
      obtain ⟨s₃, hbehind, hs₃⟩ := behindComma_comma (hs₂.trans hlex) rfl
        (yields_skip true (word_ne name))
      have hstep := listLoop_step 0 (-1) added hload hskip
      rw [hbehind] at hstep
      rw [← hhead, ← htail] at hs₃
      have hrun := ih hmore (added ++ [d]) hs₃ he
      rw [List.append_assoc] at hrun
      rw [hstep, List.forall_mem_cons, and_iff_right hprint]
      exact hrun
    · refine iff_of_false (not_listLoop_of_not_printable hd hprint hcomma hs added) fun h ↦ ?_
      exact hprint (h d (List.mem_cons_self ..))

theorem reload_iff (hrest : StartsLine rest) (hwell : ∀ e ∈ d :: ds, e.WellFormed) :
    (reload (d :: ds) rest).outcome = .ok () ∧ (reload (d :: ds) rest).added = d :: ds ↔
      ∀ e ∈ d :: ds, e.Printable := by
  obtain ⟨name, ts, hhead⟩ := lex_print_head ds rest (hwell d (List.mem_cons_self ..))
  obtain ⟨s₁, hpeek, hs₁⟩ := yields_peek (scannerOf _) hhead (List.nil_prefix ..)
  have hrun := listLoop_print hrest hwell [] (hs₁.trans hhead.symm)
  rw [List.nil_append] at hrun
  rw [reload, ReadCommaSeparatedList_eq, hpeek]
  dsimp only
  rw [if_neg (word_ne name).1]
  exact hrun

theorem startsLine_crlf : StartsLine ['\r', '\n'] := by
  refine ⟨lineEnd, [], ?_, ?_⟩
  · rw [lex_crlf, lex_nil]
    rfl
  · intro h
    cases h

/-- What is printed of a list is read as the list exactly if no directive is an `s-maxage` or an
extension with a quoted value. -/
theorem cacheControl_roundTrips_iff (ds : List {d : CacheDirective // d.WellFormed}) :
    RoundTrips (ds.map Subtype.val) ↔ ∀ d ∈ ds, d.val.Printable := by
  cases ds with
  | nil =>
    refine iff_of_true (fun rest _ ↦ ?_) fun d hd ↦ absurd hd List.not_mem_nil
    rw [List.map_nil, reload, PrintCommaSeparatedList, List.nil_append, scannerOf, lex_crlf]
    exact ⟨rfl, rfl⟩
  | cons d ds =>
    have hwell : ∀ e ∈ d.val :: ds.map Subtype.val, e.WellFormed := by
      rw [List.forall_mem_cons, List.forall_mem_map]
      exact ⟨d.property, fun e _ ↦ e.property⟩
    have hprintable : (∀ e ∈ d.val :: ds.map Subtype.val, e.Printable) ↔
        ∀ e ∈ d :: ds, e.val.Printable := by
      rw [List.forall_mem_cons, List.forall_mem_map, List.forall_mem_cons]
    rw [← hprintable, List.map_cons]
    constructor
    · intro h
      exact (reload_iff startsLine_crlf hwell).mp (h _ startsLine_crlf)
    · intro h rest hrest
      exact (reload_iff hrest hwell).mpr h

/-- `max age = 5` is no directive. -/
theorem not_cacheControl_roundTrips :
    ¬ ∀ ds : List {d : CacheDirective // d.WellFormed}, RoundTrips (ds.map Subtype.val) := by
  intro h
  have hwell : (S_MAXAGE 5).WellFormed := ⟨by decide, by decide⟩
  have hread := h [⟨S_MAXAGE 5, hwell⟩] _ startsLine_crlf
  have hall : ∀ e ∈ [S_MAXAGE 5], e.WellFormed := List.forall_mem_singleton.mpr hwell
  exact (reload_iff startsLine_crlf hall).mp hread _ (List.mem_singleton_self _)

end CacheDirective

end Upnp.Web
