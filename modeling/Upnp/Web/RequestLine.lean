import Upnp.Lib.BinarySearch
import Upnp.Uri.Parse
import Upnp.Web.CacheDirective

/-!
# Request lines

`HttpRequestLine` of `parseutil.cpp`, and what it uses there.  For a method that is not in the table
`load` puts an exception together, which it does not throw: the line is read on as if the method
were known.
-/

namespace Upnp.Web

open Upnp.Lib
open TokenType
open Parse (throw bind_ok)

/-- `UpnpMethodType`, the methods that have a name. -/
inductive UpnpMethodType where
  | HTTP_GET
  | HTTP_HEAD
  | UPNP_NOTIFY
  | UPNP_MSEARCH
  | UPNP_POST
  | UPNP_MPOST
  | UPNP_SUBSCRIBE
  | UPNP_UNSUBSCRIBE
deriving DecidableEq, Repr

open UpnpMethodType

/-- `NameToID`; `none` for the value -1. -/
def NameToID {ι : Type} (name : CString) (table : List (CString × ι)) (caseSensitive : Bool) :
    Option ι :=
  let cmp (mid : Nat) : Ordering :=
    let entry := (table[mid]?.map Prod.fst).getD []
    if caseSensitive then strcmp name entry else strcasecmp name entry
  (bisect cmp 0 (table.length - 1)).bind fun mid ↦ table[mid]?.map Prod.snd

/-- `IDToName`. -/
def IDToName {ι : Type} [DecidableEq ι] (id : ι) (table : List (CString × ι)) : Option CString :=
  (table.find? (·.2 = id)).map Prod.fst

def HttpMethodTable : List (CString × UpnpMethodType) :=
  [("GET".toList, HTTP_GET), ("HEAD".toList, HTTP_HEAD), ("M-POST".toList, UPNP_MPOST),
    ("M-SEARCH".toList, UPNP_MSEARCH), ("NOTIFY".toList, UPNP_NOTIFY), ("POST".toList, UPNP_POST),
    ("SUBSCRIBE".toList, UPNP_SUBSCRIBE), ("UNSUBSCRIBE".toList, UPNP_UNSUBSCRIBE)]

/-- `UriType`: a URI and its text. -/
structure UriType where
  uri : Uri.URI
  tempBuf : CString
deriving DecidableEq, Repr

/-- `HttpRequestLine`.  There is no method for -1, and no URI where `pathIsStar` is set. -/
structure HttpRequestLine where
  method : Option UpnpMethodType
  uri : Option UriType
  majorVersion : Int
  minorVersion : Int
deriving DecidableEq, Repr

/-! ## Reading -/

/-- A token of some text leaves less to read. -/
theorem left_lt_of_getToken {s s' : Scanner} {t : Token} (h : getToken s = (.ok t, s'))
    (ht : t.tokType ≠ END_OF_STREAM) : s'.left < s.left := by
  rw [← left_getToken h, weight_of_type ht]
  exact Nat.lt_succ_self _

/-- White space, and the ends of lines. -/
def IsBlank (t : Token) : Prop := t.tokType = CRLF ∨ t.tokType = WHITESPACE

instance : DecidablePred IsBlank := fun t ↦
  inferInstanceAs (Decidable (t.tokType = CRLF ∨ t.tokType = WHITESPACE))

theorem IsBlank.ne_eos {t : Token} (h : IsBlank t) : t.tokType ≠ END_OF_STREAM := by
  intro heos
  rcases h with h | h <;> cases heos.symm.trans h

/-- `SkipBlankLines`. -/
def SkipBlankLines : Parse Unit := fun s ↦
  match hget : getToken s with
  | (.error e, s) => (.error e, s)
  | (.ok token, s₁) =>
    if hblank : IsBlank token then SkipBlankLines s₁
    else pushBack s₁
termination_by s => s.left
decreasing_by exact left_lt_of_getToken hget hblank.ne_eos

/-- The tokens that a URI is put together of. -/
def IsPiece (t : Token) : Prop :=
  t.tokType = IDENTIFIER ∨ t.tokType = SEPARATOR ∨ t.tokType = QUOTED_STRING

instance : DecidablePred IsPiece := fun t ↦
  inferInstanceAs (Decidable (t.tokType = IDENTIFIER ∨ t.tokType = SEPARATOR ∨
    t.tokType = QUOTED_STRING))

theorem IsPiece.ne_eos {t : Token} (h : IsPiece t) : t.tokType ≠ END_OF_STREAM := by
  intro heos
  rcases h with h | h | h <;> cases heos.symm.trans h

/-- The loop of `LoadUri`. -/
def loadPieces (uriStr : CString) : Parse CString := fun s ↦
  match hget : getToken s with
  | (.error e, s) => (.error e, s)
  | (.ok token, s₁) =>
    if hpiece : IsPiece token then loadPieces (uriStr ++ token.s) s₁
    else
      match pushBack s₁ with
      | (.error e, s) => (.error e, s)
      | (.ok (), s) => (.ok uriStr, s)
termination_by s => s.left
decreasing_by exact left_lt_of_getToken hget hpiece.ne_eos

/-- `parse_uri( uriStr.c_str(), uriStr.length(), .. )`. -/
def parsedUri (env : Uri.Env) (uriStr : CString) : Except Int Uri.URI :=
  (Uri.parse_uri env (uriStr ++ ['\x00']) 0 uriStr.length).get
    (Uri.parse_uri_isSome (by simp))

/-- `LoadUri`. -/
def LoadUri (env : Uri.Env) : Parse UriType := do
  let uriStr ← loadPieces []
  if uriStr = [] then throw parseFailure
  else
    match parsedUri env uriStr with
    | .error _ => throw parseFailure
    | .ok uri => return ⟨uri, uriStr⟩

/-- A number of a version: its value as an `int` and what stands behind it, if it is none of the
values that are thrown for. -/
def versionNumber (s : CString) : Option (Int × CString) :=
  let num := wrap32 ((strtol 10 s).getD 0)
  if num < 0 ∨ (num = 9223372036854775807 ∨ num = -9223372036854775808) ∧ rangeError 10 s then none
  else some (num, endptr 10 s)

/-- `ParseMajorMinorNumbers`; `none` where it throws. -/
def ParseMajorMinorNumbers (s : CString) : Option (Int × Int) := do
  let (major, behind) ← versionNumber s
  match behind with
  | '.' :: s2 =>
    let (minor, behind) ← versionNumber s2
    if behind ≠ [] then none else some (major, minor)
  | _ => none

/-- The next token, or the one behind it if that is white space. -/
def nextToken : Parse Token := do
  let token ← getToken
  if token.tokType = WHITESPACE then getToken else return token

/-- `ParseHttpVersion`. -/
def ParseHttpVersion : Parse (Int × Int) := do
  let token ← getToken
  if strcaseEq token.s "HTTP".toList = false then throw parseFailure
  else
    let token ← nextToken
    if token.s ≠ ['/'] then throw parseFailure
    else
      let token ← nextToken
      match ParseMajorMinorNumbers (c_str token.s) with
      | none => throw parseFailure
      | some version => return version

/-- The path of `HttpRequestLine::load`: none for a star. -/
def loadPath (env : Uri.Env) : Parse (Option UriType) := do
  let token ← getToken
  if token.s = ['*'] then return none
  else
    pushBack
    let uri ← LoadUri env
    return some uri

/-- A token that has to be white space. -/
def loadSpace : Parse Unit := do
  let token ← getToken
  if token.tokType ≠ WHITESPACE then
    pushBack
    throw parseFailure
  else return ()

/-- What stands behind the version. -/
def loadLineEnd : Parse Unit := do
  let token ← nextToken
  if token.tokType ≠ CRLF then
    pushBack
    throw parseFailure
  else return ()

/-- `HttpRequestLine::load` behind the method. -/
def loadBehind (env : Uri.Env) (method : Option UpnpMethodType) : Parse HttpRequestLine := do
  loadSpace
  let uri ← loadPath env
  loadSpace
  let (majorVersion, minorVersion) ← ParseHttpVersion
  loadLineEnd
  return ⟨method, uri, majorVersion, minorVersion⟩

/-- The text of a path. -/
def pathText : Option UriType → CString
  | none => ['*']
  | some uri => uri.tempBuf

namespace HttpRequestLine

/-- `HttpRequestLine::load`. -/
def load (env : Uri.Env) : Parse HttpRequestLine := do
  SkipBlankLines
  let token ← getToken
  if token.tokType ≠ IDENTIFIER then
    pushBack
    throw parseFailure
  else
    -- where there is no method, an exception is made and dropped
    loadBehind env (NameToID token.s HttpMethodTable true)

/-- What `HttpRequestLine::toString` adds. -/
def lineText (methodStr : CString) (uri : Option UriType) (majorVersion minorVersion : Int) :
    CString :=
  methodStr ++ ' ' :: (pathText uri ++ ' ' :: ("HTTP/".toList ++ (decimal majorVersion ++
    '.' :: (decimal minorVersion ++ "\r\n".toList))))

/-- `HttpRequestLine::toString`; `none` where the assertion about the method fails. -/
def toString (r : HttpRequestLine) : Option CString := do
  let methodStr ← r.method.bind (IDToName · HttpMethodTable)
  some (lineText methodStr r.uri r.majorVersion r.minorVersion)

end HttpRequestLine

/-! ## The loops, token by token -/

section Loops

variable {env : Uri.Env} {s s' : Scanner} {t : Token} {ts ts' back : List Token}
  {uriStr text : CString} {α β : Type}

theorem SkipBlankLines_eq : SkipBlankLines = do
    let token ← getToken
    if IsBlank token then SkipBlankLines
    else
      pushBack
      return () := by
  funext s
  rw [SkipBlankLines]
  change _ = Parse.bind getToken _ s
  rw [Parse.bind]
  split
  · next hget => rw [hget]
  · next hget =>
    rw [hget]
    dsimp only
    split
    · rfl
    · change _ = Parse.bind pushBack _ _
      rw [Parse.bind]
      split
      · next hpush => rw [hpush]
      · next hpush =>
        rw [hpush]
        rfl

theorem loadPieces_eq (uriStr : CString) : loadPieces uriStr = do
    let token ← getToken
    if IsPiece token then loadPieces (uriStr ++ token.s)
    else
      pushBack
      return uriStr := by
  funext s
  rw [loadPieces]
  change _ = Parse.bind getToken _ s
  rw [Parse.bind]
  split
  · next hget => rw [hget]
  · next hget =>
    rw [hget]
    dsimp only
    split
    · rfl
    · change _ = Parse.bind pushBack _ _
      rw [Parse.bind]
      split
      · next hpush => rw [hpush]
      · next hpush =>
        rw [hpush]
        rfl

/-- What is blank is skipped. -/
theorem yields_SkipBlankLines (hts : ∀ t ∈ ts, IsBlank t) (ht : ¬ IsBlank t) :
    Yields back SkipBlankLines (ts ++ t :: ts') (.ok ()) (t :: ts') := by
  induction ts generalizing back with
  | nil =>
    rw [SkipBlankLines_eq]
    refine yields_getToken ?_
    rw [if_neg ht]
    exact yields_pushBack (yields_pure ())
  | cons u ts ih =>
    obtain ⟨hu, hts⟩ := List.forall_mem_cons.mp hts
    rw [SkipBlankLines_eq]
    refine yields_getToken ?_
    rw [if_pos hu]
    exact ih hts

/-- The text of a URI is put together. -/
theorem yields_loadPieces (hts : ∀ t ∈ ts, IsPiece t) (ht : ¬ IsPiece t) :
    Yields back (loadPieces uriStr) (ts ++ t :: ts') (.ok (uriStr ++ (ts.map Token.s).flatten))
      (t :: ts') := by
  induction ts generalizing back uriStr with
  | nil =>
    rw [loadPieces_eq, List.map_nil, List.flatten_nil, List.append_nil]
    refine yields_getToken ?_
    rw [if_neg ht]
    exact yields_pushBack (yields_pure uriStr)
  | cons u ts ih =>
    obtain ⟨hu, hts⟩ := List.forall_mem_cons.mp hts
    rw [loadPieces_eq, List.map_cons, List.flatten_cons, ← List.append_assoc]
    refine yields_getToken ?_
    rw [if_pos hu]
    exact ih hts

/-! ## What a parser that returns has read -/

theorem throw_ne_ok {e : ParseException} {a : α} : (throw e : Parse α) s ≠ (.ok a, s') :=
  fun h ↦ nomatch h

theorem fail_ne_ok {e : ParseException} {a : α} :
    (pushBack >>= fun _ ↦ (throw e : Parse α)) s ≠ (.ok a, s') := by
  intro h
  obtain ⟨_, _, -, h⟩ := bind_eq_ok.mp h
  exact throw_ne_ok h

/-- A token that was got can be put back. -/
theorem pushBack_getToken {s₁ : Scanner} (hget : getToken s = (.ok t, s₁)) :
    ∃ s', pushBack s₁ = (.ok (), s') ∧ s'.unread = t :: s₁.unread := by
  obtain ⟨-, -, n, -, hreturned⟩ := getToken_ok hget
  obtain ⟨s', hpush, hs', -⟩ := pushBack_of_returned hreturned
  exact ⟨s', hpush, hs'⟩

/-- A token that is not the end was to come. -/
theorem unread_getToken (hget : getToken s = (.ok t, s')) (ht : t ≠ ⟨END_OF_STREAM, []⟩) :
    s.unread = t :: s'.unread := by
  obtain ⟨-, h | ⟨-, -, heos⟩, -⟩ := getToken_ok hget
  · exact h
  · exact absurd heos ht

theorem ne_eos_of_type {tokType : TokenType} (ht : t.tokType = tokType)
    (hne : tokType ≠ END_OF_STREAM) : t ≠ ⟨END_OF_STREAM, []⟩ := by
  rintro rfl
  exact hne ht.symm

/-- A URI is put together of what was to come; at the end of the stream the end is put back. -/
theorem loadPieces_ok (h : loadPieces uriStr s = (.ok text, s')) :
    ∃ ts, (∀ t ∈ ts, IsPiece t) ∧ text = uriStr ++ (ts.map Token.s).flatten ∧
      (s.unread = ts ++ s'.unread ∨ s'.unread = [⟨END_OF_STREAM, []⟩]) := by
  fun_induction loadPieces uriStr s with
  | case1 => cases h
  | case2 uriStr s token s₁ hget hpiece ih =>
    obtain ⟨ts, hts, htext, hunread⟩ := ih h
    refine ⟨token :: ts, List.forall_mem_cons.mpr ⟨hpiece, hts⟩, ?_, hunread.imp_left fun hs₁ ↦ ?_⟩
    · rw [htext, List.map_cons, List.flatten_cons, List.append_assoc]
    · rw [unread_getToken hget (ne_eos_of_type rfl hpiece.ne_eos), hs₁, List.cons_append]
  | case3 => cases h
  | case4 uriStr s token s₁ hget hpiece s₂ hpush =>
    cases h
    refine ⟨[], fun _ hmem ↦ absurd hmem List.not_mem_nil, (List.append_nil _).symm, ?_⟩
    obtain ⟨s₃, hpush', hs₃⟩ := pushBack_getToken hget
    cases hpush.symm.trans hpush'
    by_cases heos : token = ⟨END_OF_STREAM, []⟩
    · obtain ⟨-, hs | ⟨-, hs, -⟩, -⟩ := getToken_ok hget
      · exact .inl (hs.trans hs₃.symm)
      · rw [hs₃, hs, heos]
        exact .inr rfl
    · exact .inl ((unread_getToken hget heos).trans hs₃.symm)

end Loops

/-! ## The form of a request line -/

/-- The tokens up to `t`, in front of which there may be white space. -/
def Next (ts : List Token) (t : Token) : Prop :=
  ts = [t] ∧ t.tokType ≠ WHITESPACE ∨ ∃ sp : Token, sp.tokType = WHITESPACE ∧ ts = [sp, t]

/-- The tokens of a version: `HTTP`, a slash, and two numbers in one token. -/
def IsVersion (ts : List Token) (version : Int × Int) : Prop :=
  ∃ http slash vers ts₁ ts₂, ts = http :: (ts₁ ++ ts₂) ∧ strcaseEq http.s "HTTP".toList = true ∧
    Next ts₁ slash ∧ slash.s = ['/'] ∧ Next ts₂ vers ∧
    ParseMajorMinorNumbers (c_str vers.s) = some version

/-- The tokens of a URI, of which the first is no star. -/
structure IsUri (env : Uri.Env) (ts : List Token) (uri : UriType) : Prop where
  pieces : ∀ t ∈ ts, IsPiece t
  text : uri.tempBuf = (ts.map Token.s).flatten
  ne_nil : uri.tempBuf ≠ []
  star : ∀ t ∈ ts.head?, t.s ≠ ['*']
  parsed : parsedUri env uri.tempBuf = .ok uri.uri

/-- The tokens of a path: a star, or a URI. -/
def IsPath (env : Uri.Env) (ts : List Token) : Option UriType → Prop
  | none => ∃ t, ts = [t] ∧ t.s = ['*']
  | some uri => IsUri env ts uri

/-- What has to stand behind the method: a path and a version, each behind white space, and the end
of the line. -/
def IsBehind (env : Uri.Env) (ts : List Token) (uri : Option UriType) (version : Int × Int)
    (ts' : List Token) : Prop :=
  ∃ sp sp' eol tsPath tsVersion tsEnd,
    ts = sp :: (tsPath ++ sp' :: (tsVersion ++ (tsEnd ++ ts'))) ∧ sp.tokType = WHITESPACE ∧
    IsPath env tsPath uri ∧ sp'.tokType = WHITESPACE ∧ IsVersion tsVersion version ∧
    Next tsEnd eol ∧ eol.tokType = CRLF

section Form

variable {env : Uri.Env} {s s' : Scanner} {t : Token} {ts ts' back : List Token} {α : Type}
  {uri : Option UriType} {version : Int × Int} {method : Option UpnpMethodType}
  {r : HttpRequestLine}

/-! ### What has the form is read -/

theorem yields_nextToken {f : Token → Parse α} {r : Except ParseException α} (hts : Next ts t)
    (h : Yields [] (f t) ts' r back) : Yields [] (nextToken >>= f) (ts ++ ts') r back := by
  have hnext : Yields [] nextToken (ts ++ ts') (.ok t) ts' := by
    rw [nextToken]
    rcases hts with ⟨rfl, ht⟩ | ⟨sp, hsp, rfl⟩
    · refine yields_getToken ?_
      rw [if_neg ht]
      exact yields_pure t
    · refine yields_getToken ?_
      rw [if_pos hsp]
      intro s hs hback
      obtain ⟨s', hget, hs', -⟩ := getToken_cons hs
      exact ⟨s', hget, hs'⟩
  exact hnext.bind h

theorem yields_loadSpace (ht : t.tokType = WHITESPACE) :
    Yields [] loadSpace (t :: ts) (.ok ()) ts := by
  refine yields_getToken ?_
  rw [if_neg (not_not.mpr ht)]
  exact yields_pure ()

theorem yields_loadLineEnd (hts : Next ts t) (ht : t.tokType = CRLF) :
    Yields [] loadLineEnd (ts ++ ts') (.ok ()) ts' := by
  refine yields_nextToken hts ?_
  rw [if_neg (not_not.mpr ht)]
  exact yields_pure ()

theorem yields_ParseHttpVersion (h : IsVersion ts version) :
    Yields [] ParseHttpVersion (ts ++ ts') (.ok version) ts' := by
  obtain ⟨http, slash, vers, ts₁, ts₂, rfl, hhttp, hslash, hs, hvers, hversion⟩ := h
  rw [List.cons_append, List.append_assoc]
  refine yields_getToken ?_
  rw [if_neg (by rw [hhttp]; exact Bool.noConfusion)]
  refine Yields.weaken (yields_nextToken hslash ?_)
  rw [if_neg (not_not.mpr hs)]
  refine yields_nextToken hvers ?_
  rw [hversion]
  exact yields_pure version

theorem yields_LoadUri {uri : UriType} (h : IsUri env ts uri) (ht : ¬ IsPiece t) :
    Yields [] (LoadUri env) (ts ++ t :: ts') (.ok uri) (t :: ts') := by
  refine (yields_loadPieces h.pieces ht).bind ?_
  rw [List.nil_append, ← h.text, if_neg h.ne_nil, h.parsed]
  exact yields_pure uri

theorem yields_loadPath (h : IsPath env ts uri) (ht : ¬ IsPiece t) :
    Yields [] (loadPath env) (ts ++ t :: ts') (.ok uri) (t :: ts') := by
  cases uri with
  | none =>
    obtain ⟨star, rfl, hstar⟩ := h
    refine yields_getToken ?_
    rw [if_pos hstar]
    exact yields_pure none
  | some uri =>
    cases ts with
    | nil => exact absurd h.text h.ne_nil
    | cons u ts =>
      refine yields_getToken ?_
      rw [if_neg (h.star u rfl)]
      refine yields_pushBack ?_
      exact ((yields_LoadUri h ht).weaken).bind (yields_pure (some uri))

/-- A line of the right form is read, whatever the method. -/
theorem yields_loadBehind (h : IsBehind env ts uri version ts') :
    Yields [] (loadBehind env method) ts (.ok ⟨method, uri, version.1, version.2⟩) ts' := by
  obtain ⟨sp, sp', eol, tsPath, tsVersion, tsEnd, rfl, hsp, hpath, hsp', hversion, hend, heol⟩ := h
  have hpiece : ¬ IsPiece sp' := by
    rintro (h | h | h) <;> cases h.symm.trans hsp'
  refine (yields_loadSpace hsp).bind ((yields_loadPath hpath hpiece).bind ?_)
  refine (yields_loadSpace hsp').bind ((yields_ParseHttpVersion hversion).bind ?_)
  exact (yields_loadLineEnd hend heol).bind (yields_pure _)

/-! ### What is read has the form -/

theorem nextToken_ok (h : nextToken s = (.ok t, s')) (ht : t ≠ ⟨END_OF_STREAM, []⟩) :
    ∃ ts, Next ts t ∧ s.unread = ts ++ s'.unread := by
  obtain ⟨u, s₁, hget, h⟩ := bind_eq_ok.mp h
  split at h
  · next hu =>
    refine ⟨[u, t], .inr ⟨u, hu, rfl⟩, ?_⟩
    rw [unread_getToken hget (ne_eos_of_type hu (by decide)), unread_getToken h ht]
    rfl
  · next hu =>
    cases h
    exact ⟨[t], .inl ⟨rfl, hu⟩, unread_getToken hget ht⟩

theorem loadSpace_ok (h : loadSpace s = (.ok (), s')) :
    ∃ t, t.tokType = WHITESPACE ∧ s.unread = t :: s'.unread := by
  obtain ⟨t, s₁, hget, h⟩ := bind_eq_ok.mp h
  split at h
  · exact absurd h fail_ne_ok
  · next ht =>
    cases h
    have ht := not_not.mp ht
    exact ⟨t, ht, unread_getToken hget (ne_eos_of_type ht (by decide))⟩

theorem loadLineEnd_ok (h : loadLineEnd s = (.ok (), s')) :
    ∃ ts t, Next ts t ∧ t.tokType = CRLF ∧ s.unread = ts ++ s'.unread := by
  obtain ⟨t, s₁, hnext, h⟩ := bind_eq_ok.mp h
  split at h
  · exact absurd h fail_ne_ok
  · next ht =>
    cases h
    have ht := not_not.mp ht
    obtain ⟨ts, hts, hunread⟩ := nextToken_ok hnext (ne_eos_of_type ht (by decide))
    exact ⟨ts, t, hts, ht, hunread⟩

theorem ParseHttpVersion_ok (h : ParseHttpVersion s = (.ok version, s')) :
    ∃ ts, IsVersion ts version ∧ s.unread = ts ++ s'.unread := by
  obtain ⟨http, s₁, hget, h⟩ := bind_eq_ok.mp h
  split at h
  · exact absurd h throw_ne_ok
  next hhttp =>
  rw [Bool.not_eq_false] at hhttp
  obtain ⟨slash, s₂, hnext, h⟩ := bind_eq_ok.mp h
  split at h
  · exact absurd h throw_ne_ok
  next hslash =>
  have hslash := not_not.mp hslash
  obtain ⟨vers, s₃, hnext', h⟩ := bind_eq_ok.mp h
  cases hversion : ParseMajorMinorNumbers (c_str vers.s) with
  | none =>
    rw [hversion] at h
    exact absurd h throw_ne_ok
  | some version =>
  rw [hversion] at h
  cases h
  have hne : http ≠ ⟨END_OF_STREAM, []⟩ := by
    rintro rfl
    cases hhttp
  have hne₁ : slash ≠ ⟨END_OF_STREAM, []⟩ := by
    rintro rfl
    cases hslash
  have hne₂ : vers ≠ ⟨END_OF_STREAM, []⟩ := by
    rintro rfl
    cases hversion
  obtain ⟨ts₁, hts₁, hunread₁⟩ := nextToken_ok hnext hne₁
  obtain ⟨ts₂, hts₂, hunread₂⟩ := nextToken_ok hnext' hne₂
  refine ⟨http :: (ts₁ ++ ts₂), ⟨http, slash, vers, ts₁, ts₂, rfl, hhttp, hts₁, hslash, hts₂,
    hversion⟩, ?_⟩
  rw [unread_getToken hget hne, hunread₁, hunread₂, List.cons_append, List.append_assoc]

theorem LoadUri_ok {uri : UriType} (h : LoadUri env s = (.ok uri, s')) :
    ∃ ts, (∀ t ∈ ts, IsPiece t) ∧ uri.tempBuf = (ts.map Token.s).flatten ∧ uri.tempBuf ≠ [] ∧
      parsedUri env uri.tempBuf = .ok uri.uri ∧
      (s.unread = ts ++ s'.unread ∨ s'.unread = [⟨END_OF_STREAM, []⟩]) := by
  obtain ⟨uriStr, s₁, hloop, h⟩ := bind_eq_ok.mp h
  obtain ⟨ts, hts, htext, hunread⟩ := loadPieces_ok hloop
  split at h
  · exact absurd h throw_ne_ok
  next hne =>
  cases hparsed : parsedUri env uriStr with
  | error code =>
    rw [hparsed] at h
    exact absurd h throw_ne_ok
  | ok uri =>
  rw [hparsed] at h
  cases h
  exact ⟨ts, hts, htext, hne, hparsed, hunread⟩

theorem loadPath_ok (h : loadPath env s = (.ok uri, s')) :
    (∃ ts, IsPath env ts uri ∧ s.unread = ts ++ s'.unread) ∨
      s'.unread = [⟨END_OF_STREAM, []⟩] := by
  obtain ⟨t, s₁, hget, h⟩ := bind_eq_ok.mp h
  split at h
  · next ht =>
    cases h
    have hne : t ≠ ⟨END_OF_STREAM, []⟩ := by
      rintro rfl
      cases ht
    exact .inl ⟨[t], ⟨t, rfl, ht⟩, unread_getToken hget hne⟩
  · next ht =>
    obtain ⟨_, s₂, hpush, h⟩ := bind_eq_ok.mp h
    obtain ⟨uri, s₃, hload, h⟩ := bind_eq_ok.mp h
    cases h
    obtain ⟨s₂', hpush', hs₂⟩ := pushBack_getToken hget
    cases hpush.symm.trans hpush'
    obtain ⟨ts, hts, htext, hne, hparsed, hunread | hunread⟩ := LoadUri_ok hload
    · have hfirst : ∃ ts₁, ts = t :: ts₁ := by
        cases ts with
        | nil => exact absurd htext hne
        | cons u ts₁ =>
          rw [hs₂] at hunread
          rw [(List.cons.inj hunread).1]
          exact ⟨ts₁, rfl⟩
      obtain ⟨ts₁, rfl⟩ := hfirst
      refine .inl ⟨t :: ts₁, ⟨hts, htext, hne, ?_, hparsed⟩, ?_⟩
      · rintro u ⟨⟩
        exact ht
      · have hs := unread_getToken hget (ne_eos_of_type rfl (hts t List.mem_cons_self).ne_eos)
        rw [hs, ← hs₂, hunread]
    · exact .inr hunread

theorem loadBehind_ok (h : loadBehind env method s = (.ok r, s')) :
    ∃ uri version, IsBehind env s.unread uri version s'.unread := by
  obtain ⟨_, s₁, hspace, h⟩ := bind_eq_ok.mp h
  obtain ⟨uri, s₂, hpath, h⟩ := bind_eq_ok.mp h
  obtain ⟨_, s₃, hspace', h⟩ := bind_eq_ok.mp h
  obtain ⟨version, s₄, hversion, h⟩ := bind_eq_ok.mp h
  obtain ⟨_, s₅, hend, h⟩ := bind_eq_ok.mp h
  cases h
  obtain ⟨sp, hsp, hunread⟩ := loadSpace_ok hspace
  obtain ⟨sp', hsp', hunread₂⟩ := loadSpace_ok hspace'
  obtain ⟨tsVersion, htsVersion, hunread₃⟩ := ParseHttpVersion_ok hversion
  obtain ⟨tsEnd, eol, htsEnd, heol, hunread₄⟩ := loadLineEnd_ok hend
  rcases loadPath_ok hpath with ⟨tsPath, htsPath, hunread₁⟩ | heos
  · refine ⟨uri, version, sp, sp', eol, tsPath, tsVersion, tsEnd, ?_, hsp, htsPath, hsp',
      htsVersion, htsEnd, heol⟩
    rw [hunread, hunread₁, hunread₂, hunread₃, hunread₄]
  · rw [heos] at hunread₂
    cases (List.cons.inj hunread₂).1
    cases hsp'

end Form

/-! ## The tokens of what is printed -/

section Printed

variable {env : Uri.Env} {u rest name : CString} {x y : Int} {m : UpnpMethodType}

/-- The characters of URIs, and others: what is neither white space nor a quote. -/
def IsUriChar (c : Char) : Prop := 33 ≤ c.toNat ∧ c.toNat ≤ 126 ∧ c ≠ '"'

theorem IsUriChar.ne {c d : Char} (hc : IsUriChar c) (hd : d.toNat ≤ 32) : c ≠ d := by
  rintro rfl
  have hlow := hc.1
  omega

theorem IsUriChar.not_whitespace {c : Char} (hc : IsUriChar c) : ¬ IsWhitespace c := by
  simp only [IsWhitespace, Bool.or_eq_true, decide_eq_true_eq, not_or]
  exact ⟨hc.ne (by decide), hc.ne (by decide)⟩

/-- A character of a URI is one of an identifier, or stands for itself. -/
theorem lexToken_uri {c : Char} (hc : IsUriChar c) (hident : ¬ IsIdentifierChar c) :
    lexToken c rest = .ok (separator c, rest) := by
  obtain ⟨hlow, hhigh, hquote⟩ := id hc
  have hcontrol : ¬ IsControlChar c := by
    simp only [IsControlChar, Bool.or_eq_true, decide_eq_true_eq, not_or]
    omega
  have hsep : IsSeparator c := by
    by_contra hsep
    refine hident ?_
    simp only [IsIdentifierChar, Bool.and_eq_true, decide_eq_true_eq, Bool.not_eq_true']
    exact ⟨⟨by omega, hhigh⟩, Bool.eq_false_iff.mpr hsep⟩
  rw [lexToken, if_neg hident, if_neg hc.not_whitespace, if_neg (hc.ne (by decide)),
    if_neg (hc.ne (by decide)), if_neg hquote, if_neg hcontrol, if_pos hsep]
  rfl

/-- In front of a blank the text of a URI is lexed as the tokens that it is put together of. -/
theorem lexesAs_uri (hu : ∀ c ∈ u, IsUriChar c) (hstar : u.takeWhile IsIdentifierChar ≠ ['*']) :
    ∃ ts, LexesAs u ts (' ' :: rest) ∧ (∀ t ∈ ts, IsPiece t) ∧ (ts.map Token.s).flatten = u ∧
      ∀ t ∈ ts.head?, t.s ≠ ['*'] := by
  -- the star matters for the first token only
  have key : ∀ n (u : CString), u.length ≤ n → (∀ c ∈ u, IsUriChar c) →
      ∃ ts, LexesAs u ts (' ' :: rest) ∧ (∀ t ∈ ts, IsPiece t) ∧ (ts.map Token.s).flatten = u ∧
        ∀ t ∈ ts.head?,
          t.s = u.takeWhile IsIdentifierChar ∨ ∃ c, t.s = [c] ∧ ¬ IsIdentifierChar c := by
    intro n
    induction n with
    | zero =>
      intro u hlen _
      obtain rfl := List.length_eq_zero_iff.mp (Nat.le_zero.mp hlen)
      exact ⟨[], rfl, fun _ h ↦ absurd h List.not_mem_nil, rfl, fun _ h ↦ nomatch h⟩
    | succ n ih =>
      intro u hlen hu
      cases u with
      | nil => exact ⟨[], rfl, fun _ h ↦ absurd h List.not_mem_nil, rfl, fun _ h ↦ nomatch h⟩
      | cons c u =>
        obtain ⟨hc, hu⟩ := List.forall_mem_cons.mp hu
        have hlen := Nat.le_of_succ_le_succ hlen
        by_cases hident : IsIdentifierChar c
        · have hdrop : ∀ d ∈ u.dropWhile IsIdentifierChar, IsUriChar d := fun d hd ↦
            hu d ((List.dropWhile_sublist _).mem hd)
          obtain ⟨ts, hlex, hpiece, htext, -⟩ := ih (u.dropWhile IsIdentifierChar)
            ((List.dropWhile_sublist _).length_le.trans hlen) hdrop
          have hname : IsIdentifier (c :: u.takeWhile IsIdentifierChar) :=
            ⟨List.cons_ne_nil _ _, List.forall_mem_cons.mpr
              ⟨hident, fun d hd ↦ List.mem_takeWhile_imp hd⟩⟩
          have hrest : ∀ d ∈ (u.dropWhile IsIdentifierChar ++ ' ' :: rest).head?,
              IsIdentifierChar d = false := by
            cases hd : u.dropWhile IsIdentifierChar with
            | nil =>
              rintro d ⟨⟩
              rfl
            | cons d u' =>
              rintro d' ⟨⟩
              have hhead := List.head_dropWhile_not IsIdentifierChar (l := u)
                (w := by rw [hd]; exact List.cons_ne_nil _ _)
              simpa [hd] using hhead
          have hlex' := (lexesAs_word hname hrest).append hlex
          rw [List.cons_append, List.takeWhile_append_dropWhile] at hlex'
          refine ⟨_, hlex', List.forall_mem_cons.mpr ⟨.inl rfl, hpiece⟩, ?_, ?_⟩
          · rw [List.singleton_append, List.map_cons, List.flatten_cons, htext, word_s,
              List.cons_append, List.takeWhile_append_dropWhile]
          · rintro t ⟨⟩
            exact .inl (by rw [List.takeWhile_cons_of_pos hident]; rfl)
        · obtain ⟨ts, hlex, hpiece, htext, -⟩ := ih u hlen hu
          have hsep : LexesAs [c] [separator c] (u ++ ' ' :: rest) :=
            lex_cons (lexToken_uri hc hident)
          refine ⟨_, hsep.append hlex, List.forall_mem_cons.mpr ⟨.inr (.inl rfl), hpiece⟩, ?_, ?_⟩
          · rw [List.singleton_append, List.map_cons, List.flatten_cons, htext]
            rfl
          · rintro t ⟨⟩
            exact .inr ⟨c, rfl, hident⟩
  obtain ⟨ts, hlex, hpiece, htext, hhead⟩ := key u.length u (Nat.le_refl _) hu
  refine ⟨ts, hlex, hpiece, htext, fun t ht heq ↦ ?_⟩
  rcases hhead t ht with h | ⟨c, h, hc⟩
  · exact hstar (h.symm.trans heq)
  · obtain rfl := (List.cons.inj (h.symm.trans heq)).1
    exact hc rfl

/-- A number of a version is read up to what ends it. -/
theorem versionNumber_decimal (hx : 0 ≤ x ∧ x ≤ intMax) (hrest : EndsNumeral 10 rest) :
    versionNumber (decimal x ++ rest) = some (x, rest) := by
  obtain ⟨hne, hdigits, hnum, -⟩ := CacheDirective.isNumber_decimal hx
  have hconv := strtol_of_digits [] (fun c hc ↦ absurd hc List.not_mem_nil) hdigits hrest hne
  rw [List.nil_append, hnum] at hconv
  have hclamp : wrap32 (clampLong x) = x := by
    have hle := hx.2
    unfold intMax at hle
    unfold clampLong
    rw [min_eq_right (by omega), max_eq_right (by omega), wrap32_of_range (by omega) (by omega)]
  have hlimit := wrap32_ne_limit (clampLong x)
  rw [hclamp] at hlimit
  rw [versionNumber, hconv, Option.getD_some, hclamp, endptr_of_digits hdigits hrest hne]
  exact if_neg fun h ↦ h.elim (not_lt.mpr hx.1) fun h ↦ hlimit h.1.symm

/-- The numbers of a version are read from the text that is printed. -/
theorem ParseMajorMinorNumbers_decimal (hx : 0 ≤ x ∧ x ≤ intMax) (hy : 0 ≤ y ∧ y ≤ intMax) :
    ParseMajorMinorNumbers (decimal x ++ '.' :: decimal y) = some (x, y) := by
  have hdot : EndsNumeral 10 ('.' :: decimal y) := by
    rintro c ⟨⟩
    decide
  have hend : EndsNumeral 10 [] := fun c hc ↦ nomatch hc
  have hminor := versionNumber_decimal hy hend
  rw [List.append_nil] at hminor
  rw [ParseMajorMinorNumbers, versionNumber_decimal hx hdot]
  change ((versionNumber (decimal y)).bind fun p ↦ if p.2 ≠ [] then none else some (x, p.1)) = _
  rw [hminor]
  rfl

/-- The numbers of a version are one identifier. -/
theorem isIdentifier_version (hx : 0 ≤ x ∧ x ≤ intMax) (hy : 0 ≤ y ∧ y ≤ intMax) :
    IsIdentifier (decimal x ++ '.' :: decimal y) := by
  refine ⟨List.append_ne_nil_of_right_ne_nil _ (List.cons_ne_nil _ _), fun c hc ↦ ?_⟩
  rcases List.mem_append.mp hc with hc | hc
  · exact (CacheDirective.isIdentifier_decimal hx).2 c hc
  · rcases List.mem_cons.mp hc with rfl | hc
    · rfl
    · exact (CacheDirective.isIdentifier_decimal hy).2 c hc

/-- An identifier has no NUL. -/
theorem c_str_identifier (h : IsIdentifier name) : c_str name = name := by
  refine List.takeWhile_eq_self_iff.mpr fun c hc ↦ ?_
  have hident := h.2 c hc
  rw [decide_eq_true_eq]
  rintro rfl
  cases hident

/-! ### Methods -/

/-- In a table in order every name is found. -/
theorem NameToID_entry {ι : Type} {table : List (CString × ι)}
    (hsorted : (table.map Prod.fst).Pairwise (· < ·)) {i : Nat} (hi : i < table.length) :
    NameToID table[i].1 table true = some table[i].2 := by
  have hlt : ∀ j k (hj : j < table.length) (hk : k < table.length), j < k →
      table[j].1 < table[k].1 := by
    intro j k hj hk hjk
    have hpair := List.pairwise_iff_getElem.mp hsorted j k (by simpa) (by simpa) hjk
    simpa using hpair
  have hentry : ∀ j (hj : j < table.length), (table[j]?.map Prod.fst).getD [] = table[j].1 := by
    intro j hj
    rw [List.getElem?_eq_getElem hj]
    rfl
  have hplaces : Places (fun mid ↦ strcmp table[i].1 ((table[mid]?.map Prod.fst).getD []))
      (table.length - 1) i := by
    constructor
    · rw [hentry i hi]
      exact strcmp_eq_iff.mpr rfl
    · intro j hj
      have hlt := hlt j i (hj.trans hi) hi hj
      rw [hentry j (hj.trans hi), strcmp, if_neg (fun heq ↦ List.lt_irrefl _ (heq ▸ hlt)),
        if_neg (List.lt_asymm hlt)]
    · intro j hj hle
      have hj' : j < table.length := by omega
      have hlt := hlt i j hi hj' hj
      rw [hentry j hj', strcmp, if_neg (fun heq ↦ List.lt_irrefl _ (heq ▸ hlt)), if_pos hlt]
  rw [NameToID]
  simp only [if_true]
  rw [bisect_complete hplaces (Int.le_refl 0) (Int.le_refl _) (by omega) (by omega),
    Option.bind_some, List.getElem?_eq_getElem hi]
  rfl

theorem HttpMethodTable_sorted : (HttpMethodTable.map Prod.fst).Pairwise (· < ·) := by
  decide +kernel

/-- The name of a method stands for it. -/
theorem method_name (m : UpnpMethodType) : ∃ name, IDToName m HttpMethodTable = some name ∧
    NameToID name HttpMethodTable true = some m ∧ IsIdentifier name := by
  have hfound : ∃ i, ∃ hi : i < HttpMethodTable.length,
      IDToName m HttpMethodTable = some HttpMethodTable[i].1 ∧ HttpMethodTable[i].2 = m := by
    cases m
    · exact ⟨0, by decide, rfl, rfl⟩
    · exact ⟨1, by decide, rfl, rfl⟩
    · exact ⟨4, by decide, rfl, rfl⟩
    · exact ⟨3, by decide, rfl, rfl⟩
    · exact ⟨5, by decide, rfl, rfl⟩
    · exact ⟨2, by decide, rfl, rfl⟩
    · exact ⟨6, by decide, rfl, rfl⟩
    · exact ⟨7, by decide, rfl, rfl⟩
  obtain ⟨i, hi, hname, rfl⟩ := hfound
  refine ⟨_, hname, NameToID_entry HttpMethodTable_sorted hi, ?_⟩
  have hall : HttpMethodTable.all (fun e ↦ !e.1.isEmpty && e.1.all IsIdentifierChar) = true := rfl
  have hname := List.all_eq_true.mp hall _ (List.getElem_mem hi)
  rw [Bool.and_eq_true, Bool.not_eq_true', List.isEmpty_eq_false_iff] at hname
  exact ⟨hname.1, List.all_eq_true.mp hname.2⟩

/-! ## Request lines that are read back, and lines that are refused -/

/-- The URIs of request lines: what `parse_uri` accepts of the characters of URIs.  A star that
stands alone in front makes none: it is the path of its own. -/
structure IsRequestUri (env : Uri.Env) (uri : UriType) : Prop where
  ne_nil : uri.tempBuf ≠ []
  chars : ∀ c ∈ uri.tempBuf, IsUriChar c
  star : uri.tempBuf.takeWhile IsIdentifierChar ≠ ['*']
  parsed : parsedUri env uri.tempBuf = .ok uri.uri

namespace HttpRequestLine

/-- A request line of a known method. -/
structure IsProper (env : Uri.Env) (r : HttpRequestLine) : Prop where
  method : r.method.isSome
  uri : ∀ uri ∈ r.uri, IsRequestUri env uri
  major : 0 ≤ r.majorVersion ∧ r.majorVersion ≤ intMax
  minor : 0 ≤ r.minorVersion ∧ r.minorVersion ≤ intMax

end HttpRequestLine

/-- What stands behind the method, in front of the rest of the message. -/
theorem lexesAs_behind (rest : CString) {uri : Option UriType}
    (huri : ∀ v ∈ uri, IsRequestUri env v) (hx : 0 ≤ x ∧ x ≤ intMax) (hy : 0 ≤ y ∧ y ≤ intMax) :
    ∃ ts, IsBehind env (ts ++ (lex rest).1) uri (x, y) (lex rest).1 ∧
      lex (' ' :: (pathText uri ++ ' ' :: ("HTTP/".toList ++ (decimal x ++ '.' :: (decimal y ++
        '\r' :: '\n' :: rest))))) = (ts ++ (lex rest).1, (lex rest).2) := by
  have hversion := isIdentifier_version hx hy
  have hnumbers : lex ((decimal x ++ '.' :: decimal y) ++ '\r' :: '\n' :: rest) =
      (word (decimal x ++ '.' :: decimal y) :: lineEnd :: (lex rest).1, (lex rest).2) := by
    rw [lex_identifier hversion.1 hversion.2 fun c hc ↦ ?_, lex_crlf]
    · rfl
    · obtain rfl := Option.some.inj hc
      rfl
  have hhttp : lex (' ' :: ("HTTP/".toList ++ ((decimal x ++ '.' :: decimal y) ++
      '\r' :: '\n' :: rest))) = (blank :: word "HTTP".toList :: separator '/' ::
        word (decimal x ++ '.' :: decimal y) :: lineEnd :: (lex rest).1, (lex rest).2) := by
    rw [lex_blank fun c hc ↦ ?_]
    · change (blank :: (lex ("HTTP".toList ++ '/' :: _)).1, (lex ("HTTP".toList ++ '/' :: _)).2) = _
      rw [lex_identifier (by simp) (List.all_eq_true.mp rfl) fun c hc ↦ ?_, lex_separator (by simp)]
      · change (_ :: _ :: _ :: (lex ((decimal x ++ '.' :: decimal y) ++ _)).1,
          (lex ((decimal x ++ '.' :: decimal y) ++ _)).2) = _
        rw [hnumbers]
        rfl
      · obtain rfl := Option.some.inj hc
        rfl
    · obtain rfl := Option.some.inj hc
      rfl
  have hvers : IsVersion [word "HTTP".toList, separator '/', word (decimal x ++ '.' :: decimal y)]
      (x, y) := by
    refine ⟨_, _, _, [separator '/'], [word (decimal x ++ '.' :: decimal y)], rfl, rfl,
      .inl ⟨rfl, by decide⟩, rfl, .inl ⟨rfl, fun h ↦ nomatch h⟩, ?_⟩
    rw [word_s, c_str_identifier hversion]
    exact ParseMajorMinorNumbers_decimal hx hy
  have hpath : ∃ ts, IsPath env ts uri ∧ LexesAs (pathText uri) ts
      (' ' :: ("HTTP/".toList ++ ((decimal x ++ '.' :: decimal y) ++ '\r' :: '\n' :: rest))) ∧
      ∃ c u, pathText uri = c :: u ∧ IsWhitespace c = false := by
    cases uri with
    | none =>
      have hstar : IsIdentifier ['*'] := ⟨by simp, List.all_eq_true.mp rfl⟩
      refine ⟨[word ['*']], ⟨_, rfl, rfl⟩, lexesAs_word hstar ?_, _, _, rfl, rfl⟩
      rintro c ⟨⟩
      rfl
    | some uri =>
      obtain ⟨hne, hchars, hstar, hparsed⟩ := huri uri rfl
      obtain ⟨ts, hlex, hpiece, htext, hhead⟩ := lexesAs_uri hchars hstar
      obtain ⟨c, u, hu⟩ := List.exists_cons_of_ne_nil hne
      have hc := (hchars c (by rw [hu]; exact List.mem_cons_self)).not_whitespace
      exact ⟨ts, ⟨hpiece, htext.symm, hne, hhead, hparsed⟩, hlex, c, u, hu,
        Bool.eq_false_iff.mpr hc⟩
  obtain ⟨tsPath, htsPath, hlex, hhead⟩ := hpath
  refine ⟨blank :: (tsPath ++ blank :: ([word "HTTP".toList, separator '/',
    word (decimal x ++ '.' :: decimal y)] ++ ([lineEnd] ++ []))), ?_, ?_⟩
  · refine ⟨blank, blank, lineEnd, tsPath, _, [lineEnd], ?_, rfl, htsPath, rfl, hvers,
      .inl ⟨rfl, by decide⟩, rfl⟩
    simp only [List.cons_append, List.append_assoc, List.nil_append]
  · have hlex := hlex
    rw [LexesAs, hhttp] at hlex
    have hnested : (decimal x ++ '.' :: decimal y) ++ '\r' :: '\n' :: rest =
        decimal x ++ '.' :: (decimal y ++ '\r' :: '\n' :: rest) := by
      rw [List.append_assoc, List.cons_append]
    rw [hnested] at hlex
    rw [lex_blank fun c hc ↦ ?_, hlex]
    · simp only [List.cons_append, List.append_assoc, List.nil_append]
      rfl
    · obtain ⟨c', u, hu, hc'⟩ := hhead
      rw [hu] at hc
      obtain rfl := Option.some.inj hc
      exact hc'

namespace HttpRequestLine

variable {r : HttpRequestLine} {s : Scanner} {t : Token} {ts blanks : List Token}

/-- A method that is an identifier is looked up, and the line is read on; another is refused. -/
theorem load_eq (env : Uri.Env) (hs : s.unread = blanks ++ t :: ts)
    (hblanks : ∀ b ∈ blanks, IsBlank b) (ht : ¬ IsBlank t) : ∃ s₁, s₁.unread = ts ∧
      if t.tokType = IDENTIFIER then
        load env s = loadBehind env (NameToID t.s HttpMethodTable true) s₁
      else ∃ e s', load env s = (.error e, s') := by
  obtain ⟨s₁, hskip, hs₁⟩ := yields_SkipBlankLines hblanks ht s hs
    (List.nil_prefix ..)
  obtain ⟨s₂, hget, hs₂, -⟩ := getToken_cons hs₁
  refine ⟨s₂, hs₂, ?_⟩
  rw [load, bind_ok hskip, bind_ok hget]
  by_cases htype : t.tokType = IDENTIFIER
  · rw [if_pos htype, if_neg (not_not.mpr htype)]
  · rw [if_neg htype, if_pos htype]
    obtain ⟨s₃, hpush, -⟩ := pushBack_getToken hget
    exact ⟨parseFailure, s₃, bind_ok hpush⟩

/-- A line is refused if its method is no identifier, or if what stands behind has not the form; a
method that is not in the table is no reason. -/
theorem refused_iff (hs : s.unread = blanks ++ t :: ts) (hblanks : ∀ b ∈ blanks, IsBlank b)
    (ht : ¬ IsBlank t) : (∃ e s', load env s = (.error e, s')) ↔
      ¬ (t.tokType = IDENTIFIER ∧ ∃ uri version ts', IsBehind env ts uri version ts') := by
  obtain ⟨s₁, hs₁, hload⟩ := load_eq env hs hblanks ht
  split at hload
  · next htype =>
    rw [hload]
    constructor
    · rintro ⟨e, s', herror⟩ ⟨-, uri, version, ts', hbehind⟩
      obtain ⟨s'', hok, -⟩ := yields_loadBehind hbehind s₁ hs₁ (List.nil_prefix ..)
      cases herror.symm.trans hok
    · intro hnot
      cases hrun : loadBehind env (NameToID t.s HttpMethodTable true) s₁ with
      | mk result s' =>
        cases result with
        | error e => exact ⟨e, s', rfl⟩
        | ok r =>
          obtain ⟨uri, version, hbehind⟩ := loadBehind_ok hrun
          rw [hs₁] at hbehind
          exact absurd ⟨htype, uri, version, _, hbehind⟩ hnot
  · next htype => exact iff_of_true hload fun h ↦ htype h.1

end HttpRequestLine

/-- The tokens of a line that is printed. -/
theorem unread_lineText (rest : CString) (hname : IsIdentifier name) {uri : Option UriType}
    (huri : ∀ v ∈ uri, IsRequestUri env v) (hx : 0 ≤ x ∧ x ≤ intMax) (hy : 0 ≤ y ∧ y ≤ intMax) :
    ∃ ts, (scannerOf (HttpRequestLine.lineText name uri x y ++ rest)).unread = word name :: ts ∧
      IsBehind env ts uri (x, y) (lex rest).1 := by
  obtain ⟨ts, hbehind, hlex⟩ := lexesAs_behind rest huri hx hy
  refine ⟨_, ?_, hbehind⟩
  change (lex _).1 = _
  have hnested : HttpRequestLine.lineText name uri x y ++ rest =
      name ++ ' ' :: (pathText uri ++ ' ' :: ("HTTP/".toList ++ (decimal x ++ '.' :: (decimal y ++
        '\r' :: '\n' :: rest)))) := by
    rw [HttpRequestLine.lineText]
    simp only [List.append_assoc, List.cons_append]
    rfl
  rw [hnested, lex_identifier hname.1 hname.2 fun c hc ↦ ?_, hlex]
  · rfl
  · obtain rfl := Option.some.inj hc
    rfl

/-- A line that is printed is read, whatever its method. -/
theorem load_lineText (rest : CString) (hname : IsIdentifier name) {uri : Option UriType}
    (huri : ∀ v ∈ uri, IsRequestUri env v) (hx : 0 ≤ x ∧ x ≤ intMax) (hy : 0 ≤ y ∧ y ≤ intMax) :
    ∃ s', HttpRequestLine.load env (scannerOf (HttpRequestLine.lineText name uri x y ++ rest)) =
      (.ok ⟨NameToID name HttpMethodTable true, uri, x, y⟩, s') ∧ s'.unread = (lex rest).1 := by
  obtain ⟨ts, hline, hbehind⟩ := unread_lineText rest hname huri hx hy
  have hblank : ¬ IsBlank (word name) := fun h ↦ h.elim (word_ne name).1 (word_ne name).2
  obtain ⟨s₁, hs₁, hload⟩ := HttpRequestLine.load_eq env
    (hline.trans (List.nil_append _).symm) (fun _ h ↦ absurd h List.not_mem_nil) hblank
  rw [if_pos (show (word name).tokType = IDENTIFIER from rfl), word_s] at hload
  obtain ⟨s', hrun, hs'⟩ := yields_loadBehind hbehind s₁ hs₁ (List.nil_prefix ..)
  exact ⟨s', hload.trans hrun, hs'⟩

/-- The line of a known method is read back. -/
theorem load_toString {r : HttpRequestLine} (h : r.IsProper env) (rest : CString) :
    ∃ text, r.toString = some text ∧ ∃ s', HttpRequestLine.load env (scannerOf (text ++ rest)) =
      (.ok r, s') ∧ s'.unread = (lex rest).1 := by
  obtain ⟨hm, huri, hmajor, hminor⟩ := h
  obtain ⟨method, uri, majorVersion, minorVersion⟩ := r
  obtain ⟨m, rfl⟩ := Option.isSome_iff_exists.mp hm
  obtain ⟨name, hname, hid, hident⟩ := method_name m
  refine ⟨HttpRequestLine.lineText name uri majorVersion minorVersion, ?_, ?_⟩
  · rw [HttpRequestLine.toString, Option.bind_some, hname]
    rfl
  · rw [← hid]
    exact load_lineText rest hident huri hmajor hminor

/-- **The lines of known methods are read back, and a line of another method is refused only for
what stands behind the method.** -/
theorem request_lines (env : Uri.Env) :
    (∀ r : HttpRequestLine, r.IsProper env → ∀ rest, ∃ text, r.toString = some text ∧
      ∃ s', HttpRequestLine.load env (scannerOf (text ++ rest)) = (.ok r, s') ∧
        s'.unread = (lex rest).1) ∧
    ∀ (s : Scanner) (blanks : List Token) (t : Token) (ts : List Token),
      s.unread = blanks ++ t :: ts → (∀ b ∈ blanks, IsBlank b) → ¬ IsBlank t →
      t.s ∉ HttpMethodTable.map Prod.fst →
      ((∃ e s', HttpRequestLine.load env s = (.error e, s')) ↔
        ¬ (t.tokType = IDENTIFIER ∧ ∃ uri version ts', IsBehind env ts uri version ts')) :=
  ⟨fun _ h rest ↦ load_toString h rest, fun _ _ _ _ hs hblanks ht _ ↦
    HttpRequestLine.refused_iff hs hblanks ht⟩

end Printed

/-- A system without names. -/
def offline : Uri.Env := ⟨true, fun _ ↦ none⟩

/-- The request for a path. -/
def requestX : HttpRequestLine where
  method := some HTTP_GET
  uri := some
    ⟨⟨.RELATIVE, ⟨none, 0⟩, .ABS_PATH, ⟨some 0, 2⟩, ⟨none, 0⟩, ⟨⟨none, 0⟩, 0, 0⟩⟩, "/x".toList⟩
  majorVersion := 1
  minorVersion := 1

theorem requestX_proper : requestX.IsProper offline where
  method := rfl
  uri := by
    rintro uri ⟨⟩
    exact ⟨by decide, by simp [IsUriChar], by decide, rfl⟩
  major := by decide
  minor := by decide

theorem request_lines_x : ∃ s',
    HttpRequestLine.load offline (scannerOf "GET /x HTTP/1.1\r\n".toList) = (.ok requestX, s') ∧
      s'.unread = [] := by
  obtain ⟨text, htext, hload⟩ := (request_lines offline).1 requestX requestX_proper []
  obtain rfl := Option.some.inj htext
  rw [lex_nil] at hload
  exact hload

/-- The line of a method that does not exist is read. -/
theorem unknown_method_read : "BREW".toList ∉ HttpMethodTable.map Prod.fst ∧
    ∃ r s', HttpRequestLine.load offline (scannerOf "BREW * HTTP/1.1\r\n".toList) =
      (.ok r, s') := by
  refine ⟨by decide, ?_⟩
  have hname : IsIdentifier "BREW".toList := ⟨by simp, List.all_eq_true.mp rfl⟩
  have huri : ∀ v ∈ (none : Option UriType), IsRequestUri offline v := fun _ h ↦ nomatch h
  obtain ⟨s', hload, -⟩ := load_lineText [] hname huri (x := 1) (y := 1) (by decide) (by decide)
  exact ⟨_, s', hload⟩

end Upnp.Web
