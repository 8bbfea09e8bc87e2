import Upnp.Uri.ResolveRelUrl

/-!
# References and their resolution

URI references by their parts, and how RFC 2396 (5.2) resolves a reference against a
base.  A path that climbs above the root is the error that it allows.
-/

namespace Upnp.Uri

open Upnp.Lib

/-! ## The parts of a reference -/

/-- A reference by its parts; a part that is missing is not an empty one. -/
structure Reference where
  scheme : Option CString
  authority : Option CString
  path : CString
  query : Option CString
  fragment : Option CString
deriving DecidableEq, Repr

/-- A part behind its delimiter. -/
def behind (delimiter : CString) : Option CString → CString
  | none => []
  | some part => delimiter ++ part

/-- The scheme with its delimiter. -/
def schemeText : Option CString → CString
  | none => []
  | some s => s ++ [':']

/-- The text of a reference. -/
def Reference.text (r : Reference) : CString :=
  schemeText r.scheme ++ behind ['/', '/'] r.authority ++ r.path ++
    (behind ['?'] r.query ++ behind ['#'] r.fragment)

/-- The scheme in front of the first colon. -/
def schemeOf : CString → Option CString
  | [] => none
  | c :: rest =>
    if c.isAlpha ∧ ((c :: rest).dropWhile isScheme).head? = some ':' then
      some ((c :: rest).takeWhile isScheme)
    else none

/-- The authority behind two slashes. -/
def authorityOf (text : CString) : Option CString :=
  if ['/', '/'] <+: text then
    some ((text.drop 2).takeWhile fun c ↦ c ≠ '/' && !Web.isQueryStart c)
  else none

/-- The query in what stands behind the path. -/
def queryOf (tail : CString) : Option CString :=
  match tail.takeWhile (· ≠ '#') with
  | [] => none
  | _ :: query => some query

/-- The fragment in what stands behind the path. -/
def fragmentOf (tail : CString) : Option CString :=
  match tail.dropWhile (· ≠ '#') with
  | [] => none
  | _ :: fragment => some fragment

/-- What stands behind the scheme. -/
def afterSchemeOf (text : CString) : CString := text.drop (schemeText (schemeOf text)).length

/-- What stands behind the authority. -/
def afterAuthority (text : CString) : CString :=
  text.drop (behind ['/', '/'] (authorityOf text)).length

/-- The parts of a text. -/
def Reference.parse (text : CString) : Reference :=
  let rest := afterSchemeOf text
  let path := afterAuthority rest
  { scheme := schemeOf text
    authority := authorityOf rest
    path := Web.pathPart path
    query := queryOf (Web.queryPart path)
    fragment := fragmentOf (Web.queryPart path) }

/-- A path without dot segments; one that does not begin with a slash is treated as if it did. -/
def normalise (path : CString) : Option CString :=
  if path.head? = some '/' then Web.removeDotSegments path
  else (Web.removeDotSegments ('/' :: path)).map (·.drop 1)

/-- The resolution of a reference against a base. -/
def resolution (base ref : Reference) : Option Reference :=
  if ref.path = [] ∧ ref.scheme = none ∧ ref.authority = none ∧ ref.query = none then
    -- the current document
    some { base with fragment := ref.fragment }
  else if ref.scheme ≠ none then some ref
  else if ref.authority ≠ none then some { ref with scheme := base.scheme }
  else if ref.path.head? = some '/' then
    some { ref with scheme := base.scheme, authority := base.authority }
  else (normalise (dirOf base.path ++ ref.path)).map fun path ↦
    { ref with scheme := base.scheme, authority := base.authority, path := path }

/-- The text that a reference resolves to. -/
def resolved (base_url rel_url : CString) : Option CString :=
  (resolution (.parse base_url) (.parse rel_url)).map Reference.text

variable {text base_url rel_url : CString} {env : Env} {base rel : URI}

/-! ## The scheme -/

theorem takeWhile_scheme {s more : CString} (hs : IsScheme s) :
    (s ++ ':' :: more).takeWhile isScheme = s ∧
      (s ++ ':' :: more).dropWhile isScheme = ':' :: more := by
  obtain ⟨c, rest, rfl, hc, hrest⟩ := hs
  have hall : ∀ d ∈ c :: rest, isScheme d = true := by
    refine List.forall_mem_cons.mpr ⟨?_, hrest⟩
    simp [isScheme, Char.isAlphanum, hc]
  rw [List.takeWhile_append_of_pos hall, List.dropWhile_append_of_pos hall,
    List.takeWhile_cons_of_neg (by decide), List.dropWhile_cons_of_neg (by decide), List.append_nil]
  exact ⟨rfl, rfl⟩

theorem schemeOf_eq {s : CString} (hs : IsScheme s) (h : s ++ [':'] <+: text) :
    schemeOf text = some s := by
  obtain ⟨more, rfl⟩ := h
  rw [List.append_assoc, List.singleton_append]
  obtain ⟨htake, hdrop⟩ := @takeWhile_scheme s more hs
  obtain ⟨c, rest, rfl, hc, -⟩ := hs
  rw [List.cons_append] at htake hdrop ⊢
  rw [schemeOf, hdrop, htake]
  exact if_pos ⟨hc, rfl⟩

theorem schemeOf_some {s : CString} (h : schemeOf text = some s) :
    IsScheme s ∧ s ++ [':'] <+: text := by
  cases text with
  | nil => cases h
  | cons c rest =>
    rw [schemeOf] at h
    split at h
    · rename_i hc
      cases h
      obtain ⟨more, hmore⟩ : ∃ more, (c :: rest).dropWhile isScheme = ':' :: more := by
        cases hdrop : (c :: rest).dropWhile isScheme with
        | nil =>
          rw [hdrop] at hc
          cases hc.2
        | cons d more =>
          rw [hdrop] at hc
          cases hc.2
          exact ⟨more, rfl⟩
      refine ⟨⟨c, rest.takeWhile isScheme, ?_, hc.1, ?_⟩, more, ?_⟩
      · exact List.takeWhile_cons_of_pos (by simp [isScheme, Char.isAlphanum, hc.1])
      · exact fun d hd ↦ List.mem_takeWhile_imp hd
      · rw [List.append_assoc, List.singleton_append, ← hmore, List.takeWhile_append_dropWhile]
    · cases h

theorem schemeOf_ne_none_iff : schemeOf text ≠ none ↔ HasScheme text := by
  constructor
  · intro h
    obtain ⟨s, hs⟩ := Option.ne_none_iff_exists'.mp h
    exact ⟨s, schemeOf_some hs⟩
  · rintro ⟨s, hs, h⟩
    rw [schemeOf_eq hs h]
    exact Option.some_ne_none s

/-! ## The text of the parts -/

theorem schemeText_append (text : CString) :
    schemeText (schemeOf text) ++ afterSchemeOf text = text := by
  rw [afterSchemeOf]
  cases h : schemeOf text with
  | none => rfl
  | some s =>
    obtain ⟨more, hmore⟩ := (schemeOf_some h).2
    calc s ++ [':'] ++ text.drop (s ++ [':']).length
        = s ++ [':'] ++ more := by rw [← hmore, List.drop_left]
      _ = text := hmore

theorem authority_append (text : CString) :
    behind ['/', '/'] (authorityOf text) ++ afterAuthority text = text := by
  rw [afterAuthority, authorityOf]
  split
  · rename_i h
    obtain ⟨more, rfl⟩ := h
    rw [behind, show (['/', '/'] ++ more).drop 2 = more from rfl]
    obtain ⟨rest, hrest⟩ := List.takeWhile_prefix
      (l := more) fun c ↦ c ≠ '/' && !Web.isQueryStart c
    calc _ = ['/', '/'] ++ (more.takeWhile fun c ↦ c ≠ '/' && !Web.isQueryStart c) ++ rest := by
          rw [← @List.drop_left _ (['/', '/'] ++
            more.takeWhile fun c ↦ c ≠ '/' && !Web.isQueryStart c) rest,
            List.append_assoc _ _ rest, hrest]
      _ = ['/', '/'] ++ more := by rw [List.append_assoc, hrest]
  · rfl

/-- What stands behind the path begins with a question mark or a hash sign. -/
theorem tail_append (path : CString) :
    behind ['?'] (queryOf (Web.queryPart path)) ++ behind ['#'] (fragmentOf (Web.queryPart path)) =
      Web.queryPart path := by
  have hquery : behind ['?'] (queryOf (Web.queryPart path)) =
      (Web.queryPart path).takeWhile (· ≠ '#') := by
    rw [queryOf]
    cases htail : Web.queryPart path with
    | nil => rfl
    | cons q qs =>
      have hstart := Web.isQueryStart_of_queryPart htail
      rw [Web.isQueryStart, Bool.or_eq_true, decide_eq_true_iff, decide_eq_true_iff] at hstart
      rcases hstart with rfl | rfl
      · rw [List.takeWhile_cons_of_pos (by decide)]
        rfl
      · rw [List.takeWhile_cons_of_neg (by decide)]
        rfl
  have hfragment : behind ['#'] (fragmentOf (Web.queryPart path)) =
      (Web.queryPart path).dropWhile (· ≠ '#') := by
    rw [fragmentOf]
    cases htail : (Web.queryPart path).dropWhile (· ≠ '#') with
    | nil => rfl
    | cons f fs =>
      have hhash := List.head?_dropWhile_not (· ≠ '#') (Web.queryPart path)
      rw [htail, List.head?_cons] at hhash
      have heq : f = '#' := by simpa using hhash
      rw [heq]
      rfl
  rw [hquery, hfragment, List.takeWhile_append_dropWhile]

theorem Reference.text_parse (text : CString) : (Reference.parse text).text = text := by
  rw [Reference.text, Reference.parse]
  dsimp only
  rw [tail_append, List.append_assoc, Web.pathPart_append, List.append_assoc, authority_append,
    schemeText_append]

end Upnp.Uri
