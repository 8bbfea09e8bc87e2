import Upnp.Uri.Reference

/-!
# Resolution by the source

`resolve_rel_url` against the resolution of references, for every base that
`parse_uri` accepts as absolute.
-/

namespace Upnp.Uri

open Upnp.Lib

variable {env : Env} {base_url rel_url : CString} {base rel : URI}

/-! ## What `parse_uri` takes -/

theorem take_parseString (url : CString) :
    ((url ++ ['\x00']).drop 0).take url.length = url := by
  rw [List.drop_zero, List.take_left]

theorem type_iff_schemeOf (h : parseString env rel_url = some (.ok rel)) :
    rel.type = .ABSOLUTE ↔ schemeOf rel_url ≠ none := by
  rw [type_iff h, take_parseString, schemeOf_ne_none_iff]

theorem schemeExtent_relative (h : parseString env rel_url = some (.ok rel))
    (hs : schemeOf rel_url = none) : rel.schemeExtent = 0 :=
  if_neg fun htype ↦ (type_iff_schemeOf h).mp htype hs

/-- Without two slashes there is no host. -/
theorem hostport_relative (h : parseString env rel_url = some (.ok rel))
    (hs : schemeOf rel_url = none) (ha : authorityOf rel_url = none) :
    rel.hostport.text = ⟨none, 0⟩ := by
  obtain ⟨_, -, -, -, hhost, -, -⟩ := parse_uri_ok h
  rw [schemeExtent_relative h hs, List.drop_zero, List.drop_zero, Nat.sub_zero] at hhost
  obtain ⟨hmax, -, htext⟩ := hostport_ok hhost
  refine htext.resolve_right fun hslashes ↦ ?_
  rw [HostPort.extent, hslashes.1, if_neg (Option.some_ne_none _)] at hmax
  have hlength : ['/', '/'].length ≤ rel_url.length := by
    rw [List.length_cons, List.length_singleton]
    omega
  have hlead : ['/', '/'] <+: rel_url :=
    List.prefix_of_prefix_length_le hslashes.2 (List.prefix_append _ _) hlength
  rw [authorityOf, if_pos hlead] at ha
  cases ha

theorem begin_path_relative (h : parseString env rel_url = some (.ok rel))
    (hs : schemeOf rel_url = none) (ha : authorityOf rel_url = none) : rel.begin_path = 0 := by
  rw [URI.begin_path, schemeExtent_relative h hs, HostPort.extent, hostport_relative h hs ha]
  rfl

/-- The path type of a reference without scheme and host. -/
theorem path_type_relative (h : parseString env rel_url = some (.ok rel))
    (hs : schemeOf rel_url = none) (ha : authorityOf rel_url = none) :
    rel.path_type = .ABS_PATH ↔ rel_url.head? = some '/' := by
  obtain ⟨_, -, -, -, -, hpath, htype⟩ := parse_uri_ok h
  rw [begin_path_relative h hs ha, List.drop_zero, List.drop_zero] at hpath htype
  rw [htype]
  cases rel_url with
  | nil =>
    rw [if_neg fun hslash ↦ absurd hslash.2 (by decide)]
    split <;> simp
  | cons c more =>
    by_cases hc : c = '/'
    · subst hc
      obtain ⟨n, hn, hpath⟩ := Option.bind_eq_some_iff.mp hpath
      have hsize : rel.pathquery.size = n := by
        obtain ⟨hash, -, hpath⟩ := Option.bind_eq_some_iff.mp hpath
        cases hash with
        | false =>
          have htokens := Option.some_inj.mp hpath
          exact congrArg (fun t ↦ t.1.size) htokens.symm
        | true =>
          obtain ⟨m, -, hpath⟩ := Option.bind_eq_some_iff.mp hpath
          have htokens := Option.some_inj.mp hpath
          exact congrArg (fun t ↦ t.1.size) htokens.symm
      rw [Nat.sub_zero, List.length_cons, List.cons_append, parse_uric,
        show isUric (more.length + 1) '/' (more ++ ['\x00']) = some true from rfl] at hn
      obtain ⟨m, -, rfl⟩ := Option.map_eq_some_iff.mp hn
      rw [if_pos ⟨hsize ▸ Nat.succ_pos m, rfl⟩]
      exact iff_of_true rfl rfl
    · have hhead : (c :: more).head? ≠ some '/' := fun h ↦ hc (Option.some_inj.mp h)
      rw [if_neg fun hslash ↦ hhead hslash.2]
      refine iff_of_false ?_ hhead
      split <;> simp

/-- A reference that is not accepted has a scheme or an authority. -/
theorem not_relative_of_error {code : Int} (h : parseString env rel_url = some (.error code))
    (hs : schemeOf rel_url = none) : authorityOf rel_url ≠ none := by
  obtain ⟨size, hsize, h⟩ := Option.bind_eq_some_iff.mp h
  obtain ⟨host, hhost, h⟩ := Option.bind_eq_some_iff.mp h
  have hzero : size = 0 := by
    by_contra hne
    have hscheme := (parse_scheme_ne_zero_iff hsize).mp hne
    rw [take_parseString] at hscheme
    exact schemeOf_ne_none_iff.mpr hscheme hs
  cases host with
  | ok host =>
    obtain ⟨_, -, h⟩ := Option.bind_eq_some_iff.mp h
    cases h
  | error code =>
    rw [if_pos hzero, List.drop_zero, List.drop_zero, Nat.sub_zero] at hhost
    obtain ⟨found, hfound, hhost⟩ := Option.bind_eq_some_iff.mp hhost
    cases found with
    | false => cases hhost
    | true =>
      rw [authorityOf, if_pos]
      · exact Option.some_ne_none _
      · rw [slashes.eq_def] at hfound
        split at hfound
        · rename_i hlength
          cases rel_url with
          | nil => cases hlength
          | cons c rest =>
            cases rest with
            | nil => exact absurd hlength (Nat.lt_irrefl 1)
            | cons d rest =>
              dsimp only [List.cons_append] at hfound
              split at hfound
              · rename_i hc
                have hd := of_decide_eq_true (Option.some_inj.mp hfound)
                rw [hc, hd]
                exact ⟨rest, rfl⟩
              · cases hfound
        · cases hfound

/-- The scheme of the base. -/
theorem scheme_base (h : parseString env base_url = some (.ok base))
    (htype : base.type = .ABSOLUTE) :
    schemeOf base_url = some (base.scheme.text base_url) := by
  obtain ⟨size, hsize, htype', hscheme, -⟩ := parse_uri_ok h
  have hne : size ≠ 0 := by
    rintro rfl
    rw [if_pos rfl] at htype'
    cases htype'.symm.trans htype
  rw [if_neg hne] at hscheme
  obtain ⟨hlt, hcolon, hs⟩ := parse_scheme_pos hsize hne
  have htext : base.scheme.text base_url = base_url.take size := by
    rw [hscheme]
    rfl
  rw [List.drop_zero, List.take_append_of_le_length (Nat.le_of_lt hlt)] at hs
  rw [List.drop_zero, List.getElem?_append_left hlt] at hcolon
  rw [htext]
  refine schemeOf_eq hs ?_
  have htake : base_url.take (size + 1) = base_url.take size ++ [':'] := by
    rw [List.take_add_one, hcolon]
    rfl
  rw [← htake]
  exact List.take_prefix _ _

/-! ## The parts of a relative reference -/

theorem authority_of_relative (hs : schemeOf rel_url = none) :
    (Reference.parse rel_url).authority = authorityOf rel_url := by
  rw [Reference.parse, afterSchemeOf, hs]
  rfl

theorem parse_relative (hs : schemeOf rel_url = none) (ha : authorityOf rel_url = none) :
    Reference.parse rel_url =
      ⟨none, none, Web.pathPart rel_url, queryOf (Web.queryPart rel_url),
        fragmentOf (Web.queryPart rel_url)⟩ := by
  have hrest : afterSchemeOf rel_url = rel_url := by
    rw [afterSchemeOf, hs]
    rfl
  have hpath : afterAuthority rel_url = rel_url := by
    rw [afterAuthority, ha]
    rfl
  rw [Reference.parse, hrest, hpath, hs, ha]

theorem head?_pathPart : (Web.pathPart rel_url).head? = some '/' ↔ rel_url.head? = some '/' := by
  cases rel_url with
  | nil => exact Iff.rfl
  | cons c more =>
    rw [Web.pathPart]
    by_cases hc : Web.isQueryStart c
    · rw [List.takeWhile_cons_of_neg (by simp [hc])]
      refine iff_of_false (fun h ↦ ?_) fun h ↦ ?_
      · cases h
      · rw [Option.some_inj.mp h] at hc
        cases hc
    · rw [List.takeWhile_cons_of_pos (by simp [hc])]
      rfl

/-! ## Directories -/

theorem dirOf_of_mem {path : CString} (h : '/' ∈ path) : ∃ lead, dirOf path = lead ++ ['/'] := by
  induction path using List.reverseRecOn with
  | nil => cases h
  | append_singleton path c ih =>
    rw [dirOf_concat]
    by_cases hc : c = '/'
    · exact ⟨path, by rw [if_pos hc, hc]⟩
    · rw [if_neg hc]
      refine ih ((List.mem_append.mp h).resolve_right fun hmem ↦ hc ?_)
      exact (List.mem_singleton.mp hmem).symm

/-- The directory of a path that begins with a slash does, too. -/
theorem dirOf_slash {path : CString} (h : path.head? = some '/') :
    ∃ more, dirOf path = '/' :: more := by
  obtain ⟨tail, rfl⟩ : ∃ tail, path = '/' :: tail := List.head?_eq_some_iff.mp h
  obtain ⟨lead, hlead⟩ := @dirOf_of_mem ('/' :: tail) List.mem_cons_self
  obtain ⟨last, hlast⟩ := dirOf_append ('/' :: tail)
  rw [hlead] at hlast ⊢
  cases lead with
  | nil => exact ⟨[], rfl⟩
  | cons c lead =>
    rw [List.cons_append, List.cons_append, List.cons.injEq] at hlast
    exact ⟨lead ++ ['/'], by rw [← hlast.1]; rfl⟩

/-- There is no query in front of the rest. -/
theorem parts_append {path : CString} (h : ∀ c ∈ path, Web.isQueryStart c = false)
    (rest : CString) :
    Web.pathPart (path ++ rest) = path ++ Web.pathPart rest ∧
      Web.queryPart (path ++ rest) = Web.queryPart rest := by
  have hall : ∀ c ∈ path, (!Web.isQueryStart c) = true := fun c hc ↦ by rw [h c hc]; rfl
  exact ⟨List.takeWhile_append_of_pos hall, List.dropWhile_append_of_pos hall⟩

theorem mem_pathPart {path : CString} : ∀ c ∈ Web.pathPart path, Web.isQueryStart c = false := by
  intro c hc
  have hnot := List.mem_takeWhile_imp (p := (!Web.isQueryStart ·)) hc
  exact Bool.not_eq_eq_eq_not.mp hnot

theorem mem_dirOf {path : CString} (h : ∀ c ∈ path, Web.isQueryStart c = false) :
    ∀ c ∈ dirOf path, Web.isQueryStart c = false := by
  obtain ⟨last, hlast⟩ := dirOf_append path
  intro c hc
  refine h c ?_
  rw [hlast]
  exact List.mem_append_left _ hc

/-- A path without a query is its own path. -/
theorem parts_self {path : CString} (h : ∀ c ∈ path, Web.isQueryStart c = false) :
    Web.pathPart path = path ∧ Web.queryPart path = [] := by
  have hall : ∀ c ∈ path, (!Web.isQueryStart c) = true := fun c hc ↦ by rw [h c hc]; rfl
  exact ⟨List.takeWhile_eq_self_iff.mpr hall, List.dropWhile_eq_nil_iff.mpr hall⟩

/-- The query stays behind the path. -/
theorem removeDotSegments_append {dir : CString} (hdir : ∀ c ∈ dir, Web.isQueryStart c = false)
    (rest : CString) :
    Web.removeDotSegments (dir ++ rest) =
      (Web.removeDotSegments (dir ++ Web.pathPart rest)).map (· ++ Web.queryPart rest) := by
  obtain ⟨hpath, hquery⟩ := parts_append hdir rest
  obtain ⟨hpath', hquery'⟩ := parts_append hdir (Web.pathPart rest)
  rw [(parts_self mem_pathPart).1] at hpath'
  rw [(parts_self mem_pathPart).2] at hquery'
  rw [Web.removeDotSegments, Web.removeDotSegments, Web.pathSegments, Web.pathSegments, hpath,
    hpath', hquery, hquery', Option.map_map]
  refine congrArg (Option.map · _) (funext fun stack ↦ ?_)
  rw [Function.comp_apply, List.append_nil]

theorem pathSegments_fragment {path : CString} (hpath : ∀ c ∈ path, Web.isQueryStart c = false)
    (fragment : CString) :
    Web.pathSegments (path ++ '#' :: fragment) = Web.pathSegments path := by
  have hpart : Web.pathPart ('#' :: fragment) = [] := rfl
  rw [Web.pathSegments, Web.pathSegments, (parts_append hpath _).1, (parts_self hpath).1, hpart,
    List.append_nil]

/-- A directory ends in no dot segment, so there the source does what the reference does. -/
theorem removeDots_directory {path : CString} (hpath : ∀ c ∈ path, Web.isQueryStart c = false)
    (hslash : path.head? = some '/') (fragment : CString) :
    Web.removeDots true (dirOf path ++ '#' :: fragment) =
      Web.removeDotSegments (dirOf path ++ '#' :: fragment) := by
  obtain ⟨more, hmore⟩ := dirOf_slash hslash
  obtain ⟨lead, hlead⟩ := @dirOf_of_mem path (List.mem_of_mem_head? hslash)
  have hlast : Web.pathSegments (dirOf path ++ '#' :: fragment) =
      (Web.segments lead).tail ++ [[]] := by
    have hsegs : Web.segments (lead ++ ['/']) = Web.segments lead ++ [[]] :=
      Web.segments_append_slash lead List.not_mem_nil
    rw [pathSegments_fragment (mem_dirOf hpath), Web.pathSegments,
      (parts_self (mem_dirOf hpath)).1, hlead, hsegs,
      List.tail_append_of_ne_nil (Web.segments_ne_nil _)]
  rw [hmore, List.cons_append] at hlast ⊢
  exact (Web.removeDots_eq_reference_iff hlast).mpr fun hdots ↦ absurd hdots (by decide)

/-- A fragment behind a directory: the source leaves the base as it is if and only if the base is
its directory, without a query and dot segments. -/
theorem removeDots_fragment_iff {path fragment : CString} {query : Option CString}
    (hpath : ∀ c ∈ path, Web.isQueryStart c = false) (hslash : path.head? = some '/') :
    Web.removeDots true (dirOf path ++ '#' :: fragment) =
        some (path ++ (behind ['?'] query ++ '#' :: fragment)) ↔
      query = none ∧ dirOf path = path ∧ ∀ seg ∈ Web.pathSegments path, ¬ Web.IsDots seg := by
  obtain ⟨more, hmore⟩ := dirOf_slash hslash
  have hmerged : Web.queryPart (dirOf path ++ '#' :: fragment) = '#' :: fragment :=
    (parts_append (mem_dirOf hpath) _).2
  have htail : Web.queryPart (path ++ (behind ['?'] query ++ '#' :: fragment)) =
      behind ['?'] query ++ '#' :: fragment := by
    rw [(parts_append hpath _).2]
    cases query <;> rfl
  rw [removeDots_directory hpath hslash]
  constructor
  · intro h
    rw [hmore, List.cons_append] at h
    obtain ⟨hdots, hquery, hlength, -⟩ := Web.removeDotSegments_some h
    rw [← List.cons_append, ← hmore] at hquery hlength
    rw [htail, hmerged] at hquery
    have hnone : query = none := by
      cases query with
      | none => rfl
      | some q =>
        have := congrArg List.length hquery
        simp only [behind, List.length_append, List.length_cons, List.length_nil] at this
        omega
    subst hnone
    obtain ⟨last, hsplit⟩ := dirOf_append path
    have hsame : dirOf path = path := by
      rw [behind, List.nil_append, List.length_append, List.length_append] at hlength
      have hlen := congrArg List.length hsplit
      rw [List.length_append] at hlen
      have hnil : last = [] := List.length_eq_zero_iff.mp (by omega)
      rw [hnil, List.append_nil] at hsplit
      exact hsplit.symm
    refine ⟨rfl, hsame, fun seg hseg ↦ hdots seg ?_⟩
    rw [behind, List.nil_append, pathSegments_fragment hpath]
    exact hseg
  · rintro ⟨rfl, hsame, hdots⟩
    have hplain : ∀ seg ∈ Web.pathSegments (dirOf path ++ '#' :: fragment), ¬ Web.IsDots seg := by
      rw [pathSegments_fragment (mem_dirOf hpath), hsame]
      exact hdots
    have htext : path ++ (behind ['?'] none ++ '#' :: fragment) =
        dirOf path ++ '#' :: fragment := by
      rw [hsame]
      rfl
    rw [htext]
    rw [hmore, List.cons_append] at hplain ⊢
    exact Web.removeDotSegments_plain hplain

/-! ## What is resolved -/

/-- `resolve_rel_url` gives the text that the reference resolves to, or `NULL` where it is in
error. -/
def ResolvesTo (env : Env) (base_url rel_url : CString) : Prop :=
  resolve_rel_url env (some base_url) (some rel_url) = some (resolved base_url rel_url)

/-- The host and port that `parse_uri` takes are the authority of the base. -/
def TakesAuthority (base_url : CString) (base : URI) : Prop :=
  (Reference.parse base_url).authority =
    if base.hostport.text.text base_url = [] then none
    else some (base.hostport.text.text base_url)

/-- `parse_uri` takes the authority, and the path, which begins with a slash, at least up to the
last one. -/
structure Taken (base_url : CString) (base : URI) : Prop where
  authority : TakesAuthority base_url base
  slash : (Reference.parse base_url).path.head? = some '/'
  dir : dirOf (basePath (base.pathquery.text base_url)) = dirOf (Reference.parse base_url).path

/-- The arguments for which the source resolves as it should, by the shape of the reference. -/
structure Meets (env : Env) (base_url rel_url : CString) (base : URI) : Prop where
  accepted : ∃ rel, parseString env rel_url = some (.ok rel) ∧
    ((Reference.parse rel_url).scheme = none → (Reference.parse rel_url).authority ≠ none →
      0 < rel.hostport.text.size)
  empty : rel_url = [] → (Reference.parse base_url).fragment = none
  absPath : (Reference.parse rel_url).scheme = none → (Reference.parse rel_url).authority = none →
    rel_url.head? = some '/' → TakesAuthority base_url base
  relPath : (Reference.parse rel_url).scheme = none → (Reference.parse rel_url).authority = none →
    rel_url ≠ [] → rel_url.head? ≠ some '/' → Taken base_url base
  fragment : (Reference.parse rel_url).scheme = none → rel_url.head? = some '#' →
    (Reference.parse base_url).query = none ∧
      dirOf (Reference.parse base_url).path = (Reference.parse base_url).path ∧
        ∀ seg ∈ Web.pathSegments (Reference.parse base_url).path, ¬ Web.IsDots seg
  dots : (Reference.parse rel_url).scheme = none → (Reference.parse rel_url).authority = none →
    rel_url ≠ [] → rel_url.head? ≠ some '/' → rel_url.head? ≠ some '#' →
      Web.EndsInDots (Web.pathSegments (dirOf (Reference.parse base_url).path ++ rel_url)) →
        Web.queryPart rel_url = [] ∨ Web.climbsAbove 0
          (Web.pathSegments (dirOf (Reference.parse base_url).path ++ rel_url)).dropLast

variable (hbase : parseString env base_url = some (.ok base)) (htype : base.type = .ABSOLUTE)

/-- What stands in front of the path of the result. -/
def lead (base_url : CString) : CString :=
  schemeText (Reference.parse base_url).scheme ++
    behind ['/', '/'] (Reference.parse base_url).authority

theorem behind_injective (delimiter : CString) (h : delimiter ≠ []) :
    Function.Injective (behind delimiter) := by
  intro a b heq
  cases a with
  | none =>
    cases b with
    | none => rfl
    | some t => exact absurd heq.symm (List.append_ne_nil_of_left_ne_nil h t)
  | some s =>
    cases b with
    | none => exact absurd heq (List.append_ne_nil_of_left_ne_nil h s)
    | some t => exact congrArg some (List.append_cancel_left heq)

include hbase htype

theorem schemeText_base :
    schemeText (Reference.parse base_url).scheme = base.scheme.text base_url ++ [':'] := by
  have hscheme : (Reference.parse base_url).scheme = some (base.scheme.text base_url) :=
    scheme_base hbase htype
  rw [hscheme]
  rfl

theorem front_eq_lead_iff : front base_url base = lead base_url ↔ TakesAuthority base_url base := by
  have hfront : front base_url base = schemeText (Reference.parse base_url).scheme ++
      behind ['/', '/'] (if base.hostport.text.text base_url = [] then none
        else some (base.hostport.text.text base_url)) := by
    rw [front, schemeText_base hbase htype]
    split <;> rfl
  rw [hfront, lead, List.append_cancel_left_eq, TakesAuthority,
    (behind_injective _ (List.cons_ne_nil _ _)).eq_iff]
  exact eq_comm

omit htype in
theorem resolve_accepted (hrel : parseString env rel_url = some (.ok rel)) :
    resolve_rel_url env (some base_url) (some rel_url) =
      if rel.type = .ABSOLUTE then some (some rel_url)
      else if base.type = .ABSOLUTE then
        assemble (base_url.length + rel_url.length + 2) base_url rel_url base rel
      else some none := by
  rw [resolve_rel_url, resolveBoth, hrel, hbase, Option.bind_eq_bind, Option.bind_some]
  dsimp only
  rw [strcpy_eq (by rw [List.length_nil]; omega)]
  rfl

/-- A reference without a scheme that is accepted. -/
theorem resolve_relative (hrel : parseString env rel_url = some (.ok rel))
    (hs : schemeOf rel_url = none) :
    resolve_rel_url env (some base_url) (some rel_url) =
      if rel_url = [] then some (some base_url)
      else if 0 < rel.hostport.text.size then
        some (some (base.scheme.text base_url ++ [':'] ++ rel_url))
      else if rel.path_type = .ABS_PATH then some (some (front base_url base ++ rel_url))
      else Uri.relPath (base_url.length + rel_url.length + 2) (front base_url base)
        (base.pathquery.text base_url) rel_url := by
  have hnot : rel.type ≠ .ABSOLUTE := fun h ↦ (type_iff_schemeOf hrel).mp h hs
  rw [resolve_accepted hbase hrel, if_neg hnot, if_pos htype]
  exact assemble_eq hbase htype

omit hbase htype in
theorem resolved_absolute (hs : schemeOf rel_url ≠ none) : resolved base_url rel_url = some rel_url := by
  have hscheme : (Reference.parse rel_url).scheme ≠ none := hs
  rw [resolved, resolution, if_neg fun h ↦ hscheme h.2.1, if_pos hscheme, Option.map_some,
    Reference.text_parse]

theorem resolves_empty_iff (hrel : parseString env [] = some (.ok rel)) :
    ResolvesTo env base_url [] ↔ (Reference.parse base_url).fragment = none := by
  have hresolved : resolved base_url [] =
      some { Reference.parse base_url with fragment := none }.text := rfl
  rw [ResolvesTo, resolve_relative hbase htype hrel rfl, if_pos rfl, hresolved, Option.some_inj,
    Option.some_inj]
  have htext := Reference.text_parse base_url
  rw [Reference.text] at htext ⊢
  generalize Reference.parse base_url = B at htext ⊢
  constructor
  · intro h
    rw [← htext, List.append_cancel_left_eq, List.append_cancel_left_eq] at h
    exact behind_injective ['#'] (List.cons_ne_nil _ _) h
  · intro h
    rw [h] at htext
    exact htext.symm

omit hbase htype in
theorem resolved_network (hs : schemeOf rel_url = none) (ha : authorityOf rel_url ≠ none) :
    resolved base_url rel_url =
      some (schemeText (Reference.parse base_url).scheme ++ rel_url) := by
  have hscheme : (Reference.parse rel_url).scheme = none := hs
  have hauthority : (Reference.parse rel_url).authority ≠ none :=
    fun h ↦ ha (authority_of_relative hs ▸ h)
  have htext := Reference.text_parse rel_url
  rw [Reference.text, hscheme, schemeText, List.nil_append] at htext
  rw [resolved, resolution, if_neg fun h ↦ hauthority h.2.2.1, if_neg (not_not_intro hscheme),
    if_pos hauthority, Option.map_some, Reference.text]
  dsimp only
  rw [List.append_assoc, List.append_assoc, ← List.append_assoc (behind _ _), htext]

theorem resolves_network (hrel : parseString env rel_url = some (.ok rel))
    (hs : schemeOf rel_url = none) (ha : authorityOf rel_url ≠ none)
    (hsize : 0 < rel.hostport.text.size) : ResolvesTo env base_url rel_url := by
  have hne : rel_url ≠ [] := by
    rintro rfl
    exact ha rfl
  rw [ResolvesTo, resolve_relative hbase htype hrel hs, if_neg hne, if_pos hsize,
    resolved_network hs ha, schemeText_base hbase htype]

theorem resolves_absPath_iff (hrel : parseString env rel_url = some (.ok rel))
    (hs : schemeOf rel_url = none) (ha : authorityOf rel_url = none)
    (hslash : rel_url.head? = some '/') :
    ResolvesTo env base_url rel_url ↔ TakesAuthority base_url base := by
  have hne : rel_url ≠ [] := by
    rintro rfl
    cases hslash
  have hsize : ¬ 0 < rel.hostport.text.size := by
    rw [hostport_relative hrel hs ha]
    exact Nat.lt_irrefl 0
  have hhead : (Web.pathPart rel_url).head? = some '/' := head?_pathPart.mpr hslash
  have hpath : Web.pathPart rel_url ≠ [] := fun h ↦ by
    rw [h] at hhead
    cases hhead
  have hresolved : resolved base_url rel_url = some (lead base_url ++ rel_url) := by
    rw [resolved, parse_relative hs ha, resolution]
    dsimp only
    rw [if_neg fun h ↦ hpath h.1, if_neg (not_not_intro rfl), if_neg (not_not_intro rfl),
      if_pos hhead, Option.map_some, Reference.text]
    dsimp only
    rw [tail_append, List.append_assoc, Web.pathPart_append, lead]
  rw [ResolvesTo, resolve_relative hbase htype hrel hs, if_neg hne, if_neg hsize,
    if_pos ((path_type_relative hrel hs ha).mpr hslash), hresolved, Option.some_inj,
    Option.some_inj, List.append_cancel_right_eq]
  exact front_eq_lead_iff hbase htype

/-- For a relative path the source answers with what `remove_dots` makes of the path behind the
directory. -/
theorem resolve_relPath (hnulBase : '\x00' ∉ base_url) (hnul : '\x00' ∉ rel_url)
    (hrel : parseString env rel_url = some (.ok rel)) (hs : schemeOf rel_url = none)
    (ha : authorityOf rel_url = none) (hne : rel_url ≠ []) (hslash : rel_url.head? ≠ some '/')
    (htaken : Taken base_url base) :
    resolve_rel_url env (some base_url) (some rel_url) =
      some ((Web.removeDots true (dirOf (Reference.parse base_url).path ++ rel_url)).map
        (lead base_url ++ ·)) := by
  have hsize : ¬ 0 < rel.hostport.text.size := by
    rw [hostport_relative hrel hs ha]
    exact Nat.lt_irrefl 0
  have hparts := length_parts_le hbase htype
  have hfront := length_front base_url base
  have hends := merged_endsAs (base.pathquery.text base_url) hne
  have hmerged : merged (base.pathquery.text base_url) rel_url =
      dirOf (Reference.parse base_url).path ++ rel_url := congrArg (· ++ rel_url) htaken.dir
  rw [resolve_relative hbase htype hrel hs, if_neg hne, if_neg hsize,
    if_neg fun h ↦ hslash ((path_type_relative hrel hs ha).mp h), relPath_eq (by omega),
    (front_eq_lead_iff hbase htype).mpr htaken.authority]
  rw [hmerged] at hends ⊢
  obtain ⟨more, hmore⟩ := dirOf_slash htaken.slash
  cases hdots : Web.removeDots true (dirOf (Reference.parse base_url).path ++ rel_url) with
  | none =>
    rw [hdots] at hends
    rw [hends]
    rfl
  | some t =>
    rw [hdots] at hends
    obtain ⟨buf, hbuf, ⟨rest, hrest⟩, -⟩ := hends
    have hmem : '\x00' ∉ t := by
      intro hmem
      rw [hmore, List.cons_append] at hdots
      have hsub := Web.removeDots_subset hdots hmem
      rw [← List.cons_append, ← hmore] at hsub
      refine (List.mem_append.mp hsub).elim (fun hdir ↦ hnulBase ?_) hnul
      have hpath : dirOf (Reference.parse base_url).path ⊆ base_url := by
        obtain ⟨last, hlast⟩ := dirOf_append (Reference.parse base_url).path
        intro c hc
        rw [← Reference.text_parse base_url, Reference.text]
        refine List.mem_append_left _ (List.mem_append_right _ ?_)
        rw [hlast]
        exact List.mem_append_left _ hc
      exact hpath hdir
    have htake : buf.takeWhile (· ≠ '\x00') = t := by
      rw [← hrest, List.append_assoc, List.takeWhile_append_of_pos, List.singleton_append,
        List.takeWhile_cons_of_neg (by decide), List.append_nil]
      intro c hc
      exact decide_eq_true fun heq ↦ hmem (heq ▸ hc)
    rw [hbuf, Option.bind_some]
    dsimp only
    rw [htake]
    rfl

omit hbase htype in
/-- A relative path resolves to the base directory with the path behind it, without the dots. -/
theorem resolved_relPath (hs : schemeOf rel_url = none) (ha : authorityOf rel_url = none)
    (hne : rel_url ≠ []) (hslash : rel_url.head? ≠ some '/') (hhash : rel_url.head? ≠ some '#')
    (hbaseSlash : (Reference.parse base_url).path.head? = some '/') :
    resolved base_url rel_url =
      (Web.removeDotSegments (dirOf (Reference.parse base_url).path ++ rel_url)).map
        (lead base_url ++ ·) := by
  have hquery : ¬ (Web.pathPart rel_url = [] ∧ queryOf (Web.queryPart rel_url) = none) := by
    rintro ⟨hpath, hquery⟩
    have happ := Web.pathPart_append rel_url
    rw [hpath, List.nil_append, ← tail_append, hquery, behind, List.nil_append] at happ
    cases hfragment : fragmentOf (Web.queryPart rel_url) with
    | none =>
      rw [hfragment] at happ
      exact hne happ.symm
    | some fragment =>
      rw [hfragment] at happ
      rw [← happ] at hhash
      exact hhash rfl
  obtain ⟨more, hmore⟩ := dirOf_slash hbaseSlash
  have hnormal : normalise (dirOf (Reference.parse base_url).path ++ Web.pathPart rel_url) =
      Web.removeDotSegments (dirOf (Reference.parse base_url).path ++ Web.pathPart rel_url) := by
    rw [hmore, List.cons_append]
    exact if_pos rfl
  have hpath : ∀ c ∈ (Reference.parse base_url).path, Web.isQueryStart c = false := mem_pathPart
  rw [removeDotSegments_append (mem_dirOf hpath), Option.map_map, resolved,
    parse_relative hs ha, resolution]
  dsimp only
  rw [if_neg fun h ↦ hquery ⟨h.1, h.2.2.2⟩, if_neg (not_not_intro rfl), if_neg (not_not_intro rfl),
    if_neg fun h ↦ hslash (head?_pathPart.mp h), hnormal, Option.map_map]
  refine congrArg (Option.map · _) (funext fun path ↦ ?_)
  rw [Function.comp_apply, Function.comp_apply, Reference.text]
  dsimp only
  rw [tail_append, List.append_assoc, lead]

omit hbase htype in
theorem resolved_fragment {fragment : CString} :
    resolved base_url ('#' :: fragment) =
      some (lead base_url ++ ((Reference.parse base_url).path ++
        (behind ['?'] (Reference.parse base_url).query ++ '#' :: fragment))) := by
  have hparse : Reference.parse ('#' :: fragment) = ⟨none, none, [], none, some fragment⟩ :=
    parse_relative rfl rfl
  rw [resolved, hparse, resolution, if_pos ⟨rfl, rfl, rfl, rfl⟩, Option.map_some, Reference.text,
    lead, List.append_assoc]
  rfl

theorem resolves_relPath_iff (hnulBase : '\x00' ∉ base_url) (hnul : '\x00' ∉ rel_url)
    (hrel : parseString env rel_url = some (.ok rel)) (hs : schemeOf rel_url = none)
    (ha : authorityOf rel_url = none) (hne : rel_url ≠ []) (hslash : rel_url.head? ≠ some '/')
    (hhash : rel_url.head? ≠ some '#') (htaken : Taken base_url base) :
    ResolvesTo env base_url rel_url ↔
      (Web.EndsInDots (Web.pathSegments (dirOf (Reference.parse base_url).path ++ rel_url)) →
        Web.queryPart rel_url = [] ∨ Web.climbsAbove 0
          (Web.pathSegments (dirOf (Reference.parse base_url).path ++ rel_url)).dropLast) := by
  have hpath : ∀ c ∈ (Reference.parse base_url).path, Web.isQueryStart c = false := mem_pathPart
  have hquery := (parts_append (mem_dirOf hpath) rel_url).2
  obtain ⟨more, hmore⟩ := dirOf_slash htaken.slash
  rw [ResolvesTo, resolve_relPath hbase htype hnulBase hnul hrel hs ha hne hslash htaken,
    resolved_relPath hs ha hne hslash hhash htaken.slash, Option.some_inj,
    (Option.map_injective (List.append_right_injective _)).eq_iff, ← hquery]
  rw [hmore, List.cons_append]
  obtain ⟨pre, last, hsegs⟩ := Web.exists_concat_pathSegments (more ++ rel_url)
  rw [Web.removeDots_eq_reference_iff hsegs, hsegs, List.dropLast_concat]
  have hlast : Web.EndsInDots (pre ++ [last]) ↔ Web.IsDots last := by
    rw [Web.EndsInDots, List.getLast?_concat]
    constructor
    · rintro ⟨seg, hseg, hdots⟩
      rwa [Option.some_inj.mp hseg]
    · exact fun hdots ↦ ⟨last, rfl, hdots⟩
  rw [hlast]

theorem resolves_fragment_iff {fragment : CString} (hnulBase : '\x00' ∉ base_url)
    (hnul : '\x00' ∉ '#' :: fragment)
    (hrel : parseString env ('#' :: fragment) = some (.ok rel)) (htaken : Taken base_url base) :
    ResolvesTo env base_url ('#' :: fragment) ↔
      (Reference.parse base_url).query = none ∧
        dirOf (Reference.parse base_url).path = (Reference.parse base_url).path ∧
          ∀ seg ∈ Web.pathSegments (Reference.parse base_url).path, ¬ Web.IsDots seg := by
  have hpath : ∀ c ∈ (Reference.parse base_url).path, Web.isQueryStart c = false := mem_pathPart
  rw [← removeDots_fragment_iff hpath htaken.slash, ResolvesTo,
    resolve_relPath hbase htype hnulBase hnul hrel rfl rfl (List.cons_ne_nil _ _)
      (fun h ↦ absurd (Option.some_inj.mp h) (by decide)) htaken, resolved_fragment,
    Option.some_inj]
  exact (Option.map_injective (List.append_right_injective _)).eq_iff' rfl

omit hbase htype

/-- An accepted host is not empty when the empty name has no address. -/
theorem parse_hostport_pos (hempty : env.gethostbyname [] = none) {pos max : Nat} {input : CString}
    {host : HostPort} (h : parse_hostport env pos input max = some (.ok host)) :
    0 < host.text.size := by
  obtain ⟨host_size, hhost, h⟩ := Option.bind_eq_some_iff.mp h
  obtain ⟨port, hport, h⟩ := Option.bind_eq_some_iff.mp h
  cases port with
  | none => cases h
  | some p =>
    obtain ⟨hostport_size, sin_port⟩ := p
    have hle : host_size ≤ hostport_size := by
      obtain ⟨colon, -, hport⟩ := Option.bind_eq_some_iff.mp hport
      cases colon with
      | false =>
        cases hport
        exact Nat.le_refl _
      | true =>
        obtain ⟨q, -, hq⟩ := Option.map_eq_some_iff.mp hport
        split at hq
        · cases hq
        · cases hq
          omega
    dsimp only at h
    split at h
    · split at h
      · rename_i sin_addr haddr
        cases h
        refine Nat.lt_of_lt_of_le (Nat.pos_of_ne_zero ?_) hle
        rintro rfl
        rw [List.take_zero, hempty] at haddr
        cases haddr
      · cases h
    · cases h

theorem network_pos (hempty : env.gethostbyname [] = none)
    (hrel : parseString env rel_url = some (.ok rel)) (hs : schemeOf rel_url = none)
    (ha : authorityOf rel_url ≠ none) : 0 < rel.hostport.text.size := by
  obtain ⟨_, -, -, -, hhost, -, -⟩ := parse_uri_ok hrel
  rw [schemeExtent_relative hrel hs, List.drop_zero, List.drop_zero, Nat.sub_zero] at hhost
  obtain ⟨found, hfound, hhost⟩ := Option.bind_eq_some_iff.mp hhost
  rw [authorityOf] at ha
  split at ha
  · rename_i hlead
    obtain ⟨more, rfl⟩ := hlead
    rw [slashes.eq_def, if_pos (by simp)] at hfound
    cases hfound
    exact parse_hostport_pos hempty hhost
  · exact absurd rfl ha

theorem resolve_error {code : Int} (h : parseString env rel_url = some (.error code)) :
    resolve_rel_url env (some base_url) (some rel_url) = some none := by
  rw [resolve_rel_url, resolveBoth, h]
  rfl

/-- Where it resolves as it should, the reference is accepted. -/
theorem accepted_of_resolves (h : ResolvesTo env base_url rel_url) :
    ∃ rel, parseString env rel_url = some (.ok rel) := by
  obtain ⟨r, hr⟩ := Option.isSome_iff_exists.mp (parseString_isSome env rel_url)
  cases r with
  | ok rel => exact ⟨rel, hr⟩
  | error code =>
    rw [ResolvesTo, resolve_error hr, Option.some_inj] at h
    by_cases hs : schemeOf rel_url = none
    · rw [resolved_network hs (not_relative_of_error hr hs)] at h
      cases h
    · rw [resolved_absolute hs] at h
      cases h

/-- For every base that `parse_uri` accepts as absolute, `resolve_rel_url` gives what the reference
resolves to if the arguments meet the condition, and, where it takes the parts of the base and the
empty name has no address, only if they do; it never accesses anything outside its buffers. -/
theorem resolve_rel_url_resolves (hnulBase : '\x00' ∉ base_url) (hnul : '\x00' ∉ rel_url)
    (hbase : parseString env base_url = some (.ok base)) (htype : base.type = .ABSOLUTE) :
    (Meets env base_url rel_url base → ResolvesTo env base_url rel_url) ∧
      (Taken base_url base → env.gethostbyname [] = none → ResolvesTo env base_url rel_url →
        Meets env base_url rel_url base) ∧
      ∀ base_url rel_url, (resolve_rel_url env base_url rel_url).isSome := by
  refine ⟨fun h ↦ ?_, fun htaken hempty h ↦ ?_, resolve_rel_url_isSome env⟩
  · obtain ⟨rel, hrel, hnet⟩ := h.accepted
    by_cases hs : schemeOf rel_url = none
    · by_cases hne : rel_url = []
      · subst hne
        exact (resolves_empty_iff hbase htype hrel).mpr (h.empty rfl)
      · by_cases ha : authorityOf rel_url = none
        · have hauthority := (authority_of_relative hs).trans ha
          by_cases hslash : rel_url.head? = some '/'
          · exact (resolves_absPath_iff hbase htype hrel hs ha hslash).mpr
              (h.absPath hs hauthority hslash)
          · have htaken := h.relPath hs hauthority hne hslash
            by_cases hhash : rel_url.head? = some '#'
            · have hfragment := h.fragment hs hhash
              obtain ⟨fragment, rfl⟩ := List.head?_eq_some_iff.mp hhash
              exact (resolves_fragment_iff hbase htype hnulBase hnul hrel htaken).mpr hfragment
            · exact (resolves_relPath_iff hbase htype hnulBase hnul hrel hs ha hne hslash hhash
                htaken).mpr (h.dots hs hauthority hne hslash hhash)
        · exact resolves_network hbase htype hrel hs ha
            (hnet hs fun hnone ↦ ha ((authority_of_relative hs).symm.trans hnone))
    · rw [ResolvesTo, resolve_accepted hbase hrel, if_pos ((type_iff_schemeOf hrel).mpr hs),
        resolved_absolute hs]
  · obtain ⟨rel, hrel⟩ := accepted_of_resolves h
    refine ⟨⟨rel, hrel, fun hs ha ↦ ?_⟩, ?_, fun _ _ _ ↦ htaken.authority, fun _ _ _ _ ↦ htaken,
      ?_, ?_⟩
    · exact network_pos hempty hrel hs fun hnone ↦ ha ((authority_of_relative hs).trans hnone)
    · rintro rfl
      exact (resolves_empty_iff hbase htype hrel).mp h
    · intro _ hhash
      obtain ⟨fragment, rfl⟩ := List.head?_eq_some_iff.mp hhash
      exact (resolves_fragment_iff hbase htype hnulBase hnul hrel htaken).mp h
    · intro hs ha hne hslash hhash
      exact (resolves_relPath_iff hbase htype hnulBase hnul hrel hs
        ((authority_of_relative hs).symm.trans ha) hne hslash hhash htaken).mp h

/-- A system that finds every host with a name. -/
def anyHost : Env := ⟨true, fun host ↦ if host = [] then none else some 0⟩

/-- What `parse_uri` makes of `http://h/a/b`. -/
def baseAB : URI :=
  { type := .ABSOLUTE, scheme := ⟨some 0, 4⟩, path_type := .ABS_PATH, pathquery := ⟨some 8, 4⟩,
    fragment := ⟨none, 0⟩, hostport := ⟨⟨some 7, 1⟩, 80, 0⟩ }

theorem parseString_baseAB :
    parseString anyHost "http://h/a/b".toList = some (.ok baseAB) := by
  decide +kernel

theorem taken_baseAB : Taken "http://h/a/b".toList baseAB where
  authority := by
    rw [TakesAuthority]
    decide +kernel
  slash := by decide +kernel
  dir := by decide +kernel

theorem resolve_rel_url_resolves_up : ResolvesTo anyHost "http://h/a/b".toList "../c".toList :=
  (resolve_rel_url_resolves (by decide +kernel) (by decide +kernel) parseString_baseAB rfl).1
    { accepted := ⟨_, rfl, fun _ ha ↦ absurd rfl ha⟩
      empty := fun h ↦ absurd h (List.cons_ne_nil _ _)
      absPath := fun _ _ _ ↦ taken_baseAB.authority
      relPath := fun _ _ _ _ ↦ taken_baseAB
      fragment := fun _ h ↦ absurd (Option.some_inj.mp h) (by decide)
      dots := fun _ _ _ _ _ _ ↦ .inl rfl }

/-- A fragment alone is put behind the directory of the base. -/
theorem resolve_rel_url_fragment : ¬ ResolvesTo anyHost "http://h/a/b".toList "#s".toList := by
  have hrel : ∃ rel, parseString anyHost "#s".toList = some (.ok rel) := ⟨_, rfl⟩
  obtain ⟨rel, hrel⟩ := hrel
  have hiff := @resolves_fragment_iff anyHost "http://h/a/b".toList baseAB rel parseString_baseAB
    rfl ['s'] (by decide +kernel) (by decide +kernel) hrel taken_baseAB
  intro h
  have hdir := (hiff.mp h).2.1
  revert hdir
  decide +kernel

end Upnp.Uri
