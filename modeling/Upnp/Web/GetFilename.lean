import Upnp.Web.RemoveDots

/-!
# The file of a request

`GetFilename` of `server.cpp`.  The file system is what `stat` and `fopen` say
of a name; the names they are asked for are kept, in order, beside the result.
-/

namespace Upnp.Web

open Upnp.Lib

/-- The codes that `GetFilename` throws. -/
inductive HttpCode where
  | HTTP_BAD_REQUEST
  | HTTP_FORBIDDEN
  | HTTP_NOT_FOUND
deriving DecidableEq, Repr

/-- The results of `GetFileInfo`: `1`, `2` and `-1`. -/
inductive FileType where
  | regular
  | directory
  | neither
deriving DecidableEq, Repr

/-- The file system, as the server asks it. -/
structure Files where
  GetFileInfo : CString → FileType
  /-- `fopen( filename, "r" )` is not null. -/
  fopen : CString → Bool

/-- What the parser leaves of a request URI. -/
structure UriRequest where
  pathIsStar : Bool
  pathquery : CString

/-- A call of `GetFilename`: the names it asked the file system for, and what it returned or
threw. -/
structure Lookup where
  names : List CString
  result : Except HttpCode CString

/-- `tempResPtr += (resourceName[0] == '/' ? 1 : 0)`. -/
def skipSlash (resourceName : CString) : CString :=
  if resourceName.head? = some '/' then resourceName.tail else resourceName

/-- A name with a slash at its end. -/
def withSlash (name : CString) : CString :=
  if name.getLast? = some '/' then name else name ++ ['/']

/-- The last part of `GetFilename`: the file has to be readable. -/
def openFile (fs : Files) (names : List CString) (filename : CString) : Lookup :=
  if fs.fopen filename then ⟨names, .ok filename⟩ else ⟨names, .error .HTTP_FORBIDDEN⟩

/-- `GetFilename`, from where the name is built. -/
def findFile (fs : Files) (filename : CString) : Lookup :=
  match fs.GetFileInfo filename with
  | .neither => ⟨[filename], .error .HTTP_NOT_FOUND⟩
  | .regular => openFile fs [filename] filename
  | .directory =>
    let index := withSlash filename ++ "index.html".toList
    if fs.GetFileInfo index = .regular then openFile fs [filename, index] index
    else ⟨[filename, index], .error .HTTP_NOT_FOUND⟩

/-- `GetFilename`. -/
def GetFilename (fs : Files) (mallocOk : Bool) (gRootDocumentDir : CString) (request : UriRequest) :
    Lookup :=
  let resourceName := request.pathquery
  if request.pathIsStar ∨ resourceName.head? ≠ some '/' then ⟨[], .error .HTTP_BAD_REQUEST⟩
  else
    match removeDots mallocOk resourceName with
    | none => ⟨[], .error .HTTP_FORBIDDEN⟩
    | some resourceName => findFile fs (withSlash gRootDocumentDir ++ skipSlash resourceName)

/-! ## Safe names -/

/-- The root directory, without the slash at its end. -/
def rootDir (gRootDocumentDir : CString) : CString :=
  if gRootDocumentDir.getLast? = some '/' then gRootDocumentDir.dropLast else gRootDocumentDir

/-- A name below the root directory. -/
def BelowRoot (gRootDocumentDir name : CString) : Prop :=
  ∃ rel, name = rootDir gRootDocumentDir ++ '/' :: rel ∧ "..".toList ∉ segments rel

/-- A request whose path climbs above the root. -/
def Climbs (request : UriRequest) : Prop := climbsAbove 0 (segments request.pathquery).tail

/-- What path safety asks of a call: names below the root only, and no name at all for a path that
climbs above it. -/
structure PathSafe (gRootDocumentDir : CString) (request : UriRequest) (lookup : Lookup) :
    Prop where
  belowRoot : ∀ name ∈ lookup.names, BelowRoot gRootDocumentDir name
  result : ∀ name, lookup.result = .ok name → BelowRoot gRootDocumentDir name
  refused : Climbs request → lookup.names = [] ∧ ∃ code, lookup.result = .error code

/-- A request that is refused before a name is built: it names no path, there is no memory, or the
path climbs above the root before its query. -/
def RefusedFirst (mallocOk : Bool) (request : UriRequest) : Prop :=
  request.pathIsStar ∨ request.pathquery.head? ≠ some '/' ∨ mallocOk = false ∨
    climbsAbove 0 (beforeQuery (segments request.pathquery).tail)

/-- A request with a double dot segment behind the `?` or `#` of its path. -/
def DotsBehindQuery (request : UriRequest) : Prop :=
  "..".toList ∈ behindQuery (segments request.pathquery)

theorem withSlash_eq (root : CString) : withSlash root = rootDir root ++ ['/'] := by
  unfold withSlash rootDir
  split
  · rename_i h
    exact (List.dropLast_append_getLast? _ h).symm
  · rfl

/-- Whether a name is below the root is read off its relative part. -/
theorem belowRoot_iff {root rel : CString} :
    BelowRoot root (withSlash root ++ rel) ↔ "..".toList ∉ segments rel := by
  rw [withSlash_eq, List.append_assoc, List.singleton_append]
  constructor
  · rintro ⟨rel', heq, hrel'⟩
    have heq' := List.append_cancel_left heq
    cases heq'
    exact hrel'
  · intro hrel
    exact ⟨rel, rfl, hrel⟩

/-- The name of the index of a directory ends in a segment of its own. -/
theorem mem_segments_index (rel : CString) :
    "..".toList ∈ segments (withSlash rel ++ "index.html".toList) ↔ "..".toList ∈ segments rel := by
  have hindex : "..".toList ∉ ["index.html".toList] := by decide
  unfold withSlash
  split
  · rename_i h
    obtain ⟨path, rfl⟩ : ∃ path, rel = path ++ ['/'] := ⟨_, (List.dropLast_append_getLast? _ h).symm⟩
    rw [List.append_assoc, List.singleton_append, segments_append_slash path (by decide),
      segments_append_slash path (List.not_mem_nil : '/' ∉ ([] : CString)), List.mem_append, List.mem_append]
    exact or_congr_right (iff_of_false hindex (by decide))
  · rw [List.append_assoc, List.singleton_append, segments_append_slash rel (by decide),
      List.mem_append]
    exact or_iff_left hindex

/-- The index of a directory is below the root where the directory is. -/
theorem belowRoot_index {root rel : CString} (h : BelowRoot root (withSlash root ++ rel)) :
    BelowRoot root (withSlash (withSlash root ++ rel) ++ "index.html".toList) := by
  have hrel := belowRoot_iff.mp h
  by_cases hempty : rel = []
  · subst hempty
    have hslash : withSlash (withSlash root ++ []) = withSlash root := by
      rw [List.append_nil, withSlash, if_pos (by rw [withSlash_eq]; simp)]
    rw [hslash]
    exact belowRoot_iff.mpr (by decide)
  · have hslash : withSlash (withSlash root ++ rel) = withSlash root ++ withSlash rel := by
      have hlast : (withSlash root ++ rel).getLast? = rel.getLast? := by
        rw [List.getLast?_append_of_ne_nil _ hempty]
      rw [withSlash.eq_def (withSlash root ++ rel), withSlash.eq_def rel, hlast]
      split
      · rfl
      · exact List.append_assoc ..
    rw [hslash, List.append_assoc]
    exact belowRoot_iff.mpr (mt (mem_segments_index rel).mp hrel)

/-! ## What the server asks the file system for -/

/-- The file itself is always asked for, and then at most the index of the directory. -/
theorem findFile_names (fs : Files) (filename : CString) :
    filename ∈ (findFile fs filename).names ∧
      ∀ name ∈ (findFile fs filename).names,
        name = filename ∨ name = withSlash filename ++ "index.html".toList := by
  unfold findFile openFile
  split
  · simp
  · split <;> simp
  · dsimp only
    split
    · split <;> simp
    · simp

/-- A name that is returned was asked for. -/
theorem mem_names_of_result {fs : Files} {filename name : CString}
    (h : (findFile fs filename).result = .ok name) : name ∈ (findFile fs filename).names := by
  revert h
  unfold findFile openFile
  split
  · rintro ⟨⟩
  · split
    · rintro ⟨⟩
      exact List.mem_singleton_self _
    · rintro ⟨⟩
  · dsimp only
    split
    · split
      · rintro ⟨⟩
        exact List.mem_cons_of_mem _ (List.mem_singleton_self _)
      · rintro ⟨⟩
    · rintro ⟨⟩

/-- Only double dot segments climb. -/
theorem mem_of_climbsAbove {depth : Nat} {segs : List CString} (h : climbsAbove depth segs) :
    "..".toList ∈ segs := by
  fun_induction climbsAbove depth segs with
  | case1 => cases h
  | case2 depth rest ih => exact List.mem_cons_of_mem _ (ih h)
  | case3 => exact List.mem_cons_self
  | case4 => exact List.mem_cons_self
  | case5 depth seg rest hdot hdots ih => exact List.mem_cons_of_mem _ (ih h)

/-- A path climbs above its root before the query, or it has double dot segments behind it. -/
theorem climbs_before_or_behind {depth : Nat} {segs : List CString} (h : climbsAbove depth segs) :
    climbsAbove depth (beforeQuery segs) ∨ "..".toList ∈ behindQuery segs := by
  induction segs generalizing depth with
  | nil => cases h
  | cons seg rest ih =>
    by_cases hq : isQuery seg
    · right
      rw [behindQuery_query rest hq]
      obtain heq | hmem := List.mem_cons.mp (mem_of_climbsAbove h)
      · rw [← heq] at hq
        exact absurd hq (by decide)
      · exact hmem
    rw [Bool.not_eq_true] at hq
    rw [beforeQuery_cons rest hq, behindQuery_cons rest hq]
    rw [climbsAbove.eq_def] at h ⊢
    dsimp only at h ⊢
    split at h
    · rename_i hdot
      rw [if_pos hdot]
      exact ih h
    · rename_i hdot
      rw [if_neg hdot]
      split at h
      · rename_i hdots
        rw [if_pos hdots]
        cases depth with
        | zero => exact .inl rfl
        | succ depth => exact ih h
      · rename_i hdots
        rw [if_neg hdots]
        exact ih h

/-- A path is refused, or its dot segments are resolved below the root. -/
theorem removeDots_slash (path : CString) :
    (removeDots true ('/' :: path) = none ∧ climbsAbove 0 (beforeQuery (segments path))) ∨
      ∃ rel, removeDots true ('/' :: path) = some ('/' :: rel) ∧
        ¬ climbsAbove 0 (beforeQuery (segments path)) ∧
        ("..".toList ∈ segments rel ↔ "..".toList ∈ behindQuery (segments path)) := by
  have hslash : segments ('/' :: path) = [] :: segments path :=
    segments_slash (List.not_mem_nil : '/' ∉ ([] : CString)) path
  have hremove : removeDots true ('/' :: path) =
      (resolve ([] ++ [[]]) (segments path)).map joinSegments := by
    rw [removeDots_eq, hslash, resolve_plain rfl ⟨by decide, by decide⟩]
    rfl
  have hnone := @resolve_eq_none_iff [] [] (segments path)
  cases hout : resolve ([] ++ [[]]) (segments path) with
  | none =>
    left
    rw [hremove, hout]
    exact ⟨rfl, hnone.mp hout⟩
  | some out =>
    right
    obtain ⟨rel, hne, rfl⟩ := resolve_shape hout (.inl (segments_ne_nil path))
    have hjoin : joinSegments ([] :: rel) = '/' :: joinSegments rel :=
      joinSegments_reverse [[]] hne
    have hnoSlash := noSlash_of_resolve hout (by simp) (noSlash_segments path)
    refine ⟨joinSegments rel, ?_, ?_, ?_⟩
    · rw [hremove, hout, Option.map_some, hjoin]
    · intro hclimbs
      rw [hnone.mpr hclimbs] at hout
      cases hout
    · rw [segments_joinSegments (fun seg hseg ↦ hnoSlash seg (List.mem_cons_of_mem _ hseg)) hne,
        ← mem_resolve_iff hout (by decide), List.mem_cons]
      exact (or_iff_right (by decide)).symm

/-- A request that is refused before a name is built asks for no name. -/
theorem pathSafe_refused {root : CString} {request : UriRequest} {code : HttpCode} :
    PathSafe root request ⟨[], .error code⟩ where
  belowRoot _ hname := absurd hname List.not_mem_nil
  result _ hname := nomatch hname
  refused _ := ⟨rfl, code, rfl⟩

/-- A file is looked for safely exactly where its relative part has no double dot segment, when the
path does not climb without one. -/
theorem pathSafe_findFile {fs : Files} {root rel : CString} {request : UriRequest}
    (hclimbs : Climbs request → "..".toList ∈ segments rel) :
    PathSafe root request (findFile fs (withSlash root ++ rel)) ↔ "..".toList ∉ segments rel := by
  have hnames := findFile_names fs (withSlash root ++ rel)
  constructor
  · intro h
    exact belowRoot_iff.mp (h.belowRoot _ hnames.1)
  · intro h
    have hbelow : ∀ name ∈ (findFile fs (withSlash root ++ rel)).names, BelowRoot root name := by
      intro name hname
      obtain rfl | rfl := hnames.2 name hname
      · exact belowRoot_iff.mpr h
      · exact belowRoot_index (belowRoot_iff.mpr h)
    exact
      { belowRoot := hbelow
        result := fun name hname ↦ hbelow name (mem_names_of_result hname)
        refused := fun hclimb ↦ absurd (hclimbs hclimb) h }

/-- The names of a request are safe exactly where it is refused for its path, or has no double dot
segment behind the query that `remove_dots` does not look into. -/
theorem path_safe_iff (fs : Files) (mallocOk : Bool) (gRootDocumentDir : CString)
    (request : UriRequest) :
    PathSafe gRootDocumentDir request (GetFilename fs mallocOk gRootDocumentDir request) ↔
      RefusedFirst mallocOk request ∨ ¬ DotsBehindQuery request := by
  obtain ⟨pathIsStar, pathquery⟩ := request
  by_cases hpath : pathIsStar ∨ pathquery.head? ≠ some '/'
  · have hfirst : RefusedFirst mallocOk ⟨pathIsStar, pathquery⟩ :=
      hpath.imp_right .inl
    rw [GetFilename, if_pos hpath]
    exact iff_of_true pathSafe_refused (.inl hfirst)
  obtain ⟨hstar, hhead⟩ := not_or.mp hpath
  rw [ne_eq, not_not] at hhead
  obtain ⟨path, rfl⟩ : ∃ path, pathquery = '/' :: path := List.head?_eq_some_iff.mp hhead
  rw [GetFilename, if_neg hpath]
  have hsegments : segments ('/' :: path) = [] :: segments path :=
    segments_slash (List.not_mem_nil : '/' ∉ ([] : CString)) path
  have hfirst : RefusedFirst mallocOk ⟨pathIsStar, '/' :: path⟩ ↔
      mallocOk = false ∨ climbsAbove 0 (beforeQuery (segments path)) := by
    simp only [RefusedFirst, hstar, hhead, hsegments, List.tail_cons, ne_eq, not_true, false_or]
    simp
  have hdots : DotsBehindQuery ⟨pathIsStar, '/' :: path⟩ ↔
      "..".toList ∈ behindQuery (segments path) := by
    rw [DotsBehindQuery, hsegments, behindQuery_cons _ rfl]
  rw [hfirst, hdots]
  cases mallocOk with
  | false => exact iff_of_true pathSafe_refused (.inl (.inl rfl))
  | true =>
    obtain ⟨hnone, hclimbs⟩ | ⟨rel, hrel, hclimbs, hmem⟩ := removeDots_slash path
    · dsimp only
      rw [hnone]
      exact iff_of_true pathSafe_refused (.inl (.inr hclimbs))
    · dsimp only
      rw [hrel]
      show PathSafe _ _ (findFile fs (withSlash gRootDocumentDir ++ rel)) ↔ _
      rw [pathSafe_findFile, hmem]
      · simp [hclimbs]
      · intro hclimb
        rw [Climbs, hsegments] at hclimb
        rw [hmem]
        exact (climbs_before_or_behind hclimb).resolve_left hclimbs

/-- `/?/../../x` is looked for two levels above the directory `?` of the root. -/
theorem dots_behind_query_served :
    ¬ ∀ (fs : Files) (mallocOk : Bool) (gRootDocumentDir : CString) (request : UriRequest),
      PathSafe gRootDocumentDir request (GetFilename fs mallocOk gRootDocumentDir request) := by
  intro h
  have hsafe := h ⟨fun _ ↦ .regular, fun _ ↦ true⟩ true "/www".toList ⟨false, "/?/../../x".toList⟩
  obtain ⟨rel, heq, hrel⟩ :=
    hsafe.belowRoot ("/www".toList ++ '/' :: "?/../../x".toList) (by decide +kernel)
  have hrest : '/' :: "?/../../x".toList = '/' :: rel := List.append_cancel_left heq
  rw [← (List.cons.inj hrest).2] at hrel
  exact hrel (by decide +kernel)

end Upnp.Web
