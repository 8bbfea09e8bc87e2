import Upnp.Uri.Decompose
import Upnp.Web.DotSegments

/-!
# Resolving relative URLs

`resolve_rel_url` of `http_client.c`, where `malloc` answers.  The buffer `out` is the text
written so far; `none` is an access outside it.
-/

namespace Upnp.Uri

open Upnp.Lib

/-! ## The source -/

/-- `memcpy` to the end of what is written. -/
def memcpy (size : Nat) (out text : CString) : Option CString :=
  if out.length + text.length ≤ size then some (out ++ text) else none

/-- `strcpy` to the end of what is written, with the terminator. -/
def strcpy (size : Nat) (out text : CString) : Option CString :=
  if out.length + text.length < size then some (out ++ text) else none

/-- The loop over the path of the base: `written` is what it wrote behind the first `start`
characters, `last` the part of it up to `last_slash`. -/
def pathLoop (size start : Nat) (written last : CString) : CString → Option CString
  | [] => some last
  | c :: rest =>
    if c = '?' then some last
    else if start + written.length < size then
      pathLoop size start (written ++ [c]) (if c = '/' then written ++ [c] else last) rest
    else none

/-- The branch for a relative path. -/
def relPath (size : Nat) (out pathquery rel_url : CString) : Option (Option CString) := do
  let front ← pathLoop size out.length [] [] (if pathquery = [] then ['/'] else pathquery)
  let _ ← strcpy size (out ++ front) rel_url
  let text := front ++ rel_url
  match ← Web.remove_dots true (text ++ ['\x00']) text.length with
  | .error _ => some none
  | .ok buf => some (some (out ++ buf.takeWhile (· ≠ '\x00')))

/-- The host and port of the base, when it has them. -/
def copyHostport (size : Nat) (out hostport : CString) : Option CString :=
  if hostport = [] then some out
  else (memcpy size out ['/', '/']).bind (memcpy size · hostport)

/-- The part of `resolve_rel_url` behind the two calls of `parse_uri`, for a reference that is not
absolute. -/
def assemble (size : Nat) (base_url rel_url : CString) (base rel : URI) :
    Option (Option CString) :=
  if rel_url = [] then (strcpy size [] base_url).map some
  else do
    let out ← memcpy size [] (base.scheme.text base_url ++ [':'])
    if 0 < rel.hostport.text.size then (strcpy size out rel_url).map some
    else do
      let out ← copyHostport size out (base.hostport.text.text base_url)
      if rel.path_type = .ABS_PATH then (strcpy size out rel_url).map some
      else relPath size out (base.pathquery.text base_url) rel_url

/-- `parse_uri` on a string. -/
def parseString (env : Env) (url : CString) : Option (Except Int URI) :=
  parse_uri env (url ++ ['\x00']) 0 url.length

/-- `resolve_rel_url` on two strings. -/
def resolveBoth (env : Env) (base_url rel_url : CString) : Option (Option CString) := do
  let size := base_url.length + rel_url.length + 2
  match ← parseString env rel_url with
  | .error _ => some none
  | .ok rel =>
    if rel.type = .ABSOLUTE then (strcpy size [] rel_url).map some
    else
      match ← parseString env base_url with
      | .error _ => some none
      | .ok base =>
        if base.type = .ABSOLUTE then assemble size base_url rel_url base rel else some none

/-- `resolve_rel_url`; a pointer may be `NULL`. -/
def resolve_rel_url (env : Env) : Option CString → Option CString → Option (Option CString)
  | some base_url, some rel_url => resolveBoth env base_url rel_url
  | none, rel_url => some rel_url
  | some _, none => some none

/-! ## The directory of a path -/

/-- A path up to its last slash. -/
def dirOf (path : CString) : CString := (path.reverse.dropWhile (· ≠ '/')).reverse

variable {size start : Nat} {env : Env} {out text base_url rel_url : CString} {base rel : URI}

theorem dirOf_concat (path : CString) (c : Char) :
    dirOf (path ++ [c]) = if c = '/' then path ++ [c] else dirOf path := by
  rw [dirOf, List.reverse_append, List.reverse_singleton, List.singleton_append,
    List.dropWhile_cons]
  by_cases hc : c = '/'
  · rw [if_pos hc, if_neg (by simp [hc]), List.reverse_cons, List.reverse_reverse]
  · rw [if_neg hc, if_pos (by simp [hc]), dirOf]

/-- The directory is the front of the path. -/
theorem dirOf_append (path : CString) : ∃ last, path = dirOf path ++ last := by
  refine ⟨(path.reverse.takeWhile (· ≠ '/')).reverse, ?_⟩
  rw [dirOf, ← List.reverse_append, List.takeWhile_append_dropWhile, List.reverse_reverse]

theorem length_dirOf_le (path : CString) : (dirOf path).length ≤ path.length := by
  obtain ⟨last, hlast⟩ := dirOf_append path
  exact (congrArg List.length hlast) ▸ (List.length_append ▸ Nat.le_add_right _ _)

theorem pathLoop_eq {written rest : CString}
    (h : start + written.length + (rest.takeWhile (· ≠ '?')).length ≤ size) :
    pathLoop size start written (dirOf written) rest =
      some (dirOf (written ++ rest.takeWhile (· ≠ '?'))) := by
  induction rest generalizing written with
  | nil =>
    rw [pathLoop, List.takeWhile_nil, List.append_nil]
  | cons c rest ih =>
    rw [pathLoop]
    by_cases hc : c = '?'
    · rw [if_pos hc, List.takeWhile_cons_of_neg (by simp [hc]), List.append_nil]
    · rw [List.takeWhile_cons_of_pos (by simp [hc])] at h ⊢
      rw [List.length_cons] at h
      have hnext : start + (written ++ [c]).length + (rest.takeWhile (· ≠ '?')).length ≤ size := by
        rw [List.length_append, List.length_singleton]
        omega
      rw [if_neg hc, if_pos (by omega), ← dirOf_concat, ih hnext, List.append_assoc,
        List.singleton_append]

/-! ## The buffer is large enough -/

theorem memcpy_eq (h : out.length + text.length ≤ size) : memcpy size out text = some (out ++ text) :=
  if_pos h

theorem strcpy_eq (h : out.length + text.length < size) : strcpy size out text = some (out ++ text) :=
  if_pos h

/-- The path in front of the query that the loop copies. -/
def basePath (pathquery : CString) : CString :=
  if pathquery = [] then ['/'] else pathquery.takeWhile (· ≠ '?')

theorem takeWhile_basePath (pathquery : CString) :
    (if pathquery = [] then ['/'] else pathquery).takeWhile (· ≠ '?') = basePath pathquery := by
  rw [basePath]
  split
  · rfl
  · rfl

theorem length_basePath_le (pathquery : CString) :
    (basePath pathquery).length ≤ pathquery.length + 1 := by
  rw [basePath]
  split
  · exact Nat.le_add_left 1 _
  · exact (List.takeWhile_sublist _).length_le.trans (Nat.le_succ _)

/-- The text that `remove_dots` is called with. -/
def merged (pathquery rel_url : CString) : CString := dirOf (basePath pathquery) ++ rel_url

/-- The branch for a relative path is what `remove_dots` makes of the text. -/
theorem relPath_eq {pathquery : CString}
    (h : out.length + pathquery.length + rel_url.length + 1 < size) :
    relPath size out pathquery rel_url =
      (Web.remove_dots true (merged pathquery rel_url ++ ['\x00'])
        (merged pathquery rel_url).length).bind fun r ↦
          match r with
          | .error _ => some none
          | .ok buf => some (some (out ++ buf.takeWhile (· ≠ '\x00'))) := by
  have hbase := length_basePath_le pathquery
  have hdir := length_dirOf_le (basePath pathquery)
  have hloop : pathLoop size out.length [] [] (if pathquery = [] then ['/'] else pathquery) =
      some (dirOf (basePath pathquery)) := by
    have hrun := @pathLoop_eq size out.length [] (if pathquery = [] then ['/'] else pathquery)
      (by rw [takeWhile_basePath, List.length_nil]; omega)
    rw [takeWhile_basePath, List.nil_append] at hrun
    exact hrun
  have hcopy := @strcpy_eq size (out ++ dirOf (basePath pathquery)) rel_url
    (by rw [List.length_append]; omega)
  rw [relPath, hloop, Option.bind_eq_bind, Option.bind_some, hcopy, Option.bind_eq_bind,
    Option.bind_some]
  rfl

theorem merged_endsAs (pathquery : CString) (hrel : rel_url ≠ []) :
    Web.EndsAs (Web.remove_dots true (merged pathquery rel_url ++ ['\x00'])
        (merged pathquery rel_url).length) ((merged pathquery rel_url).length + 1)
      (Web.removeDots true (merged pathquery rel_url)) := by
  have hpos := List.length_pos_iff.mpr
    (List.append_ne_nil_of_right_ne_nil (dirOf (basePath pathquery)) hrel)
  have hends := Web.remove_dots_endsAs (Nat.le_refl _) hpos
  rw [List.take_length] at hends
  exact hends

theorem relPath_isSome {pathquery : CString} (hrel : rel_url ≠ [])
    (h : out.length + pathquery.length + rel_url.length + 1 < size) :
    (relPath size out pathquery rel_url).isSome := by
  have hends := merged_endsAs pathquery hrel
  rw [relPath_eq h]
  cases hdots : Web.removeDots true (merged pathquery rel_url) with
  | none =>
    rw [hdots] at hends
    rw [hends]
    rfl
  | some t =>
    rw [hdots] at hends
    obtain ⟨buf, hbuf, -⟩ := hends
    rw [hbuf]
    rfl

/-! ## The parts of the base -/

theorem length_text_le (memory : CString) (t : Token) : (t.text memory).length ≤ t.size := by
  rw [Token.text]
  split
  · exact Nat.zero_le _
  · rw [List.length_take]
    exact Nat.min_le_left _ _

/-- The texts of the base that are copied are no longer than the base. -/
theorem length_parts_le (h : parseString env base_url = some (.ok base))
    (htype : base.type = .ABSOLUTE) :
    (base.scheme.text base_url).length + 1 +
      (if base.hostport.text.text base_url = [] then 0
        else (base.hostport.text.text base_url).length + 2) +
      (base.pathquery.text base_url).length ≤ base_url.length := by
  have hslices := parse_uri_slices (Nat.zero_le _) h
  have hmax := hslices.le_max
  have hscheme := length_text_le base_url base.scheme
  have hhost := length_text_le base_url base.hostport.text
  have hpath := length_text_le base_url base.pathquery
  rw [URI.extent, URI.begin_path, URI.schemeExtent, if_pos htype, HostPort.extent] at hmax
  by_cases hnone : base.hostport.text.buff = none
  · have htext : base.hostport.text.text base_url = [] := by rw [Token.text, hnone]
    rw [if_pos hnone] at hmax
    rw [if_pos htext]
    omega
  · rw [if_neg hnone] at hmax
    split <;> omega

theorem copyHostport_eq {hostport : CString}
    (h : out.length + (if hostport = [] then 0 else hostport.length + 2) ≤ size) :
    copyHostport size out hostport =
      some (out ++ if hostport = [] then [] else ['/', '/'] ++ hostport) := by
  rw [copyHostport]
  by_cases hnil : hostport = []
  · rw [if_pos hnil, if_pos hnil, List.append_nil]
  · rw [if_neg hnil] at h
    have hslashes : out.length + ['/', '/'].length ≤ size := by
      rw [show ['/', '/'].length = 2 from rfl]
      omega
    have hhost : (out ++ ['/', '/']).length + hostport.length ≤ size := by
      rw [List.length_append, show ['/', '/'].length = 2 from rfl]
      omega
    rw [if_neg hnil, if_neg hnil, memcpy_eq hslashes, Option.bind_some, memcpy_eq hhost,
      List.append_assoc]

/-- What is written in front of the path. -/
def front (base_url : CString) (base : URI) : CString :=
  base.scheme.text base_url ++ [':'] ++
    if base.hostport.text.text base_url = [] then []
    else ['/', '/'] ++ base.hostport.text.text base_url

theorem length_front (base_url : CString) (base : URI) :
    (front base_url base).length = (base.scheme.text base_url).length + 1 +
      if base.hostport.text.text base_url = [] then 0
      else (base.hostport.text.text base_url).length + 2 := by
  rw [front, List.length_append, List.length_append, List.length_singleton]
  split
  · rfl
  · rw [List.length_append, Nat.add_comm ['/', '/'].length]
    rfl

/-- A reference that is not absolute, without the tests for the bounds. -/
theorem assemble_eq (h : parseString env base_url = some (.ok base))
    (htype : base.type = .ABSOLUTE) :
    assemble (base_url.length + rel_url.length + 2) base_url rel_url base rel =
      if rel_url = [] then some (some base_url)
      else if 0 < rel.hostport.text.size then
        some (some (base.scheme.text base_url ++ [':'] ++ rel_url))
      else if rel.path_type = .ABS_PATH then some (some (front base_url base ++ rel_url))
      else relPath (base_url.length + rel_url.length + 2) (front base_url base)
        (base.pathquery.text base_url) rel_url := by
  have hparts := length_parts_le h htype
  have hfront := length_front base_url base
  rw [assemble]
  by_cases hnil : rel_url = []
  · have hcopy : strcpy (base_url.length + rel_url.length + 2) [] base_url = some base_url :=
      strcpy_eq (by rw [List.length_nil]; omega)
    rw [if_pos hnil, if_pos hnil, hcopy, Option.map_some]
  · have hscheme : memcpy (base_url.length + rel_url.length + 2) []
        (base.scheme.text base_url ++ [':']) = some (base.scheme.text base_url ++ [':']) := by
      refine memcpy_eq ?_
      rw [List.length_nil, List.length_append, List.length_singleton]
      omega
    rw [if_neg hnil, if_neg hnil, hscheme, Option.bind_eq_bind, Option.bind_some]
    by_cases hnet : 0 < rel.hostport.text.size
    · have hcopy := @strcpy_eq (base_url.length + rel_url.length + 2)
        (base.scheme.text base_url ++ [':']) rel_url
        (by rw [List.length_append, List.length_singleton]; omega)
      rw [if_pos hnet, if_pos hnet, hcopy, Option.map_some]
    · have hhost := @copyHostport_eq (base_url.length + rel_url.length + 2)
        (base.scheme.text base_url ++ [':']) (base.hostport.text.text base_url)
        (by rw [List.length_append, List.length_singleton]; omega)
      rw [if_neg hnet, if_neg hnet, hhost, Option.bind_some]
      by_cases habs : rel.path_type = .ABS_PATH
      · have hcopy := @strcpy_eq (base_url.length + rel_url.length + 2) (front base_url base) rel_url
          (by omega)
        rw [if_pos habs, if_pos habs]
        exact congrArg (Option.map some) hcopy
      · rw [if_neg habs, if_neg habs]
        rfl

theorem parseString_isSome (env : Env) (url : CString) : (parseString env url).isSome :=
  parse_uri_isSome (by rw [List.drop_zero, List.length_append]; exact Nat.le_add_right _ _)

/-- For every pair of arguments `resolve_rel_url` accesses only its buffers. -/
theorem resolve_rel_url_isSome (env : Env) (base_url rel_url : Option CString) :
    (resolve_rel_url env base_url rel_url).isSome := by
  cases base_url with
  | none => rfl
  | some base_url =>
    cases rel_url with
    | none => rfl
    | some rel_url =>
      rw [resolve_rel_url, resolveBoth]
      obtain ⟨r, hr⟩ := Option.isSome_iff_exists.mp (parseString_isSome env rel_url)
      rw [hr, Option.bind_eq_bind, Option.bind_some]
      cases r with
      | error code => rfl
      | ok rel =>
        dsimp only
        by_cases habs : rel.type = .ABSOLUTE
        · rw [if_pos habs, Option.isSome_map, strcpy_eq (by rw [List.length_nil]; omega)]
          rfl
        · obtain ⟨b, hb⟩ := Option.isSome_iff_exists.mp (parseString_isSome env base_url)
          rw [if_neg habs, hb, Option.bind_some]
          cases b with
          | error code => rfl
          | ok base =>
            dsimp only
            by_cases htype : base.type = .ABSOLUTE
            · rw [if_pos htype, assemble_eq hb htype]
              have hparts := length_parts_le hb htype
              have hfront := length_front base_url base
              by_cases hnil : rel_url = []
              · rw [if_pos hnil]
                rfl
              · rw [if_neg hnil]
                split
                · rfl
                · split
                  · rfl
                  · exact relPath_isSome hnil (by omega)
            · rw [if_neg htype]
              rfl

end Upnp.Uri
