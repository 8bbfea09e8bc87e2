import Upnp.Lib.CString

/-!
# Dot segments

`remove_dots` of `http_client.c` and what it does to a path, segment by segment.
The source rewrites its buffer in place; here the buffer is what was written so
far and what is still to be read.  The two never overlap, because `copyTo` does
not overtake `copyFrom`, and the only look back, at `*(copyFrom-1)`, is at a
character that was read.
-/

namespace Upnp.Web

open Upnp.Lib

/-- The loop of `remove_dots`.  `copyTo` is the text written so far, `Segments` the array up to
`lastSegment` with its last entry first, each an offset into that text, `prev` the character before
`copyFrom`; the argument is the text from `copyFrom` to `max`.  `none` is `UPNP_E_INVALID_URL`. -/
def removeDotsLoop (copyTo : CString) (Segments : List Nat) (prev : Option Char) :
    CString → Option CString
  | [] => some copyTo
  | c :: copyFrom =>
    if c = '?' ∨ c = '#' then some (copyTo ++ c :: copyFrom)
    else if c = '.' ∧ (prev = none ∨ prev = some '/') then
      match copyFrom with
      | [] => some copyTo
      | '/' :: copyFrom => removeDotsLoop copyTo Segments (some '/') copyFrom
      | ['.'] =>
        match Segments with
        | _ :: segment :: _ => some (copyTo.take segment)
        | _ => none
      | '.' :: '/' :: copyFrom =>
        match Segments with
        | _ :: segment :: Segments =>
          removeDotsLoop (copyTo.take segment) (segment :: Segments) (some '/') copyFrom
        | _ => none
      | copyFrom => removeDotsLoop (copyTo ++ [c]) Segments (some c) copyFrom
    else if c = '/' then
      removeDotsLoop (copyTo ++ [c]) ((copyTo.length + 1) :: Segments) (some c) copyFrom
    else removeDotsLoop (copyTo ++ [c]) Segments (some c) copyFrom

/-- `remove_dots`, on the text before the terminating NUL; `none` is any error. -/
def removeDots (mallocOk : Bool) (path : CString) : Option CString :=
  if mallocOk then removeDotsLoop [] [] none path else none

/-! ## Segments -/

/-- The segments of a path, between its slashes. -/
def segments (path : CString) : List CString := path.splitOn '/'

/-- The path with the segments given. -/
def joinSegments (segs : List CString) : CString := ['/'].intercalate segs

/-- A segment in which the query or the fragment begins. -/
def isQuery (seg : CString) : Bool := seg.any fun c ↦ c = '?' || c = '#'

/-- Dot segments resolved: `done` are the segments kept so far, the last one first.  Those from the
query on are kept as they are. -/
def resolve (done : List CString) : List CString → Option (List CString)
  | [] => some done.reverse
  | seg :: rest =>
    if isQuery seg then some (done.reverse ++ seg :: rest)
    else if seg = ".".toList then
      if rest = [] then some (done.reverse ++ [[]]) else resolve done rest
    else if seg = "..".toList then
      match done with
      | _ :: kept :: done =>
        if rest = [] then some ((kept :: done).reverse ++ [[]]) else resolve (kept :: done) rest
      | _ => none
    else resolve (seg :: done) rest

/-- The text of finished segments, the last one first, each with its slash. -/
def flat : List CString → CString
  | [] => []
  | seg :: done => flat done ++ seg ++ ['/']

/-- The ends of finished segments, the last one first. -/
def ends : List CString → List Nat
  | [] => []
  | seg :: done => (flat (seg :: done)).length :: ends done

theorem segments_ne_nil (path : CString) : segments path ≠ [] := List.splitOn_ne_nil _ _

theorem joinSegments_segments (path : CString) : joinSegments (segments path) = path :=
  List.intercalate_splitOn _

theorem segments_slash {seg : CString} (h : '/' ∉ seg) (path : CString) :
    segments (seg ++ '/' :: path) = seg :: segments path :=
  List.splitOn_append_cons_self_of_not_mem h path

theorem segments_single {seg : CString} (h : '/' ∉ seg) : segments seg = [seg] :=
  List.splitOn_eq_singleton h

/-- Finished segments and more behind them, joined. -/
theorem joinSegments_reverse (done : List CString) {segs : List CString} (h : segs ≠ []) :
    joinSegments (done.reverse ++ segs) = flat done ++ joinSegments segs := by
  induction done generalizing segs with
  | nil => rfl
  | cons seg done ih =>
    rw [List.reverse_cons, List.append_assoc, ih (by simp)]
    show flat done ++ joinSegments (seg :: segs) = flat done ++ seg ++ ['/'] ++ joinSegments segs
    unfold joinSegments
    rw [List.intercalate_cons_of_ne_nil h]
    simp only [List.append_assoc]

/-- The segment in which a text begins. -/
theorem segments_cons {c : Char} (hc : c ≠ '/') (path : CString) :
    ∃ seg rest, segments path = seg :: rest ∧ segments (c :: path) = (c :: seg) :: rest := by
  cases hp : segments path with
  | nil => exact absurd hp (segments_ne_nil path)
  | cons seg rest =>
    refine ⟨seg, rest, rfl, ?_⟩
    unfold segments at hp ⊢
    rw [List.splitOn_cons_eq_if_modifyHead, if_neg (by simpa using hc), hp]
    rfl

/-- The first segment of a text that goes on without a slash. -/
theorem segments_append {cur : CString} (h : '/' ∉ cur) (path : CString) :
    ∃ seg rest, segments path = seg :: rest ∧ segments (cur ++ path) = (cur ++ seg) :: rest := by
  induction cur with
  | nil =>
    cases hp : segments path with
    | nil => exact absurd hp (segments_ne_nil path)
    | cons seg rest => exact ⟨seg, rest, rfl, hp⟩
  | cons c cur ih =>
    obtain ⟨seg, rest, hseg, happ⟩ := ih fun hmem ↦ h (List.mem_cons_of_mem _ hmem)
    have hc : c ≠ '/' := fun heq ↦ h (heq ▸ List.mem_cons_self)
    obtain ⟨seg', rest', hseg', hcons⟩ := segments_cons hc (cur ++ path)
    rw [happ] at hseg'
    cases hseg'
    exact ⟨seg, rest, hseg, hcons⟩

/-! ## The loop resolves dot segments -/

/-- The first segment is no dot segment. -/
def Plain (path : CString) : Prop :=
  ∀ seg ∈ (segments path).head?, seg ≠ ".".toList ∧ seg ≠ "..".toList

/-- A text written for a segment that is still being read: at the start of the segment nothing, and
after it something that does not become a dot segment. -/
structure Reading (cur : CString) (prev : Option Char) (copyFrom : CString) : Prop where
  noSlash : '/' ∉ cur
  noQuery : isQuery cur = false
  start : (prev = none ∨ prev = some '/') ↔ cur = []
  plain : cur ≠ [] → Plain (cur ++ copyFrom)

theorem Reading.empty {prev : Option Char} (h : prev = none ∨ prev = some '/') (copyFrom : CString) :
    Reading [] prev copyFrom :=
  ⟨List.not_mem_nil, rfl, iff_of_true h rfl, fun hne ↦ absurd rfl hne⟩

/-- One more character of a segment. -/
theorem Reading.next {cur copyFrom : CString} {prev : Option Char} {c : Char}
    (h : Reading cur prev (c :: copyFrom)) (hslash : c ≠ '/') (hquery : ¬(c = '?' ∨ c = '#'))
    (hplain : cur = [] → Plain (c :: copyFrom)) : Reading (cur ++ [c]) (some c) copyFrom where
  noSlash := by
    rw [List.mem_append, List.mem_singleton, not_or]
    exact ⟨h.noSlash, hslash.symm⟩
  noQuery := by
    have hq := h.noQuery
    simp only [isQuery, List.any_append, List.any_cons, List.any_nil] at hq ⊢
    simp only [not_or] at hquery
    simp [hq, hquery.1, hquery.2]
  start := by simp [hslash]
  plain _ := by
    rw [List.append_assoc, List.singleton_append]
    by_cases hcur : cur = []
    · subst hcur
      exact hplain rfl
    · exact h.plain hcur

/-- A segment that is read to its slash, or to the end, is kept. -/
theorem resolve_plain {done rest : List CString} {seg : CString} (hq : isQuery seg = false)
    (hp : seg ≠ ".".toList ∧ seg ≠ "..".toList) :
    resolve done (seg :: rest) = resolve (seg :: done) rest := by
  show (if isQuery seg then _ else if seg = ".".toList then _ else
    if seg = "..".toList then _ else resolve (seg :: done) rest) = resolve (seg :: done) rest
  rw [if_neg (by simp [hq]), if_neg hp.1, if_neg hp.2]

theorem Reading.plain_seg {cur copyFrom : CString} {prev : Option Char}
    (h : Reading cur prev copyFrom) {rest : List CString}
    (hseg : segments (cur ++ copyFrom) = cur :: rest) :
    cur ≠ ".".toList ∧ cur ≠ "..".toList := by
  by_cases hcur : cur = []
  · subst hcur
    exact ⟨by decide, by decide⟩
  · refine h.plain hcur cur ?_
    rw [hseg]
    rfl

/-- A text whose segment begins with something other than the dot segments. -/
theorem plain_of_head {c : Char} {copyFrom : CString} (hc : c ≠ '/') (hdot : c ≠ '.') :
    Plain (c :: copyFrom) := by
  obtain ⟨seg, rest, -, heq⟩ := segments_cons hc copyFrom
  intro s hs
  rw [heq] at hs
  cases hs
  constructor
  · intro h
    exact hdot (List.cons.inj h).1
  · intro h
    exact hdot (List.cons.inj h).1

/-- A text from its first segment. -/
theorem eq_of_segments {path seg : CString} {rest : List CString} (h : segments path = seg :: rest) :
    path = seg ∨ ∃ more, path = seg ++ '/' :: more := by
  have hjoin := joinSegments_segments path
  rw [h] at hjoin
  cases rest with
  | nil =>
    left
    rw [← hjoin]
    simp [joinSegments]
  | cons next rest =>
    right
    refine ⟨joinSegments (next :: rest), ?_⟩
    rw [← hjoin]
    unfold joinSegments
    rw [List.intercalate_cons_of_ne_nil (by simp)]
    simp

/-- A dot that begins a segment which is no dot segment. -/
theorem plain_dot {copyFrom : CString} (h₁ : copyFrom = [] → False)
    (h₂ : ∀ more, copyFrom = '/' :: more → False) (h₃ : copyFrom = ['.'] → False)
    (h₄ : ∀ more, copyFrom = '.' :: '/' :: more → False) : Plain ('.' :: copyFrom) := by
  obtain ⟨seg, rest, hseg, heq⟩ := segments_cons (c := '.') (by decide) copyFrom
  intro s hs
  rw [heq] at hs
  cases hs
  constructor
  · intro hdot
    have hnil : seg = [] := (List.cons.inj hdot).2
    subst hnil
    obtain hall | ⟨more, hmore⟩ := eq_of_segments hseg
    · exact h₁ hall
    · exact h₂ more hmore
  · intro hdot
    have hone : seg = ['.'] := (List.cons.inj hdot).2
    subst hone
    obtain hall | ⟨more, hmore⟩ := eq_of_segments hseg
    · exact h₃ hall
    · exact h₄ more hmore

/-- From the query on the segments stay. -/
theorem resolve_query (done : List CString) {seg : CString} (rest : List CString)
    (hq : isQuery seg) : resolve done (seg :: rest) = some (done.reverse ++ seg :: rest) := by
  show (if isQuery seg then _ else _) = _
  rw [if_pos hq]

/-- A dot segment is left out. -/
theorem resolve_dot (done rest : List CString) :
    resolve done (['.'] :: rest) =
      if rest = [] then some (done.reverse ++ [[]]) else resolve done rest := rfl

/-- A double dot segment takes the last one kept with it. -/
theorem resolve_dots (last kept : CString) (done rest : List CString) :
    resolve (last :: kept :: done) (['.', '.'] :: rest) =
      if rest = [] then some ((kept :: done).reverse ++ [[]]) else resolve (kept :: done) rest :=
  rfl

/-- At the first segment, and before it, there is nothing to go up to. -/
theorem resolve_dots_none {done : List CString} (rest : List CString)
    (h : ∀ head segment tail, ends done = head :: segment :: tail → False) :
    resolve done (['.', '.'] :: rest) = none := by
  cases done with
  | nil => rfl
  | cons last done =>
    cases done with
    | nil => rfl
    | cons kept done => exact (h _ _ _ rfl).elim

/-- The array has two entries only behind two segments; the second is the text of those before. -/
theorem ends_cons_cons {done : List CString} {head segment : Nat} {tail : List Nat} (cur : CString)
    (h : head :: segment :: tail = ends done) :
    ∃ last kept rest, done = last :: kept :: rest ∧ segment :: tail = ends (kept :: rest) ∧
      (flat done ++ cur).take segment = flat (kept :: rest) := by
  cases done with
  | nil => cases h
  | cons last done =>
    cases done with
    | nil => cases h
    | cons kept rest =>
      cases h
      refine ⟨last, kept, rest, rfl, rfl, ?_⟩
      show ((flat (kept :: rest) ++ last ++ ['/']) ++ cur).take (flat (kept :: rest)).length = _
      simp only [List.append_assoc, List.take_left]

/-- The last segment is empty behind a slash. -/
theorem joinSegments_reverse_nil (done : List CString) :
    joinSegments (done.reverse ++ [[]]) = flat done := by
  rw [joinSegments_reverse done (by simp)]
  exact List.append_nil _

/-- The text written so far is that of the segments `done` and of what was read of the next. -/
theorem removeDotsLoop_eq {done : List CString} {cur copyTo copyFrom : CString}
    {Segments : List Nat} {prev : Option Char} (hto : copyTo = flat done ++ cur)
    (hends : Segments = ends done) (h : Reading cur prev copyFrom) :
    removeDotsLoop copyTo Segments prev copyFrom =
      (resolve done (segments (cur ++ copyFrom))).map joinSegments := by
  fun_induction removeDotsLoop copyTo Segments prev copyFrom generalizing done cur with
  | case1 copyTo Segments prev =>
    have hseg : segments (cur ++ []) = [cur] := by
      rw [List.append_nil]
      exact segments_single h.noSlash
    rw [hseg, resolve_plain h.noQuery (h.plain_seg hseg), hto]
    show some _ = some (joinSegments (cur :: done).reverse)
    rw [List.reverse_cons, joinSegments_reverse done (by simp)]
    simp [joinSegments]
  | case2 copyTo Segments prev c copyFrom hquery =>
    obtain ⟨seg, rest, hseg, happ⟩ := segments_append h.noSlash (c :: copyFrom)
    have hc : c ≠ '/' := by rintro rfl; revert hquery; decide
    obtain ⟨seg', rest', -, hcons⟩ := segments_cons hc copyFrom
    rw [hcons] at hseg
    cases hseg
    have hq : isQuery (cur ++ c :: seg') := by
      simp only [isQuery, List.any_append, List.any_cons, Bool.or_eq_true, decide_eq_true_eq]
      exact .inr (.inl (by simpa using hquery))
    rw [happ, resolve_query done _ hq, Option.map_some, joinSegments_reverse done (by simp), ← happ,
      joinSegments_segments, hto, List.append_assoc]
  | case3 copyTo Segments prev c hquery hdot =>
    obtain ⟨rfl, hstart⟩ := hdot
    obtain rfl := h.start.mp hstart
    show some copyTo = (resolve done [['.']]).map joinSegments
    rw [resolve_dot, if_pos rfl, Option.map_some, joinSegments_reverse_nil, hto, List.append_nil]
  | case4 copyTo Segments prev c hquery hdot copyFrom ih =>
    obtain ⟨rfl, hstart⟩ := hdot
    obtain rfl := h.start.mp hstart
    rw [ih hto hends (.empty (.inr rfl) _)]
    have hseg : segments ([] ++ '.' :: '/' :: copyFrom) = ['.'] :: segments copyFrom :=
      segments_slash (by decide : '/' ∉ ['.']) copyFrom
    rw [hseg, resolve_dot, if_neg (segments_ne_nil _)]
    rfl
  | case5 copyTo prev c hquery hdot head segment tail =>
    obtain ⟨rfl, hstart⟩ := hdot
    obtain rfl := h.start.mp hstart
    obtain ⟨last, kept, rest, rfl, -, htake⟩ := ends_cons_cons [] hends
    show _ = (resolve (last :: kept :: rest) [['.', '.']]).map joinSegments
    rw [hto, htake, resolve_dots, if_pos rfl, Option.map_some, joinSegments_reverse_nil]
  | case6 copyTo Segments prev c hquery hdot hnone =>
    obtain ⟨rfl, hstart⟩ := hdot
    obtain rfl := h.start.mp hstart
    show _ = (resolve done [['.', '.']]).map joinSegments
    rw [resolve_dots_none _ (hends ▸ hnone)]
    rfl
  | case7 copyTo prev c hquery hdot copyFrom head segment tail ih =>
    obtain ⟨rfl, hstart⟩ := hdot
    obtain rfl := h.start.mp hstart
    obtain ⟨last, kept, rest, rfl, htail, htake⟩ := ends_cons_cons [] hends
    have hwritten : copyTo.take segment = flat (kept :: rest) ++ [] := by
      rw [hto, htake, List.append_nil]
    rw [ih hwritten htail (.empty (.inr rfl) _)]
    have hseg : segments ([] ++ '.' :: '.' :: '/' :: copyFrom) = ['.', '.'] :: segments copyFrom :=
      segments_slash (by decide : '/' ∉ ['.', '.']) copyFrom
    rw [hseg, resolve_dots, if_neg (segments_ne_nil _)]
    rfl
  | case8 copyTo Segments prev c hquery hdot copyFrom hnone =>
    obtain ⟨rfl, hstart⟩ := hdot
    obtain rfl := h.start.mp hstart
    have hseg : segments ([] ++ '.' :: '.' :: '/' :: copyFrom) = ['.', '.'] :: segments copyFrom :=
      segments_slash (by decide : '/' ∉ ['.', '.']) copyFrom
    rw [hseg, resolve_dots_none _ (hends ▸ hnone)]
    rfl
  | case9 copyTo Segments prev c hquery hdot copyFrom h₁ h₂ h₃ h₄ ih =>
    obtain ⟨rfl, hstart⟩ := hdot
    have hread := h.next (by decide) hquery fun _ ↦ plain_dot h₁ h₂ h₃ h₄
    rw [ih (by rw [hto, List.append_assoc]) hends hread, List.append_assoc]
    rfl
  | case10 copyTo Segments prev copyFrom hquery hdot ih =>
    have hseg : segments (cur ++ '/' :: copyFrom) = cur :: segments copyFrom :=
      segments_slash h.noSlash copyFrom
    have hwritten : copyTo ++ ['/'] = flat (cur :: done) ++ [] := by
      rw [hto, List.append_nil]
      rfl
    have hlength : (copyTo.length + 1) :: Segments = ends (cur :: done) := by
      show _ = (flat (cur :: done)).length :: ends done
      rw [hends, hto]
      simp [flat, Nat.add_assoc]
    rw [ih hwritten hlength (.empty (.inr rfl) _), hseg,
      resolve_plain h.noQuery (h.plain_seg hseg)]
    rfl
  | case11 copyTo Segments prev c copyFrom hquery hdot hslash ih =>
    have hread : Reading (cur ++ [c]) (some c) copyFrom := by
      refine h.next hslash hquery fun hcur ↦ plain_of_head hslash fun hc ↦ hdot ⟨hc, ?_⟩
      exact h.start.mpr hcur
    rw [ih (by rw [hto, List.append_assoc]) hends hread, List.append_assoc]
    rfl

/-- What `remove_dots` makes of a path, and when it refuses it. -/
theorem removeDots_eq (path : CString) :
    removeDots true path = (resolve [] (segments path)).map joinSegments :=
  removeDotsLoop_eq (List.append_nil (flat [])).symm rfl (.empty (.inl rfl) path)

/-! ## What the resolved path is made of -/

/-- A path that starts `depth` segments below its root climbs above it.  Empty segments count, as
they do when a URL is resolved. -/
def climbsAbove : Nat → List CString → Bool
  | _, [] => false
  | depth, seg :: rest =>
    if seg = ".".toList then climbsAbove depth rest
    else if seg = "..".toList then
      match depth with
      | 0 => true
      | depth + 1 => climbsAbove depth rest
    else climbsAbove (depth + 1) rest

/-- The segments before the query. -/
def beforeQuery (segs : List CString) : List CString := segs.takeWhile (!isQuery ·)

/-- The segments behind the one in which the query begins. -/
def behindQuery (segs : List CString) : List CString := (segs.dropWhile (!isQuery ·)).tail

theorem beforeQuery_cons {seg : CString} (rest : List CString) (h : isQuery seg = false) :
    beforeQuery (seg :: rest) = seg :: beforeQuery rest :=
  List.takeWhile_cons_of_pos (by simp [h])

theorem behindQuery_cons {seg : CString} (rest : List CString) (h : isQuery seg = false) :
    behindQuery (seg :: rest) = behindQuery rest := by
  unfold behindQuery
  rw [List.dropWhile_cons_of_pos (by simp [h])]

theorem beforeQuery_query {seg : CString} (rest : List CString) (h : isQuery seg) :
    beforeQuery (seg :: rest) = [] :=
  List.takeWhile_cons_of_neg (by simp [h])

theorem behindQuery_query {seg : CString} (rest : List CString) (h : isQuery seg) :
    behindQuery (seg :: rest) = rest := by
  unfold behindQuery
  rw [List.dropWhile_cons_of_neg (by simp [h])]
  rfl

/-- Dot segments are refused where they climb above the first segment, before the query. -/
theorem resolve_eq_none_iff {top : CString} {done segs : List CString} :
    resolve (done ++ [top]) segs = none ↔ climbsAbove done.length (beforeQuery segs) := by
  induction segs generalizing done with
  | nil => simp [resolve, beforeQuery, climbsAbove]
  | cons seg rest ih =>
    by_cases hq : isQuery seg
    · simp [resolve_query _ _ hq, beforeQuery_query _ hq, climbsAbove]
    rw [Bool.not_eq_true] at hq
    rw [beforeQuery_cons _ hq]
    by_cases hdot : seg = ".".toList
    · subst hdot
      show resolve (done ++ [top]) (['.'] :: rest) = none ↔ climbsAbove done.length (beforeQuery rest)
      rw [resolve_dot]
      split
      · subst rest
        simp [beforeQuery, climbsAbove]
      · exact ih
    by_cases hdots : seg = "..".toList
    · subst hdots
      cases done with
      | nil =>
        show resolve [top] (['.', '.'] :: rest) = none ↔ true
        rw [resolve_dots_none rest (by rintro head segment tail ⟨⟩)]
        simp
      | cons last done =>
        show resolve (last :: (done ++ [top])) (['.', '.'] :: rest) = none ↔
          climbsAbove done.length (beforeQuery rest)
        obtain ⟨kept, below, hbelow⟩ : ∃ kept below, done ++ [top] = kept :: below :=
          List.exists_cons_of_ne_nil (by simp)
        rw [hbelow, resolve_dots, ← hbelow]
        split
        · subst rest
          simp [beforeQuery, climbsAbove]
        · exact ih
    · rw [resolve_plain hq ⟨hdot, hdots⟩, climbsAbove.eq_def]
      simp only [hdot, hdots, if_false]
      exact @ih (seg :: done)

/-- The dot segments of a resolved path are those behind the query. -/
theorem mem_resolve_iff {done segs out : List CString} (h : resolve done segs = some out)
    (hdone : "..".toList ∉ done) : "..".toList ∈ out ↔ "..".toList ∈ behindQuery segs := by
  fun_induction resolve done segs with
  | case1 done =>
    cases h
    rw [List.mem_reverse]
    exact iff_of_false hdone List.not_mem_nil
  | case2 done seg rest hq =>
    cases h
    have hseg : "..".toList ≠ seg := by
      rintro rfl
      exact absurd hq (by decide)
    rw [behindQuery_query rest hq, List.mem_append, List.mem_reverse, List.mem_cons]
    simp only [hdone, hseg, false_or]
  | case3 done hq =>
    cases h
    rw [behindQuery_cons _ rfl, List.mem_append, List.mem_reverse]
    refine iff_of_false ?_ List.not_mem_nil
    rintro (hmem | hmem)
    · exact hdone hmem
    · exact absurd hmem (by decide)
  | case4 done rest hq hrest ih =>
    rw [behindQuery_cons _ rfl]
    exact ih h hdone
  | case5 hq hdot last kept done =>
    cases h
    rw [behindQuery_cons _ rfl, List.mem_append, List.mem_reverse]
    refine iff_of_false ?_ List.not_mem_nil
    rintro (hmem | hmem)
    · exact hdone (List.mem_cons_of_mem _ hmem)
    · exact absurd hmem (by decide)
  | case6 rest hq hdot last kept done hrest ih =>
    rw [behindQuery_cons _ rfl]
    exact ih h fun hmem ↦ hdone (List.mem_cons_of_mem _ hmem)
  | case7 => cases h
  | case8 done seg rest hq hdot hdots ih =>
    rw [behindQuery_cons _ (by simpa using hq)]
    refine ih h ?_
    rw [List.mem_cons, not_or]
    exact ⟨fun heq ↦ hdots heq.symm, hdone⟩

/-- The first segment stays, and something behind it. -/
theorem resolve_shape {top : CString} {done segs out : List CString}
    (h : resolve (done ++ [top]) segs = some out) (hmore : segs ≠ [] ∨ done ≠ []) :
    ∃ rel, rel ≠ [] ∧ out = top :: rel := by
  induction segs generalizing done with
  | nil =>
    cases h
    refine ⟨done.reverse, ?_, by simp⟩
    simpa using hmore
  | cons seg rest ih =>
    by_cases hq : isQuery seg
    · rw [resolve_query _ _ hq] at h
      cases h
      exact ⟨done.reverse ++ seg :: rest, by simp, by simp⟩
    rw [Bool.not_eq_true] at hq
    by_cases hdot : seg = ".".toList
    · subst hdot
      replace h : resolve (done ++ [top]) (['.'] :: rest) = some out := h
      rw [resolve_dot] at h
      split at h
      · cases h
        exact ⟨done.reverse ++ [[]], by simp, by simp⟩
      · rename_i hrest
        exact ih h (.inl hrest)
    by_cases hdots : seg = "..".toList
    · subst hdots
      cases done with
      | nil =>
        replace h : resolve [top] (['.', '.'] :: rest) = some out := h
        rw [resolve_dots_none rest (by rintro head segment tail ⟨⟩)] at h
        cases h
      | cons last done =>
        replace h : resolve (last :: (done ++ [top])) (['.', '.'] :: rest) = some out := h
        obtain ⟨kept, below, hbelow⟩ : ∃ kept below, done ++ [top] = kept :: below :=
          List.exists_cons_of_ne_nil (by simp)
        rw [hbelow, resolve_dots, ← hbelow] at h
        split at h
        · cases h
          exact ⟨done.reverse ++ [[]], by simp, by simp⟩
        · rename_i hrest
          exact ih h (.inl hrest)
    · rw [resolve_plain hq ⟨hdot, hdots⟩] at h
      exact @ih (seg :: done) h (.inr (by simp))

/-- The segments of a resolved path are among those of the path, apart from an empty one. -/
theorem forall_of_resolve {P : CString → Prop} {done segs out : List CString}
    (h : resolve done segs = some out) (hnil : P []) (hdone : ∀ seg ∈ done, P seg)
    (hsegs : ∀ seg ∈ segs, P seg) : ∀ seg ∈ out, P seg := by
  fun_induction resolve done segs with
  | case1 done =>
    cases h
    simpa using hdone
  | case2 done seg rest hq =>
    cases h
    intro s hs
    obtain hs | hs := List.mem_append.mp hs
    · exact hdone s (List.mem_reverse.mp hs)
    · exact hsegs s hs
  | case3 done hq =>
    cases h
    intro s hs
    obtain hs | hs := List.mem_append.mp hs
    · exact hdone s (List.mem_reverse.mp hs)
    · cases List.mem_singleton.mp hs
      exact hnil
  | case4 done rest hq hrest ih => exact ih h hdone fun s hs ↦ hsegs s (List.mem_cons_of_mem _ hs)
  | case5 hq hdot last kept done =>
    cases h
    intro s hs
    obtain hs | hs := List.mem_append.mp hs
    · exact hdone s (List.mem_cons_of_mem _ (List.mem_reverse.mp hs))
    · cases List.mem_singleton.mp hs
      exact hnil
  | case6 rest hq hdot last kept done hrest ih =>
    exact ih h (fun s hs ↦ hdone s (List.mem_cons_of_mem _ hs))
      fun s hs ↦ hsegs s (List.mem_cons_of_mem _ hs)
  | case7 => cases h
  | case8 done seg rest hq hdot hdots ih =>
    refine ih h ?_ fun s hs ↦ hsegs s (List.mem_cons_of_mem _ hs)
    intro s hs
    obtain rfl | hs := List.mem_cons.mp hs
    · exact hsegs s List.mem_cons_self
    · exact hdone s hs

/-- No segment of a resolved path has a slash. -/
theorem noSlash_of_resolve {done segs out : List CString} (h : resolve done segs = some out)
    (hdone : ∀ seg ∈ done, '/' ∉ seg) (hsegs : ∀ seg ∈ segs, '/' ∉ seg) :
    ∀ seg ∈ out, '/' ∉ seg :=
  forall_of_resolve h List.not_mem_nil hdone hsegs

/-- Nor has a segment of any path. -/
theorem noSlash_segments (path : CString) : ∀ seg ∈ segments path, '/' ∉ seg := by
  induction path with
  | nil => simp [segments]
  | cons c path ih =>
    by_cases hc : c = '/'
    · subst hc
      rw [show '/' :: path = [] ++ '/' :: path from rfl, segments_slash List.not_mem_nil]
      intro seg hseg
      obtain rfl | hseg := List.mem_cons.mp hseg
      · exact List.not_mem_nil
      · exact ih seg hseg
    · obtain ⟨first, rest, hpath, heq⟩ := segments_cons hc path
      rw [hpath] at ih
      rw [heq]
      intro seg hseg
      obtain rfl | hseg := List.mem_cons.mp hseg
      · rw [List.mem_cons, not_or]
        exact ⟨Ne.symm hc, ih first List.mem_cons_self⟩
      · exact ih seg (List.mem_cons_of_mem _ hseg)

theorem segments_joinSegments {segs : List CString} (h : ∀ seg ∈ segs, '/' ∉ seg)
    (hne : segs ≠ []) : segments (joinSegments segs) = segs :=
  List.splitOn_intercalate '/' h hne

/-- More text behind the last slash replaces, or makes, the last segment. -/
theorem segments_append_slash (path : CString) {seg : CString} (h : '/' ∉ seg) :
    segments (path ++ '/' :: seg) = segments path ++ [seg] := by
  unfold segments
  rw [List.splitOn_append_cons_self, List.splitOn_eq_singleton h]

end Upnp.Web
