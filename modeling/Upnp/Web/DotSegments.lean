import Mathlib.Data.List.TakeWhile
import Upnp.Web.RemoveDotsInPlace

/-!
# The reference for dot segments

The dot segments of a path are removed with a stack of the segments kept.
`remove_dots` does this, except for a dot segment that ends the path in front of a
query or a fragment: the source looks for the end of the buffer behind it, or for
a slash.
-/

namespace Upnp.Web

open Upnp.Lib

/-! ## The reference -/

/-- A character with which the query or the fragment begins. -/
def isQueryStart (c : Char) : Bool := c = '?' || c = '#'

/-- The path in front of the query and the fragment. -/
def pathPart (path : CString) : CString := path.takeWhile (!isQueryStart ·)

/-- The query and the fragment. -/
def queryPart (path : CString) : CString := path.dropWhile (!isQueryStart ·)

/-- A dot segment. -/
def IsDots (seg : CString) : Prop := seg = ".".toList ∨ seg = "..".toList

instance (seg : CString) : Decidable (IsDots seg) := inferInstanceAs (Decidable (_ ∨ _))

/-- A segment is put on the stack; `none` when it climbs above the root. -/
def pushSegment (stack : List CString) (seg : CString) : Option (List CString) :=
  if seg = ".".toList then some stack
  else if seg = "..".toList then
    match stack with
    | [] => none
    | _ :: stack => some stack
  else some (seg :: stack)

/-- The segments of a path that begins with a slash. -/
def pathSegments (path : CString) : List CString := (segments (pathPart path)).tail

/-- The last segment is a dot segment. -/
def EndsInDots (segs : List CString) : Prop := ∃ seg, segs.getLast? = some seg ∧ IsDots seg

/-- The text of the segments kept; behind a dot segment at the end it ends with a slash. -/
def stackText (segs stack : List CString) : CString :=
  match segs.getLast? with
  | some seg => '/' :: joinSegments (stack.reverse ++ if IsDots seg then [[]] else [])
  | none => '/' :: joinSegments stack.reverse

/-- The path without dot segments. -/
def removeDotSegments (path : CString) : Option CString :=
  ((pathSegments path).foldlM pushSegment []).map fun stack ↦
    stackText (pathSegments path) stack ++ queryPart path

/-! ## The segments of a path with a query -/

variable {path seg last : CString} {stack pre segs rest : List CString}

theorem pathPart_append (path : CString) : pathPart path ++ queryPart path = path :=
  List.takeWhile_append_dropWhile

theorem mem_joinSegments {c : Char} (hseg : seg ∈ segs) (hc : c ∈ seg) : c ∈ joinSegments segs := by
  induction segs with
  | nil => cases hseg
  | cons first segs ih =>
    cases segs with
    | nil =>
      rw [List.mem_singleton.mp hseg] at hc
      simpa [joinSegments] using hc
    | cons next segs =>
      unfold joinSegments at ih ⊢
      rw [List.intercalate_cons_of_ne_nil (by simp), List.append_assoc, List.mem_append,
        List.mem_append]
      rcases List.mem_cons.mp hseg with rfl | hseg
      · exact .inl hc
      · exact .inr (.inr (ih hseg))

theorem mem_of_mem_joinSegments {c : Char} (h : c ∈ joinSegments segs) :
    c = '/' ∨ ∃ seg ∈ segs, c ∈ seg := by
  induction segs with
  | nil => cases h
  | cons first segs ih =>
    by_cases hsegs : segs = []
    · subst hsegs
      exact .inr ⟨first, List.mem_cons_self, by simpa [joinSegments] using h⟩
    · unfold joinSegments at ih h
      rw [List.intercalate_cons_of_ne_nil hsegs, List.append_assoc, List.mem_append,
        List.mem_append, List.mem_singleton] at h
      rcases h with h | h | h
      · exact .inr ⟨first, List.mem_cons_self, h⟩
      · exact .inl h
      · refine (ih h).imp_right ?_
        rintro ⟨seg, hseg, hc⟩
        exact ⟨seg, List.mem_cons_of_mem _ hseg, hc⟩

theorem isQuery_of_mem_pathPart (h : seg ∈ segments (pathPart path)) : isQuery seg = false := by
  rw [isQuery, List.any_eq_false]
  intro c hc
  have hmem : c ∈ pathPart path := by
    rw [← joinSegments_segments (pathPart path)]
    exact mem_joinSegments h hc
  have hnot := List.mem_takeWhile_imp hmem
  simpa [isQueryStart] using hnot

theorem isQueryStart_of_queryPart {q : Char} {qs : CString} (h : queryPart path = q :: qs) :
    isQueryStart q := by
  have hne : queryPart path ≠ [] := h ▸ List.cons_ne_nil q qs
  have hhead := List.head_dropWhile_not (!isQueryStart ·) hne
  change (!isQueryStart ((queryPart path).head _)) = false at hhead
  simp only [h, List.head_cons, Bool.not_eq_false'] at hhead
  exact hhead

theorem pathPart_queryPart (path : CString) : pathPart (queryPart path) = [] := by
  cases h : queryPart path with
  | nil => rfl
  | cons q qs => exact List.takeWhile_cons_of_neg (by simp [isQueryStart_of_queryPart h])

/-- Behind finished segments the segments are those of the rest. -/
theorem segments_flat (done : List CString) (hdone : ∀ seg ∈ done, '/' ∉ seg) (more : CString) :
    segments (flat done ++ more) = done.reverse ++ segments more := by
  induction done generalizing more with
  | nil => rfl
  | cons seg done ih =>
    obtain ⟨hseg, hrest⟩ := List.forall_mem_cons.mp hdone
    rw [flat, List.append_assoc, List.append_assoc, List.singleton_append, ih hrest,
      segments_slash hseg, List.reverse_cons, List.append_assoc, List.singleton_append]

/-- The first segments of a path are those of its front, with the last one going on. -/
theorem segments_append_of_eq (hpath : segments path = pre ++ [last]) (more : CString) :
    ∃ seg rest, segments more = seg :: rest ∧
      segments (path ++ more) = pre ++ (last ++ seg) :: rest := by
  have hslash : ∀ seg ∈ pre ++ [last], '/' ∉ seg := hpath ▸ noSlash_segments path
  have hpre : ∀ seg ∈ pre.reverse, '/' ∉ seg := fun seg hseg ↦
    hslash seg (List.mem_append_left _ (List.mem_reverse.mp hseg))
  have hjoin : path = flat pre.reverse ++ last := by
    rw [← joinSegments_segments path, hpath, ← List.reverse_reverse pre,
      joinSegments_reverse pre.reverse (by simp), List.reverse_reverse]
    simp [joinSegments]
  obtain ⟨seg, rest, hmore, happ⟩ := segments_append (hslash last (by simp)) more
  refine ⟨seg, rest, hmore, ?_⟩
  rw [hjoin, List.append_assoc, segments_flat _ hpre, happ, List.reverse_reverse]

/-! ## The source resolves the segments in front of the last one -/

/-- A segment in front of others. -/
theorem resolve_push (hq : isQuery seg = false) (hrest : rest ≠ []) :
    resolve (stack ++ [[]]) (seg :: rest) =
      (pushSegment stack seg).bind fun stack ↦ resolve (stack ++ [[]]) rest := by
  rw [pushSegment.eq_def]
  by_cases hdot : seg = ".".toList
  · subst hdot
    rw [if_pos rfl]
    change resolve (stack ++ [[]]) (['.'] :: rest) = _
    rw [resolve_dot, if_neg hrest]
    rfl
  · rw [if_neg hdot]
    by_cases hdots : seg = "..".toList
    · subst hdots
      rw [if_pos rfl]
      change resolve (stack ++ [[]]) (['.', '.'] :: rest) = _
      cases stack with
      | nil => exact resolve_dots_none rest (by rintro head segment tail ⟨⟩)
      | cons top stack =>
        obtain ⟨kept, below, hbelow⟩ : ∃ kept below, stack ++ [[]] = kept :: below :=
          List.exists_cons_of_ne_nil (by simp)
        rw [List.cons_append, hbelow, resolve_dots, if_neg hrest, ← hbelow]
        rfl
    · rw [if_neg hdots, resolve_plain hq ⟨hdot, hdots⟩]
      rfl

/-- The segments in front of others. -/
theorem resolve_append (hq : ∀ seg ∈ pre, isQuery seg = false) (hrest : rest ≠ []) :
    resolve (stack ++ [[]]) (pre ++ rest) =
      (pre.foldlM pushSegment stack).bind fun stack ↦ resolve (stack ++ [[]]) rest := by
  induction pre generalizing stack with
  | nil => rfl
  | cons seg pre ih =>
    obtain ⟨hseg, hpre⟩ := List.forall_mem_cons.mp hq
    rw [List.cons_append, resolve_push hseg (by simp [hrest]), List.foldlM_cons]
    cases pushSegment stack seg with
    | none => rfl
    | some stack => exact ih hpre

/-- The last segment of a path without a query. -/
theorem resolve_last (hq : isQuery seg = false) :
    resolve (stack ++ [[]]) [seg] = (pushSegment stack seg).map fun stack ↦
      [] :: (stack.reverse ++ if IsDots seg then [[]] else []) := by
  rw [pushSegment.eq_def]
  by_cases hdot : seg = ".".toList
  · subst hdot
    rw [if_pos rfl, if_pos (.inl rfl)]
    change resolve (stack ++ [[]]) [['.']] = _
    rw [resolve_dot, if_pos rfl]
    simp
  · rw [if_neg hdot]
    by_cases hdots : seg = "..".toList
    · subst hdots
      rw [if_pos rfl, if_pos (.inr rfl)]
      change resolve (stack ++ [[]]) [['.', '.']] = _
      cases stack with
      | nil => exact resolve_dots_none [] (by rintro head segment tail ⟨⟩)
      | cons top stack =>
        obtain ⟨kept, below, hbelow⟩ : ∃ kept below, stack ++ [[]] = kept :: below :=
          List.exists_cons_of_ne_nil (by simp)
        rw [List.cons_append, hbelow, resolve_dots, if_pos rfl, ← hbelow]
        simp
    · rw [if_neg hdots, if_neg fun h ↦ h.elim hdot hdots, resolve_plain hq ⟨hdot, hdots⟩]
      simp [resolve]

/-! ## The source and the reference -/

variable {more : CString}

theorem pathPart_slash (more : CString) : pathPart ('/' :: more) = '/' :: pathPart more :=
  List.takeWhile_cons_of_pos (by decide)

theorem segments_pathPart (more : CString) :
    segments (pathPart ('/' :: more)) = [] :: segments (pathPart more) := by
  rw [pathPart_slash]
  exact segments_slash List.not_mem_nil _

theorem pathSegments_slash (more : CString) :
    pathSegments ('/' :: more) = segments (pathPart more) := by
  rw [pathSegments, segments_pathPart]
  rfl

theorem segments_pathPart_slash (more : CString) :
    segments (pathPart ('/' :: more)) = [] :: pathSegments ('/' :: more) := by
  rw [segments_pathPart, pathSegments_slash]

theorem segments_pathPart_concat (hsegs : pathSegments ('/' :: more) = pre ++ [last]) :
    segments (pathPart ('/' :: more)) = ([] :: pre) ++ [last] := by
  rw [segments_pathPart_slash, hsegs]
  rfl

/-- There is a last segment. -/
theorem exists_concat_pathSegments (more : CString) :
    ∃ pre last, pathSegments ('/' :: more) = pre ++ [last] := by
  rw [pathSegments_slash]
  rcases List.eq_nil_or_concat' (segments (pathPart more)) with h | ⟨pre, last, h⟩
  · exact absurd h (segments_ne_nil _)
  · exact ⟨pre, last, h⟩

theorem joinSegments_nil_cons (h : segs ≠ []) : joinSegments ([] :: segs) = '/' :: joinSegments segs := by
  unfold joinSegments
  rw [List.intercalate_cons_of_ne_nil h]
  rfl

theorem joinSegments_append_cons (front : CString) :
    joinSegments ((front ++ seg) :: rest) = front ++ joinSegments (seg :: rest) := by
  unfold joinSegments
  by_cases hrest : rest = []
  · subst hrest
    simp
  · rw [List.intercalate_cons_of_ne_nil hrest, List.intercalate_cons_of_ne_nil hrest]
    simp only [List.append_assoc]

theorem flat_concat_nil (stack : List CString) : flat (stack ++ [[]]) = '/' :: flat stack := by
  induction stack with
  | nil => rfl
  | cons seg stack ih =>
    rw [List.cons_append, flat, ih]
    rfl

theorem stackText_concat :
    stackText (pre ++ [last]) stack =
      '/' :: joinSegments (stack.reverse ++ if IsDots last then [[]] else []) := by
  rw [stackText, List.getLast?_concat]

/-- What `remove_dots` makes of a path without a query. -/
theorem removeDots_noQuery (hsegs : pathSegments ('/' :: more) = pre ++ [last])
    (hquery : queryPart ('/' :: more) = []) :
    removeDots true ('/' :: more) = (pre.foldlM pushSegment []).bind fun stack ↦
      (pushSegment stack last).map (stackText (pre ++ [last])) := by
  have hpath : pathPart ('/' :: more) = '/' :: more := by
    have happ := pathPart_append ('/' :: more)
    rwa [hquery, List.append_nil] at happ
  have hseg : segments ('/' :: more) = [] :: (pre ++ [last]) := by
    rw [← hsegs, ← segments_pathPart_slash, hpath]
  have hq : ∀ seg ∈ pre ++ [last], isQuery seg = false := by
    intro seg hmem
    apply @isQuery_of_mem_pathPart ('/' :: more)
    rw [hpath, hseg]
    exact List.mem_cons_of_mem _ hmem
  rw [removeDots_eq, hseg, resolve_plain rfl ⟨by decide, by decide⟩]
  change (resolve ([] ++ [[]]) (pre ++ [last])).map joinSegments = _
  rw [resolve_append (fun seg hmem ↦ hq seg (List.mem_append_left _ hmem)) (by simp)]
  cases pre.foldlM pushSegment [] with
  | none => rfl
  | some stack =>
    rw [Option.bind_some, Option.bind_some, resolve_last (hq last (by simp)), Option.map_map]
    refine Option.map_congr fun kept hkept ↦ ?_
    rw [Function.comp_apply, stackText_concat]
    apply joinSegments_nil_cons
    by_cases hdots : IsDots last
    · simp [hdots]
    · rw [IsDots, not_or] at hdots
      rw [pushSegment.eq_def, if_neg hdots.1, if_neg hdots.2] at hkept
      cases hkept
      simp

/-- In front of a query the last segment stays as it is. -/
theorem removeDots_query (hsegs : pathSegments ('/' :: more) = pre ++ [last])
    (hquery : queryPart ('/' :: more) ≠ []) :
    removeDots true ('/' :: more) = (pre.foldlM pushSegment []).map fun stack ↦
      '/' :: (flat stack ++ (last ++ queryPart ('/' :: more))) := by
  obtain ⟨q, qs, hqs⟩ := List.exists_cons_of_ne_nil hquery
  have hstart : isQueryStart q := isQueryStart_of_queryPart hqs
  have hslash : q ≠ '/' := by
    rintro rfl
    revert hstart
    decide
  have hpart := segments_pathPart_concat hsegs
  have hq : ∀ seg ∈ pre, isQuery seg = false := by
    intro seg hmem
    apply @isQuery_of_mem_pathPart ('/' :: more)
    rw [hpart]
    exact List.mem_append_left _ (List.mem_cons_of_mem _ hmem)
  obtain ⟨seg, rest, hmore, happ⟩ := segments_append_of_eq hpart (queryPart ('/' :: more))
  rw [pathPart_append] at happ
  have hlast : isQuery (last ++ seg) := by
    obtain ⟨seg', rest', -, hcons⟩ := segments_cons hslash qs
    rw [hqs, hcons] at hmore
    cases hmore
    simp only [isQuery, List.any_append, List.any_cons, Bool.or_eq_true]
    exact .inr (.inl (by simpa [isQueryStart] using hstart))
  rw [removeDots_eq, happ, List.cons_append, resolve_plain rfl ⟨by decide, by decide⟩]
  change (resolve ([] ++ [[]]) (pre ++ _)).map joinSegments = _
  rw [resolve_append hq (by simp)]
  cases pre.foldlM pushSegment [] with
  | none => rfl
  | some stack =>
    rw [Option.bind_some, resolve_query _ _ hlast, Option.map_some, Option.map_some,
      joinSegments_reverse _ (by simp), flat_concat_nil, joinSegments_append_cons, ← hmore,
      joinSegments_segments]
    rfl

/-- What the reference makes of a path. -/
theorem removeDotSegments_concat (hsegs : pathSegments path = pre ++ [last]) :
    removeDotSegments path = (pre.foldlM pushSegment []).bind fun stack ↦
      (pushSegment stack last).map fun stack ↦
        stackText (pre ++ [last]) stack ++ queryPart path := by
  rw [removeDotSegments, hsegs, List.foldlM_append]
  change ((pre.foldlM pushSegment []).bind _).map _ = _
  rw [Option.map_bind]
  refine congrArg _ (funext fun stack ↦ ?_)
  rw [Function.comp_apply, List.foldlM_cons]
  cases pushSegment stack last <;> rfl

theorem foldlM_pushSegment_plain (h : ∀ seg ∈ segs, ¬ IsDots seg) :
    segs.foldlM pushSegment stack = some (segs.reverse ++ stack) := by
  induction segs generalizing stack with
  | nil => rfl
  | cons seg segs ih =>
    rw [List.forall_mem_cons] at h
    have hplain := h.1
    rw [IsDots, not_or] at hplain
    rw [List.foldlM_cons, pushSegment.eq_def, if_neg hplain.1, if_neg hplain.2,
      List.reverse_cons, List.append_assoc]
    exact ih h.2

/-- A path without dot segments stays. -/
theorem removeDotSegments_plain {more : CString}
    (h : ∀ seg ∈ pathSegments ('/' :: more), ¬ IsDots seg) :
    removeDotSegments ('/' :: more) = some ('/' :: more) := by
  have htext : stackText (pathSegments ('/' :: more)) (pathSegments ('/' :: more)).reverse =
      pathPart ('/' :: more) := by
    obtain ⟨pre, last, hsegs⟩ := exists_concat_pathSegments more
    have hlast : ¬ IsDots last := h last (hsegs ▸ List.mem_append_right _ List.mem_cons_self)
    rw [hsegs, stackText_concat, if_neg hlast, List.append_nil, List.reverse_reverse, ← hsegs,
      ← joinSegments_nil_cons (by rw [hsegs]; exact List.concat_ne_nil _ _),
      ← segments_pathPart_slash more, joinSegments_segments]
  rw [removeDotSegments, foldlM_pushSegment_plain h, List.append_nil, Option.map_some, htext,
    pathPart_append]

/-- A path climbs above the root exactly when the stack is found empty. -/
theorem foldlM_pushSegment_eq_none_iff :
    segs.foldlM pushSegment stack = none ↔ climbsAbove stack.length segs := by
  induction segs generalizing stack with
  | nil => simp [climbsAbove]
  | cons seg segs ih =>
    rw [List.foldlM_cons, pushSegment.eq_def, climbsAbove.eq_def]
    by_cases hdot : seg = ".".toList
    · simp only [if_pos hdot]
      exact ih
    · by_cases hdots : seg = "..".toList
      · simp only [if_neg hdot, if_pos hdots]
        cases stack with
        | nil => exact iff_of_true rfl rfl
        | cons top stack => exact ih
      · simp only [if_neg hdot, if_neg hdots]
        exact @ih (seg :: stack)

/-- The stack text of segments that end with a dot segment. -/
theorem stackText_dots (h : IsDots last) :
    stackText (pre ++ [last]) stack = '/' :: flat stack := by
  rw [stackText_concat, if_pos h, joinSegments_reverse_nil]

theorem stackText_plain (h : ¬ IsDots last) :
    stackText (pre ++ [last]) (last :: stack) = '/' :: (flat stack ++ last) := by
  rw [stackText_concat, if_neg h, List.append_nil, List.reverse_cons,
    joinSegments_reverse _ (by simp)]
  simp [joinSegments]

theorem length_flat_pushSegment {kept : List CString} (h : pushSegment stack seg = some kept) :
    (flat kept).length ≤ (flat stack).length + if IsDots seg then 0 else seg.length + 1 := by
  rw [pushSegment.eq_def] at h
  by_cases hdot : seg = ".".toList
  · rw [if_pos hdot] at h
    cases h
    exact Nat.le_add_right _ _
  · rw [if_neg hdot] at h
    by_cases hdots : seg = "..".toList
    · rw [if_pos hdots] at h
      cases stack with
      | nil => cases h
      | cons top stack =>
        cases h
        simp only [flat, List.length_append]
        omega
    · rw [if_neg hdots] at h
      cases h
      rw [if_neg fun h ↦ h.elim hdot hdots]
      simp [flat]

/-- The source agrees with the reference except for a dot segment in front of a query, where the
segments before it do not climb above the root. -/
theorem removeDots_eq_reference_iff (hsegs : pathSegments ('/' :: more) = pre ++ [last]) :
    removeDots true ('/' :: more) = removeDotSegments ('/' :: more) ↔
      (IsDots last → queryPart ('/' :: more) = [] ∨ climbsAbove 0 pre) := by
  rw [removeDotSegments_concat hsegs, ← @List.length_nil CString,
    ← foldlM_pushSegment_eq_none_iff]
  by_cases hquery : queryPart ('/' :: more) = []
  · refine iff_of_true ?_ fun _ ↦ .inl hquery
    rw [removeDots_noQuery hsegs hquery, hquery]
    simp only [List.append_nil]
  rw [removeDots_query hsegs hquery]
  cases pre.foldlM pushSegment [] with
  | none => exact iff_of_true rfl fun _ ↦ .inr rfl
  | some stack =>
    rw [Option.bind_some, Option.map_some]
    simp only [hquery, reduceCtorEq, or_false, imp_false]
    by_cases hdots : IsDots last
    · refine iff_of_false ?_ (not_not.mpr hdots)
      intro heq
      cases hpush : pushSegment stack last with
      | none =>
        rw [hpush] at heq
        cases heq
      | some kept =>
        have hlen := length_flat_pushSegment hpush
        rw [if_pos hdots] at hlen
        rw [hpush, Option.map_some, stackText_dots hdots] at heq
        have htext := congrArg List.length (Option.some.inj heq)
        have hpos : 0 < last.length := by
          rcases hdots with rfl | rfl <;> decide
        simp only [List.length_cons, List.length_append] at htext
        omega
    · refine iff_of_true ?_ hdots
      have hpush : pushSegment stack last = some (last :: stack) := by
        rw [IsDots, not_or] at hdots
        rw [pushSegment.eq_def, if_neg hdots.1, if_neg hdots.2]
      rw [hpush, Option.map_some, stackText_plain hdots]
      simp only [List.cons_append, List.append_assoc]

/-! ## What the reference leaves -/

theorem not_isDots_of_mem {kept : List CString} (h : segs.foldlM pushSegment stack = some kept) :
    ∀ seg ∈ kept, seg ∈ stack ∨ seg ∈ segs ∧ ¬ IsDots seg := by
  induction segs generalizing stack with
  | nil =>
    cases h
    exact fun seg hseg ↦ .inl hseg
  | cons first segs ih =>
    rw [List.foldlM_cons] at h
    obtain ⟨next, hnext, hrest⟩ := Option.bind_eq_some_iff.mp h
    intro seg hseg
    rcases ih hrest seg hseg with hmem | ⟨hmem, hdots⟩
    · rw [pushSegment.eq_def] at hnext
      by_cases hdot : first = ".".toList
      · rw [if_pos hdot] at hnext
        cases hnext
        exact .inl hmem
      · rw [if_neg hdot] at hnext
        by_cases hdots : first = "..".toList
        · rw [if_pos hdots] at hnext
          cases stack with
          | nil => cases hnext
          | cons top stack =>
            cases hnext
            exact .inl (List.mem_cons_of_mem _ hmem)
        · rw [if_neg hdots] at hnext
          cases hnext
          rcases List.mem_cons.mp hmem with rfl | hmem
          · exact .inr ⟨List.mem_cons_self, fun h ↦ h.elim hdot hdots⟩
          · exact .inl hmem
    · exact .inr ⟨List.mem_cons_of_mem _ hmem, hdots⟩

/-- The segments of a path are those its text is joined from, and its query stays. -/
theorem pathSegments_joinSegments {kept : List CString} (hkept : kept ≠ [])
    (hslash : ∀ seg ∈ kept, '/' ∉ seg) (hquery : ∀ seg ∈ kept, isQuery seg = false)
    (path : CString) : pathSegments ('/' :: joinSegments kept ++ queryPart path) = kept ∧
      queryPart ('/' :: joinSegments kept ++ queryPart path) = queryPart path := by
  have hall : ∀ c ∈ '/' :: joinSegments kept, (!isQueryStart c) = true := by
    intro c hc
    rcases List.mem_cons.mp hc with rfl | hc
    · decide
    · rcases mem_of_mem_joinSegments hc with rfl | ⟨seg, hseg, hc⟩
      · decide
      · have hnot := List.any_eq_false.mp (hquery seg hseg) c hc
        simpa [isQueryStart] using hnot
  have hpart : pathPart ('/' :: joinSegments kept ++ queryPart path) = '/' :: joinSegments kept := by
    rw [pathPart, List.takeWhile_append_of_pos hall]
    change _ ++ pathPart (queryPart path) = _
    rw [pathPart_queryPart, List.append_nil]
  have hsegs : segments ('/' :: joinSegments kept) = [] :: segments (joinSegments kept) :=
    segments_slash List.not_mem_nil _
  constructor
  · rw [pathSegments, hpart, hsegs, segments_joinSegments hslash hkept]
    rfl
  · have happ := pathPart_append ('/' :: joinSegments kept ++ queryPart path)
    rw [hpart] at happ
    exact List.append_cancel_left happ

theorem length_flat (stack : List CString) :
    (flat stack).length = (stack.map (·.length + 1)).sum := by
  induction stack with
  | nil => rfl
  | cons seg stack ih =>
    rw [List.map_cons, List.sum_cons, ← ih]
    simp only [flat, List.length_append, List.length_singleton]
    omega

theorem length_joinSegments_concat (pre : List CString) (last : CString) :
    (joinSegments (pre ++ [last])).length = (pre.map (·.length + 1)).sum + last.length := by
  rw [← List.reverse_reverse pre, joinSegments_reverse _ (by simp), List.reverse_reverse,
    List.length_append, length_flat, List.map_reverse, List.sum_reverse]
  simp [joinSegments]

theorem length_flat_foldlM {kept : List CString} (h : segs.foldlM pushSegment stack = some kept) :
    (flat kept).length ≤ (flat stack).length + (segs.map (·.length + 1)).sum := by
  induction segs generalizing stack with
  | nil =>
    cases h
    exact Nat.le_add_right _ _
  | cons first segs ih =>
    rw [List.foldlM_cons] at h
    obtain ⟨next, hnext, hrest⟩ := Option.bind_eq_some_iff.mp h
    have hfirst := length_flat_pushSegment hnext
    have hsegs := ih hrest
    rw [List.map_cons, List.sum_cons]
    split at hfirst <;> omega

theorem length_slash_eq (hsegs : pathSegments ('/' :: more) = pre ++ [last]) :
    ('/' :: more).length = (pre.map (·.length + 1)).sum + last.length + 1 +
      (queryPart ('/' :: more)).length := by
  have hlen := congrArg List.length (pathPart_append ('/' :: more))
  rw [List.length_append, ← joinSegments_segments (pathPart _), segments_pathPart_concat hsegs,
    length_joinSegments_concat] at hlen
  simp only [List.map_cons, List.sum_cons, List.length_nil] at hlen
  omega

/-- What stands on the stack is segments of the path. -/
theorem of_mem_stack {kept : List CString} (hsegs : pathSegments ('/' :: more) = segs)
    (hkept : segs.foldlM pushSegment [] = some kept) (hseg : seg ∈ kept) :
    ¬ IsDots seg ∧ '/' ∉ seg ∧ isQuery seg = false ∧ seg ⊆ '/' :: more := by
  rcases not_isDots_of_mem hkept seg hseg with hnil | ⟨hseg, hdots⟩
  · cases hnil
  · have hsegment : seg ∈ segments (pathPart ('/' :: more)) := by
      rw [segments_pathPart_slash, hsegs]
      exact List.mem_cons_of_mem _ hseg
    refine ⟨hdots, noSlash_segments _ seg hsegment, isQuery_of_mem_pathPart hsegment, ?_⟩
    intro c hc
    have hpart := mem_joinSegments hsegment hc
    rw [joinSegments_segments] at hpart
    exact (List.takeWhile_sublist _).subset hpart

/-- The text of the stack is no longer than that of the segments; a dot segment at the end leaves a
slash. -/
theorem length_joinSegments_stack {kept : List CString}
    (hstack : pre.foldlM pushSegment [] = some stack) (hkept : pushSegment stack last = some kept) :
    kept.reverse ++ (if IsDots last then [[]] else []) ≠ [] ∧
      (joinSegments (kept.reverse ++ if IsDots last then [[]] else [])).length ≤
        (pre.map (·.length + 1)).sum + last.length := by
  have hlen := length_flat_pushSegment hkept
  have hpre := length_flat_foldlM hstack
  simp only [flat, List.length_nil] at hpre
  by_cases hdots : IsDots last
  · rw [if_pos hdots] at hlen ⊢
    rw [joinSegments_reverse_nil]
    constructor
    · simp
    · omega
  · have hpush : kept = last :: stack := by
      rw [IsDots, not_or] at hdots
      rw [pushSegment.eq_def, if_neg hdots.1, if_neg hdots.2] at hkept
      exact (Option.some.inj hkept).symm
    rw [if_neg hdots, List.append_nil, hpush, List.reverse_cons, length_joinSegments_concat,
      List.map_reverse, List.sum_reverse, ← length_flat]
    constructor
    · simp
    · omega

/-- The reference leaves no dot segment, and makes the path no longer. -/
theorem removeDotSegments_some {t : CString} (h : removeDotSegments ('/' :: more) = some t) :
    (∀ seg ∈ pathSegments t, ¬ IsDots seg) ∧ queryPart t = queryPart ('/' :: more) ∧
      t.length ≤ ('/' :: more).length ∧ t ⊆ '/' :: more := by
  obtain ⟨pre, last, hsegs⟩ := exists_concat_pathSegments more
  rw [removeDotSegments_concat hsegs] at h
  obtain ⟨stack, hstack, h⟩ := Option.bind_eq_some_iff.mp h
  obtain ⟨kept, hkept, rfl⟩ := Option.map_eq_some_iff.mp h
  have hall : (pre ++ [last]).foldlM pushSegment [] = some kept := by
    rw [List.foldlM_append, hstack]
    change (pushSegment stack last).bind _ = _
    rw [hkept]
    rfl
  have hmem : ∀ seg ∈ kept.reverse ++ (if IsDots last then [[]] else []),
      ¬ IsDots seg ∧ '/' ∉ seg ∧ isQuery seg = false ∧ seg ⊆ '/' :: more := by
    intro seg hseg
    rcases List.mem_append.mp hseg with hseg | hseg
    · exact of_mem_stack hsegs hall (List.mem_reverse.mp hseg)
    · have hnil : seg = [] := by
        split at hseg
        · exact List.mem_singleton.mp hseg
        · cases hseg
      subst hnil
      exact ⟨by decide, List.not_mem_nil, rfl, List.nil_subset _⟩
  obtain ⟨hne, hlength⟩ := length_joinSegments_stack hstack hkept
  obtain ⟨hsegments, hquery⟩ := pathSegments_joinSegments hne (fun seg hseg ↦ (hmem seg hseg).2.1)
    (fun seg hseg ↦ (hmem seg hseg).2.2.1) ('/' :: more)
  rw [stackText_concat]
  refine ⟨?_, hquery, ?_, ?_⟩
  · rw [hsegments]
    exact fun seg hseg ↦ (hmem seg hseg).1
  · rw [length_slash_eq hsegs, List.length_append, List.length_cons]
    omega
  · intro c hc
    rcases List.mem_append.mp hc with hc | hc
    · rcases List.mem_cons.mp hc with rfl | hc
      · exact List.mem_cons_self
      · rcases mem_of_mem_joinSegments hc with rfl | ⟨seg, hseg, hc⟩
        · exact List.mem_cons_self
        · exact (hmem seg hseg).2.2.2 hc
    · exact (List.dropWhile_suffix _).subset hc

/-! ## `remove_dots` -/

/-- `remove_dots` on the first `size` characters of a path does what the reference does: it fails
where the reference does, and else leaves the text of the reference in the buffer. -/
def RemovesDots (mallocOk : Bool) (path : CString) (size : Nat) : Prop :=
  EndsAs (remove_dots mallocOk (path ++ ['\x00']) size) (path.length + 1)
      (removeDotSegments (path.take size)) ∧
    (removeDotSegments (path.take size) = none ↔
      climbsAbove 0 (pathSegments (path.take size))) ∧
    ∀ t, removeDotSegments (path.take size) = some t →
      (∀ seg ∈ pathSegments t, ¬ IsDots seg) ∧ queryPart t = queryPart (path.take size) ∧
        t.length ≤ size

theorem inPlace_start {size : Nat} (hsize : size ≤ path.length) :
    InPlace size (path ++ ['\x00']) 0 0 [] (path.take size) := by
  refine ⟨rfl, ?_, Nat.le_refl 0, ?_⟩
  · rw [List.drop_zero, Nat.sub_zero, List.take_append_of_le_length hsize]
  · rw [List.length_append, List.length_singleton]
    exact Nat.lt_succ_of_le hsize

/-- On the buffer `remove_dots` does what it does on texts. -/
theorem remove_dots_endsAs {size : Nat} (hsize : size ≤ path.length) (hpos : 0 < size) :
    EndsAs (remove_dots true (path ++ ['\x00']) size) (path.length + 1)
      (removeDots true (path.take size)) := by
  have hlength : (path ++ ['\x00']).length = path.length + 1 := by simp
  rw [remove_dots, if_pos rfl, if_pos hpos, ← hlength]
  exact inPlaceLoop_endsAs (inPlace_start hsize) (.inl ⟨rfl, rfl⟩)
    ⟨List.pairwise_singleton _ _, Nat.le_refl 0, Nat.zero_le _⟩

/-- A text without a NUL that the buffer holds is the only one. -/
theorem Holds.unique {buf t t' : CString} {n n' : Nat} (h : Holds buf t n) (h' : Holds buf t' n')
    (ht : '\x00' ∉ t) (ht' : '\x00' ∉ t') : t = t' := by
  obtain ⟨⟨r, hr⟩, -⟩ := h
  obtain ⟨⟨r', hr'⟩, -⟩ := h'
  rw [List.append_assoc, List.singleton_append] at hr hr'
  have htake := congrArg (List.takeWhile (· ≠ '\x00')) (hr.trans hr'.symm)
  rw [List.takeWhile_append_of_pos, List.takeWhile_append_of_pos] at htake
  · simpa using htake
  · intro c hc
    simpa using fun heq : c = '\x00' ↦ ht' (heq ▸ hc)
  · intro c hc
    simpa using fun heq : c = '\x00' ↦ ht (heq ▸ hc)

theorem removeDots_subset {t : CString} (h : removeDots true ('/' :: more) = some t) :
    t ⊆ '/' :: more := by
  rw [removeDots_eq] at h
  obtain ⟨out, hout, rfl⟩ := Option.map_eq_some_iff.mp h
  have hall : ∀ seg ∈ out, seg ⊆ '/' :: more := by
    refine forall_of_resolve (P := (· ⊆ '/' :: more)) hout (List.nil_subset _) nofun ?_
    intro seg hseg c hc
    rw [← joinSegments_segments ('/' :: more)]
    exact mem_joinSegments hseg hc
  intro c hc
  rcases mem_of_mem_joinSegments hc with rfl | ⟨seg, hseg, hc⟩
  · exact List.mem_cons_self
  · exact hall seg hseg hc

/-- The outcomes of the source and of the reference are told apart by the buffer. -/
theorem endsAs_iff {r : Option (Except Int CString)} {n : Nat} (hnul : '\x00' ∉ '/' :: more)
    (h : EndsAs r n (removeDots true ('/' :: more))) :
    EndsAs r n (removeDotSegments ('/' :: more)) ↔
      removeDots true ('/' :: more) = removeDotSegments ('/' :: more) := by
  refine ⟨fun href ↦ ?_, fun heq ↦ heq ▸ h⟩
  cases hsrc : removeDots true ('/' :: more) with
  | none =>
    rw [hsrc] at h
    cases hres : removeDotSegments ('/' :: more) with
    | none => rfl
    | some t =>
      rw [hres] at href
      obtain ⟨buf, hbuf, -⟩ := href
      cases h.symm.trans hbuf
  | some t =>
    rw [hsrc] at h
    obtain ⟨buf, hbuf, hholds⟩ := h
    cases hres : removeDotSegments ('/' :: more) with
    | none =>
      rw [hres] at href
      cases hbuf.symm.trans href
    | some t' =>
      rw [hres] at href
      obtain ⟨buf', hbuf', hholds'⟩ := href
      cases hbuf.symm.trans hbuf'
      rw [hholds.unique hholds' (fun hmem ↦ hnul (removeDots_subset hsrc hmem))
        fun hmem ↦ hnul ((removeDotSegments_some hres).2.2.2 hmem)]

/-- For every path that begins with a slash and every size, `remove_dots` does what the reference
does exactly when memory is had for a segment and no dot segment ends the path in front of a query
or a fragment, unless the path climbs above the root before that segment. -/
theorem remove_dots_removes_iff (mallocOk : Bool) {path : CString} {size : Nat}
    (hslash : path.head? = some '/') (hnul : '\x00' ∉ path) (hsize : size ≤ path.length) :
    RemovesDots mallocOk path size ↔ mallocOk ∧ 0 < size ∧
      (EndsInDots (pathSegments (path.take size)) → queryPart (path.take size) = [] ∨
        climbsAbove 0 (pathSegments (path.take size)).dropLast) := by
  cases mallocOk with
  | false =>
    refine iff_of_false (fun h ↦ ?_) (by simp)
    have hends := h.1
    cases hres : removeDotSegments (path.take size) with
    | none =>
      rw [hres] at hends
      exact absurd (Except.error.inj (Option.some.inj hends)) (by decide)
    | some t =>
      rw [hres] at hends
      obtain ⟨buf, hbuf, -⟩ := hends
      cases hbuf
  | true =>
    rcases Nat.eq_zero_or_pos size with rfl | hpos
    · refine iff_of_false (fun h ↦ ?_) (by simp)
      have hends := h.1
      cases hres : removeDotSegments (path.take 0) with
      | none =>
        rw [hres] at hends
        cases hends
      | some t =>
        rw [hres] at hends
        obtain ⟨buf, hbuf, -⟩ := hends
        cases hbuf
    · obtain ⟨more, hmore⟩ : ∃ more, path.take size = '/' :: more := by
        cases path with
        | nil => cases hslash
        | cons c path =>
          cases hslash
          exact ⟨path.take (size - 1), by rw [List.take_cons hpos]⟩
      have hends := remove_dots_endsAs hsize hpos
      have hnul' : '\x00' ∉ '/' :: more := fun hmem ↦ hnul (List.mem_of_mem_take (hmore ▸ hmem))
      have hlength : ('/' :: more).length = size := by
        rw [← hmore, List.length_take_of_le hsize]
      obtain ⟨pre, last, hsegs⟩ := exists_concat_pathSegments more
      rw [RemovesDots, hmore]
      rw [hmore] at hends
      rw [endsAs_iff hnul' hends, removeDots_eq_reference_iff hsegs, hsegs, List.dropLast_concat]
      have hlast : EndsInDots (pre ++ [last]) ↔ IsDots last := by
        rw [EndsInDots, List.getLast?_concat]
        simp
      have hnone : removeDotSegments ('/' :: more) = none ↔ climbsAbove 0 (pre ++ [last]) := by
        rw [removeDotSegments, Option.map_eq_none_iff, foldlM_pushSegment_eq_none_iff, hsegs]
        rfl
      rw [hlast]
      constructor
      · rintro ⟨h, -, -⟩
        exact ⟨rfl, hpos, h⟩
      · rintro ⟨-, -, h⟩
        refine ⟨h, hnone, fun t ht ↦ ?_⟩
        obtain ⟨hdots, hquery, hle, -⟩ := removeDotSegments_some ht
        exact ⟨hdots, hquery, hlength ▸ hle⟩

theorem remove_dots_removes_example : RemovesDots true "/a/./b/../c".toList 11 :=
  (remove_dots_removes_iff true (by decide) (by decide) (by decide)).mpr
    ⟨rfl, by decide, fun _ ↦ .inl (by decide +kernel)⟩

theorem not_removesDots {size : Nat} {t t' : CString}
    (hsrc : removeDots true (path.take size) = some t)
    (href : removeDotSegments (path.take size) = some t') (hsize : size ≤ path.length)
    (hpos : 0 < size) (ht : '\x00' ∉ t) (ht' : '\x00' ∉ t') (hne : t ≠ t') :
    ¬ RemovesDots true path size := by
  rintro ⟨hspec, -⟩
  have hends := remove_dots_endsAs hsize hpos
  rw [hsrc] at hends
  rw [href] at hspec
  obtain ⟨buf, hbuf, hholds⟩ := hends
  obtain ⟨buf', hbuf', hholds'⟩ := hspec
  cases hbuf.symm.trans hbuf'
  exact hne (hholds.unique hholds' ht ht')

/-- A dot segment in front of a query stays. -/
theorem remove_dots_query : ¬ RemovesDots true "/a/..?x".toList 7 := by
  have hsrc : removeDots true ("/a/..?x".toList.take 7) = some "/a/..?x".toList := by
    decide +kernel
  have href : removeDotSegments ("/a/..?x".toList.take 7) = some "/?x".toList := by
    decide +kernel
  exact not_removesDots hsrc href (by decide) (by decide) (by decide) (by decide) (by decide)

end Upnp.Web
