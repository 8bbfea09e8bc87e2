import Upnp.Uri.RunsOff

/-!
# The list of callback URLs

`createURL_list` of `gena_server.c` reads the value of `CALLBACK` twice: the first
pass counts the URLs in it, and the second one stores those of a copy in an array of
that many elements.
-/

namespace Upnp.Gena

open Upnp.Lib Upnp.Uri

/-! ## The two passes -/

/-- `URL_list`, with the elements of `parsedURLs` that are filled. -/
structure URL_list where
  size : Nat
  URLs : CString
  parsedURLs : List URI

/-- What the system answers while the list is made: `malloc` for the host name of the URL that is
behind an offset, in either pass, `malloc` for the two parts of the list, and `gethostbyname`. -/
structure ListEnv where
  countOk : Nat → Bool
  URLsOk : Bool
  parsedOk : Bool
  storeOk : Nat → Bool
  gethostbyname : CString → Option Nat

/-- A `<` with something behind it. -/
def opensGroup (URLS : CString) (i : Nat) : Bool := URLS[i]? = some '<' && i + 1 < URLS.length

/-- The call of `parse_uri` for the group at the offset `i`. -/
def parseGroup (mallocOk : Bool) (gethostbyname : CString → Option Nat) (memory URLS : CString)
    (i : Nat) : Option (Except Int URI) :=
  parse_uri ⟨mallocOk, gethostbyname⟩ memory (i + 1) (URLS.length - i + 1)

/-- The first pass over the offsets that are left; `none` is a look behind the end of the value. -/
def countLoop (env : ListEnv) (URLS : CString) : List Nat → Nat → Option (Except Int Nat)
  | [], URLcount => some (.ok URLcount)
  | i :: is, URLcount =>
    if opensGroup URLS i then
      match parseGroup (env.countOk i) env.gethostbyname URLS URLS i with
      | none => none
      | some (.ok temp) =>
        countLoop env URLS is (if temp.hostport.text.size ≠ 0 then URLcount + 1 else URLcount)
      | some (.error return_code) =>
        if return_code = Uri.UPNP_E_OUTOF_MEMORY then some (.error return_code)
        else countLoop env URLS is URLcount
    else countLoop env URLS is URLcount

/-- The second pass, which stores behind the elements that are filled.  `parse_uri` stores what it
finds before it knows whether it succeeds; `none` is a look behind the terminator of the copy, or
an element at or past `capacity`. -/
def storeLoop (env : ListEnv) (URLS : CString) (capacity : Nat) :
    List Nat → List URI → Option (Except Int (List URI))
  | [], parsedURLs => some (.ok parsedURLs)
  | i :: is, parsedURLs =>
    if opensGroup URLS i then
      if parsedURLs.length < capacity then
        match parseGroup (env.storeOk i) env.gethostbyname (URLS ++ ['\x00']) URLS i with
        | none => none
        | some (.ok temp) =>
          storeLoop env URLS capacity is
            (if temp.hostport.text.size ≠ 0 then parsedURLs ++ [temp] else parsedURLs)
        | some (.error return_code) =>
          if return_code = Uri.UPNP_E_OUTOF_MEMORY then some (.error return_code)
          else storeLoop env URLS capacity is parsedURLs
      else none
    else storeLoop env URLS capacity is parsedURLs

/-- The first pass. -/
def countURLs (env : ListEnv) (URLS : CString) : Option (Except Int Nat) :=
  countLoop env URLS (List.range URLS.length) 0

/-- `createURL_list`; the number that it returns is the `size`. -/
def createURL_list (env : ListEnv) (URLS : CString) : Option (Except Int URL_list) := do
  let count ← countURLs env URLS
  match count with
  | .error return_code => some (.error return_code)
  | .ok URLcount =>
    if env.URLsOk && env.parsedOk then
      let stored ← storeLoop env URLS URLcount (List.range URLS.length) []
      match stored with
      | .error return_code => some (.error return_code)
      | .ok parsedURLs => some (.ok ⟨parsedURLs.length, URLS ++ ['\x00'], parsedURLs⟩)
    else some (.error Uri.UPNP_E_OUTOF_MEMORY)

/-! ## The groups -/

/-- The offsets of the groups, in order. -/
def groups (URLS : CString) : List Nat := (List.range URLS.length).filter (opensGroup URLS)

/-- The URL of a group that counts: it can be parsed, and it has a host. -/
def urlAt (gethostbyname : CString → Option Nat) (URLS : CString) (i : Nat) : Option URI :=
  match parseGroup true gethostbyname URLS URLS i with
  | some (.ok u) => if u.hostport.text.size ≠ 0 then some u else none
  | _ => none

variable {env : ListEnv} {URLS : CString} {is : List Nat} {i n capacity : Nat}

theorem countLoop_filter :
    countLoop env URLS is n = countLoop env URLS (is.filter (opensGroup URLS)) n := by
  induction is generalizing n with
  | nil => rfl
  | cons i is ih =>
    by_cases hi : opensGroup URLS i
    · rw [List.filter_cons_of_pos hi, countLoop, countLoop, if_pos hi, if_pos hi]
      simp only [ih]
    · rw [List.filter_cons_of_neg hi, countLoop, if_neg hi, ih]

theorem storeLoop_filter {parsedURLs : List URI} :
    storeLoop env URLS capacity is parsedURLs =
      storeLoop env URLS capacity (is.filter (opensGroup URLS)) parsedURLs := by
  induction is generalizing parsedURLs with
  | nil => rfl
  | cons i is ih =>
    by_cases hi : opensGroup URLS i
    · rw [List.filter_cons_of_pos hi, storeLoop, storeLoop, if_pos hi, if_pos hi]
      simp only [ih]
    · rw [List.filter_cons_of_neg hi, storeLoop, if_neg hi, ih]

/-! ## One group -/

variable {lookup : CString → Option Nat}

/-- A group does not run off the end of the value. -/
def Stops (lookup : CString → Option Nat) (URLS : CString) (i : Nat) : Prop :=
  ¬ groupRunsOff lookup (URLS.drop (i + 1))

theorem parseGroup_eq_none_iff (hi : opensGroup URLS i) :
    parseGroup true lookup URLS URLS i = none ↔ groupRunsOff lookup (URLS.drop (i + 1)) := by
  obtain ⟨-, hlt⟩ := Bool.and_eq_true_iff.mp hi
  have hlt := of_decide_eq_true hlt
  refine parse_uri_eq_none_iff ?_
  rw [List.length_drop]
  omega

/-- Where memory does not run out, a group that stops is parsed the same from the value and from
the copy. -/
theorem parseGroup_cases (mallocOk : Bool) (more : CString) (hi : opensGroup URLS i)
    (hstops : Stops lookup URLS i) :
    mallocOk = false ∧
        parseGroup mallocOk lookup (URLS ++ more) URLS i = some (.error Uri.UPNP_E_OUTOF_MEMORY) ∨
      ∃ r, parseGroup true lookup URLS URLS i = some r ∧ r ≠ .error Uri.UPNP_E_OUTOF_MEMORY ∧
        parseGroup mallocOk lookup (URLS ++ more) URLS i = some r := by
  obtain ⟨-, hlt⟩ := Bool.and_eq_true_iff.mp hi
  obtain ⟨r, hr⟩ := Option.ne_none_iff_exists'.mp (mt (parseGroup_eq_none_iff hi).mp hstops)
  have hcopy := parse_uri_append more (of_decide_eq_true hlt).le hr
  have hne : r ≠ .error Uri.UPNP_E_OUTOF_MEMORY := by
    rintro rfl
    exact parse_uri_ne_oom _ hr
  cases mallocOk with
  | true => exact .inr ⟨r, hr, hne, hcopy⟩
  | false =>
    rcases parse_uri_malloc false (URLS ++ more) with h | h
    · exact .inl ⟨rfl, h⟩
    · exact .inr ⟨r, hr, hne, h.trans hcopy⟩

theorem countLoop_error (hi : opensGroup URLS i)
    (h : parseGroup (env.countOk i) env.gethostbyname URLS URLS i =
      some (.error Uri.UPNP_E_OUTOF_MEMORY)) :
    countLoop env URLS (i :: is) n = some (.error Uri.UPNP_E_OUTOF_MEMORY) := by
  rw [countLoop, if_pos hi, h]
  exact if_pos rfl

/-- The first pass counts the URL of a group, if it has one. -/
theorem countLoop_some {r : Except Int URI} (hi : opensGroup URLS i)
    (htrue : parseGroup true env.gethostbyname URLS URLS i = some r)
    (hne : r ≠ .error Uri.UPNP_E_OUTOF_MEMORY)
    (h : parseGroup (env.countOk i) env.gethostbyname URLS URLS i = some r) :
    countLoop env URLS (i :: is) n =
      countLoop env URLS is (n + (urlAt env.gethostbyname URLS i).toList.length) := by
  rw [countLoop, if_pos hi, h, urlAt, htrue]
  cases r with
  | error code => exact if_neg fun hcode ↦ hne (congrArg _ hcode)
  | ok u =>
    dsimp only
    split <;> rfl

theorem storeLoop_error {parsedURLs : List URI} (hi : opensGroup URLS i)
    (hlt : parsedURLs.length < capacity)
    (h : parseGroup (env.storeOk i) env.gethostbyname (URLS ++ ['\x00']) URLS i =
      some (.error Uri.UPNP_E_OUTOF_MEMORY)) :
    storeLoop env URLS capacity (i :: is) parsedURLs = some (.error Uri.UPNP_E_OUTOF_MEMORY) := by
  rw [storeLoop, if_pos hi, if_pos hlt, h]
  exact if_pos rfl

/-- The second pass stores the URL of a group, if it has one. -/
theorem storeLoop_some {r : Except Int URI} {parsedURLs : List URI} (hi : opensGroup URLS i)
    (hlt : parsedURLs.length < capacity)
    (htrue : parseGroup true env.gethostbyname URLS URLS i = some r)
    (hne : r ≠ .error Uri.UPNP_E_OUTOF_MEMORY)
    (h : parseGroup (env.storeOk i) env.gethostbyname (URLS ++ ['\x00']) URLS i = some r) :
    storeLoop env URLS capacity (i :: is) parsedURLs =
      storeLoop env URLS capacity is
        (parsedURLs ++ (urlAt env.gethostbyname URLS i).toList) := by
  rw [storeLoop, if_pos hi, if_pos hlt, h, urlAt, htrue]
  cases r with
  | error code =>
    refine (if_neg fun hcode ↦ hne (congrArg _ hcode)).trans ?_
    rw [Option.toList_none, List.append_nil]
  | ok u =>
    dsimp only
    split
    · rfl
    · rw [Option.toList_none, List.append_nil]

theorem filterMap_cons_toList {f : Nat → Option URI} :
    (i :: is).filterMap f = (f i).toList ++ is.filterMap f := by
  rw [List.filterMap_cons]
  cases f i <;> rfl

/-! ## The runs of the passes -/

theorem countLoop_run (hgroup : ∀ i ∈ is, opensGroup URLS i)
    (hstops : ∀ i ∈ is, Stops env.gethostbyname URLS i) :
    (∃ i ∈ is, env.countOk i = false) ∧
        countLoop env URLS is n = some (.error Uri.UPNP_E_OUTOF_MEMORY) ∨
      countLoop env URLS is n =
        some (.ok (n + (is.filterMap (urlAt env.gethostbyname URLS)).length)) := by
  induction is generalizing n with
  | nil => exact .inr rfl
  | cons i is ih =>
    obtain ⟨hi, hgroup⟩ := List.forall_mem_cons.mp hgroup
    obtain ⟨hstop, hstops⟩ := List.forall_mem_cons.mp hstops
    have hcases := parseGroup_cases (env.countOk i) [] hi hstop
    rw [List.append_nil] at hcases
    rcases hcases with ⟨hmalloc, h⟩ | ⟨r, htrue, hne, h⟩
    · exact .inl ⟨⟨i, List.mem_cons_self, hmalloc⟩, countLoop_error hi h⟩
    · rw [countLoop_some hi htrue hne h, filterMap_cons_toList, List.length_append,
        ← Nat.add_assoc]
      refine (ih hgroup hstops).imp_left ?_
      rintro ⟨⟨j, hj, hmalloc⟩, h⟩
      exact ⟨⟨j, List.mem_cons_of_mem _ hj, hmalloc⟩, h⟩

/-- When the last group counts, there is room for every group before it. -/
theorem storeLoop_run {parsedURLs : List URI} (hgroup : ∀ i ∈ is, opensGroup URLS i)
    (hstops : ∀ i ∈ is, Stops env.gethostbyname URLS i)
    (hlast : ∀ i ∈ is.getLast?, (urlAt env.gethostbyname URLS i).isSome)
    (hcapacity : parsedURLs.length + (is.filterMap (urlAt env.gethostbyname URLS)).length ≤
      capacity) :
    storeLoop env URLS capacity is parsedURLs = some (.error Uri.UPNP_E_OUTOF_MEMORY) ∨
      storeLoop env URLS capacity is parsedURLs =
        some (.ok (parsedURLs ++ is.filterMap (urlAt env.gethostbyname URLS))) := by
  induction is generalizing parsedURLs with
  | nil => exact .inr (by rw [storeLoop, List.filterMap_nil, List.append_nil])
  | cons i is ih =>
    have hlt : parsedURLs.length < capacity := by
      obtain ⟨u, hu⟩ := Option.isSome_iff_exists.mp
        (hlast _ (List.getLast?_eq_some_getLast (List.cons_ne_nil i is)))
      have hmem : u ∈ (i :: is).filterMap (urlAt env.gethostbyname URLS) :=
        List.mem_filterMap.mpr ⟨_, List.getLast_mem _, hu⟩
      have := List.length_pos_of_mem hmem
      omega
    have hlast : ∀ j ∈ is.getLast?, (urlAt env.gethostbyname URLS j).isSome := by
      intro j hj
      refine hlast j ?_
      rw [Option.mem_def] at hj ⊢
      rw [List.getLast?_cons, hj]
      rfl
    obtain ⟨hi, hgroup⟩ := List.forall_mem_cons.mp hgroup
    obtain ⟨hstop, hstops⟩ := List.forall_mem_cons.mp hstops
    rcases parseGroup_cases (env.storeOk i) ['\x00'] hi hstop with ⟨-, h⟩ | ⟨r, htrue, hne, h⟩
    · exact .inl (storeLoop_error hi hlt h)
    · rw [storeLoop_some hi hlt htrue hne h, filterMap_cons_toList, ← List.append_assoc]
      refine ih hgroup hstops hlast ?_
      rw [filterMap_cons_toList, List.length_append] at hcapacity
      rw [List.length_append]
      omega

/-! ## Running off, and no room -/

/-- An environment in which memory does not run out. -/
def ListEnv.plenty (lookup : CString → Option Nat) : ListEnv :=
  ⟨fun _ ↦ true, true, true, fun _ ↦ true, lookup⟩

theorem stops_of_countLoop (hgroup : ∀ i ∈ is, opensGroup URLS i)
    (h : (countLoop (.plenty lookup) URLS is n).isSome) : ∀ i ∈ is, Stops lookup URLS i := by
  induction is generalizing n with
  | nil => exact nofun
  | cons i is ih =>
    obtain ⟨hi, hgroup⟩ := List.forall_mem_cons.mp hgroup
    cases hparse : parseGroup true lookup URLS URLS i with
    | none =>
      have hnone : parseGroup ((ListEnv.plenty lookup).countOk i)
          (ListEnv.plenty lookup).gethostbyname URLS URLS i = none := hparse
      rw [countLoop, if_pos hi, hnone] at h
      cases h
    | some r =>
      have hne : r ≠ .error Uri.UPNP_E_OUTOF_MEMORY := by
        rintro rfl
        exact parse_uri_ne_oom _ hparse
      rw [@countLoop_some (.plenty lookup) _ _ _ _ _ hi hparse hne hparse] at h
      refine List.forall_mem_cons.mpr ⟨?_, ih hgroup h⟩
      rw [Stops, ← parseGroup_eq_none_iff hi, hparse]
      exact Option.some_ne_none r

/-- When the last group does not count, there has to be room for one more. -/
theorem lt_of_storeLoop {parsedURLs : List URI} (hgroup : ∀ i ∈ is, opensGroup URLS i)
    (hstops : ∀ i ∈ is, Stops lookup URLS i)
    (hlast : ∃ i ∈ is.getLast?, urlAt lookup URLS i = none)
    (h : (storeLoop (.plenty lookup) URLS capacity is parsedURLs).isSome) :
    parsedURLs.length + (is.filterMap (urlAt lookup URLS)).length < capacity := by
  induction is generalizing parsedURLs with
  | nil =>
    obtain ⟨i, hi, -⟩ := hlast
    cases hi
  | cons i is ih =>
    obtain ⟨hi, hgroup⟩ := List.forall_mem_cons.mp hgroup
    obtain ⟨hstop, hstops⟩ := List.forall_mem_cons.mp hstops
    have hlt : parsedURLs.length < capacity := by
      by_contra hge
      rw [storeLoop, if_pos hi, if_neg hge] at h
      cases h
    cases is with
    | nil =>
      obtain ⟨j, hj, hurl⟩ := hlast
      have hj : i = j := Option.some.inj hj
      rw [filterMap_cons_toList, hj, hurl]
      exact hlt
    | cons k is =>
      rcases parseGroup_cases true ['\x00'] hi hstop with ⟨hr, -⟩ | ⟨r, htrue, hne, hr⟩
      · cases hr
      · rw [@storeLoop_some (.plenty lookup) _ _ _ _ _ _ hi hlt htrue hne hr] at h
        have := ih hgroup hstops hlast h
        rw [List.length_append] at this
        rw [filterMap_cons_toList, List.length_append]
        exact (Nat.add_assoc _ _ _) ▸ this

/-! ## The list -/

theorem opensGroup_of_mem (h : i ∈ groups URLS) : opensGroup URLS i := (List.mem_filter.mp h).2

/-- Every group of the value stops, and the last one counts. -/
structure Fits (lookup : CString → Option Nat) (URLS : CString) : Prop where
  stops : ∀ i ∈ groups URLS, Stops lookup URLS i
  last : ∀ i ∈ (groups URLS).getLast?, (urlAt lookup URLS i).isSome

/-- `createURL_list` looks at the value and its copy and fills the elements that there are, and if
memory does not run out: the URLs of the groups that count are stored in order, as many as the
first pass counts, that many are returned, and every token lies in the copy. -/
def Lists (env : ListEnv) (URLS : CString) : Prop :=
  ∃ r, createURL_list env URLS = some r ∧
    (∀ code, r = .error code → code = Uri.UPNP_E_OUTOF_MEMORY) ∧
    ∀ out, r = .ok out → countURLs env URLS = some (.ok out.size) ∧
      out.size = out.parsedURLs.length ∧ out.URLs = URLS ++ ['\x00'] ∧
      out.parsedURLs = (groups URLS).filterMap (urlAt env.gethostbyname URLS) ∧
      ∀ u ∈ out.parsedURLs, ∃ i ∈ groups URLS,
        u.Slices out.URLs (i + 1) (URLS.length - i + 1) ∧ i + 1 + u.extent ≤ URLS.length

/-- The tokens of a URL that counts. -/
theorem urlAt_slices {u : URI} (hi : opensGroup URLS i) (h : urlAt lookup URLS i = some u) :
    u.Slices (URLS ++ ['\x00']) (i + 1) (URLS.length - i + 1) ∧
      i + 1 + u.extent ≤ URLS.length := by
  obtain ⟨-, hlt⟩ := Bool.and_eq_true_iff.mp hi
  have hle := (of_decide_eq_true hlt).le
  rw [urlAt] at h
  split at h
  · rename_i v hparse
    split at h
    · cases h
      refine ⟨parse_uri_slices ?_ (parse_uri_append ['\x00'] hle hparse),
        (parse_uri_slices hle hparse).le_length⟩
      rw [List.length_append]
      exact hle.trans (Nat.le_add_right _ _)
    · cases h
  · cases h

theorem Fits.lists (h : Fits env.gethostbyname URLS) : Lists env URLS := by
  have hgroup : ∀ i ∈ groups URLS, opensGroup URLS i := fun i ↦ opensGroup_of_mem
  have hcount := @countLoop_run env URLS (groups URLS) 0 hgroup h.stops
  rw [groups, ← countLoop_filter, Nat.zero_add] at hcount
  rw [Lists, createURL_list, countURLs]
  rcases hcount with ⟨-, hcount⟩ | hcount
  · rw [hcount]
    exact ⟨_, rfl, fun code hcode ↦ (Except.error.inj hcode).symm, nofun⟩
  · rw [hcount, Option.bind_eq_bind, Option.bind_some]
    dsimp only
    split
    · have hstore := @storeLoop_run env URLS (groups URLS) _ [] hgroup h.stops h.last
        (Nat.le_of_eq (Nat.zero_add _))
      rw [groups, ← storeLoop_filter, List.nil_append] at hstore
      rcases hstore with hstore | hstore
      · rw [hstore]
        exact ⟨_, rfl, fun code hcode ↦ (Except.error.inj hcode).symm, nofun⟩
      · rw [hstore]
        refine ⟨_, rfl, nofun, ?_⟩
        rintro out ⟨⟩
        refine ⟨rfl, rfl, rfl, rfl, ?_⟩
        intro u hu
        obtain ⟨i, hi, hurl⟩ := List.mem_filterMap.mp hu
        exact ⟨i, hi, urlAt_slices (opensGroup_of_mem hi) hurl⟩
    · exact ⟨_, rfl, fun code hcode ↦ (Except.error.inj hcode).symm, nofun⟩

/-- Where memory does not run out, a list is made only of a value that fits. -/
theorem fits_of_createURL_list (h : (createURL_list (.plenty lookup) URLS).isSome) :
    Fits lookup URLS := by
  have hgroup : ∀ i ∈ groups URLS, opensGroup URLS i := fun i ↦ opensGroup_of_mem
  obtain ⟨r, hr⟩ := Option.isSome_iff_exists.mp h
  obtain ⟨count, hcount, hr⟩ := Option.bind_eq_some_iff.mp hr
  rw [countURLs, countLoop_filter] at hcount
  have hstops := stops_of_countLoop hgroup (Option.isSome_iff_exists.mpr ⟨count, hcount⟩)
  refine ⟨hstops, fun i hi ↦ ?_⟩
  by_contra hurl
  rcases @countLoop_run (.plenty lookup) URLS (groups URLS) 0 hgroup hstops with
    ⟨⟨_, -, hmalloc⟩, -⟩ | hrun
  · cases hmalloc
  · rw [groups, hcount] at hrun
    cases hrun
    obtain ⟨stored, hstored, -⟩ := Option.bind_eq_some_iff.mp hr
    rw [storeLoop_filter] at hstored
    have hlt := @lt_of_storeLoop _ _ _ lookup [] hgroup hstops
      ⟨i, hi, Option.not_isSome_iff_eq_none.mp hurl⟩ (Option.isSome_iff_exists.mpr ⟨_, hstored⟩)
    exact Nat.lt_irrefl _ hlt

theorem createURL_list_lists_iff (lookup : CString → Option Nat) (URLS : CString) :
    (∀ env : ListEnv, env.gethostbyname = lookup → Lists env URLS) ↔ Fits lookup URLS := by
  constructor
  · intro h
    obtain ⟨r, hr, -⟩ := h (.plenty lookup) rfl
    exact fits_of_createURL_list (Option.isSome_iff_exists.mpr ⟨r, hr⟩)
  · rintro h env rfl
    exact h.lists

theorem createURL_list_relative :
    ¬ Lists (.plenty fun _ ↦ some 0) "<http://a/><b>".toList := by
  rintro ⟨r, hr, -⟩
  have hnone :
      (createURL_list (.plenty fun _ ↦ some 0) "<http://a/><b>".toList).isSome = false := by
    decide +kernel
  rw [hr] at hnone
  cases hnone

end Upnp.Gena
