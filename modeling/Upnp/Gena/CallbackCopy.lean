import Upnp.Gena.CallbackList
import Upnp.Uri.CopiedList

/-!
# Copies of the callback URLs

The list that `createURL_list` makes, with its offsets as pointers into a block of the memory.  A
notification sends to the URLs of a copy of it.
-/

namespace Upnp.Uri.Copy

open Upnp.Lib Upnp.Lib.Pointer
open Upnp.Gena (ListEnv Fits createURL_list)

/-! ## Offsets as pointers -/

/-- The token, for a text that stands at `base`. -/
def place (base : Pointer) (t : Uri.Token) : Token where
  buff := t.buff.elim NULL fun o ↦ base + BitVec.ofNat 64 o
  size := t.size

/-- The parsed URI, for a text that stands at `base`. -/
def placeURI (base : Pointer) (address : Uri.HostPort → sockaddr_in) (u : Uri.URI) : URI where
  type := u.type
  scheme := place base u.scheme
  path_type := u.path_type
  pathquery := place base u.pathquery
  fragment := place base u.fragment
  hostport := ⟨place base u.hostport.text, address u.hostport⟩

def tokens (u : Uri.URI) : List Uri.Token := [u.scheme, u.pathquery, u.fragment, u.hostport.text]

/-- A list of callback URLs in memory. -/
structure InMemory (m : Heap Block) (address : Uri.HostPort → sockaddr_in) (out : Gena.URL_list)
    (list : URL_list) : Prop where
  buffer : chars m list.URLs = some (out.URLs.map some)
  parsed : ∃ rest, uris m list.parsedURLs =
    some ((out.parsedURLs.map (placeURI list.URLs address)).map some ++ rest)
  size : list.size = out.size

variable {base base' : Pointer} {t : Uri.Token} {u : Uri.URI} {memory URLS : CString}
  {pos max : Nat} {address : Uri.HostPort → sockaddr_in} {env : ListEnv} {out : Gena.URL_list}
  {list : URL_list} {m : Heap Block} {A : Allocator Block}

theorem tokens_placeURI : (placeURI base address u).tokens = (tokens u).map (place base) := rfl

/-- A token that is there is copied to where the new buffer has it. -/
theorem copy_token_place (h : t.buff ≠ none) :
    copy_token (place base t) base base' = place base' t := by
  obtain ⟨o, ho⟩ := Option.ne_none_iff_exists'.mp h
  unfold copy_token place rebase
  rw [ho]
  congr 1
  dsimp only [Option.elim]
  bv_omega

/-- The tokens of a URI are missing, or lie in it. -/
theorem token_le (h : u.Slices memory pos max) (ht : t ∈ tokens u) :
    t = ⟨none, 0⟩ ∨ ∃ o, t.buff = some o ∧ o + t.size ≤ pos + u.extent := by
  unfold Uri.URI.extent Uri.URI.begin_path
  rcases List.mem_cons.mp ht with rfl | ht
  · rcases h.scheme with ⟨-, hnone⟩ | ⟨htype, hbuff, -⟩
    · exact .inl hnone
    · refine .inr ⟨pos, hbuff, ?_⟩
      rw [Uri.URI.schemeExtent, if_pos htype]
      omega
  rcases List.mem_cons.mp ht with rfl | ht
  · refine .inr ⟨_, h.pathquery, ?_⟩
    unfold Uri.URI.begin_path
    omega
  rcases List.mem_cons.mp ht with rfl | ht
  · rcases h.fragment with hnone | hbuff
    · exact .inl hnone
    · refine .inr ⟨_, hbuff, ?_⟩
      rw [Uri.URI.fragmentExtent, hbuff, if_neg (Option.some_ne_none _)]
      unfold Uri.URI.begin_path
      omega
  · obtain rfl := List.mem_singleton.mp ht
    rcases h.hostport with hnone | hbuff
    · exact .inl hnone
    · refine .inr ⟨_, hbuff, ?_⟩
      rw [Uri.HostPort.extent, hbuff, if_neg (Option.some_ne_none _)]
      omega

theorem offset_place {o : Nat} (ho : t.buff = some o) (hlt : o < 2 ^ 64) :
    ((place base t).buff - base).toNat = o := by
  have hoffset : (place base t).buff - base = BitVec.ofNat 64 o := by
    unfold place
    rw [ho]
    dsimp only [Option.elim]
    bv_omega
  rw [hoffset, BitVec.toNat_ofNat, Nat.mod_eq_of_lt hlt]

/-- A token reads in memory what its offset and its size say. -/
theorem place_reads {o : Nat} (ho : t.buff = some o) (hle : o + t.size ≤ memory.length)
    (hlt : o < 2 ^ 64) : (place base t).Reads base (memory.map some) (t.text memory) := by
  unfold Token.Reads Uri.Token.text
  rw [offset_place ho hlt, ho]
  refine ⟨?_, ?_⟩
  · dsimp only
    rw [List.map_take, List.map_drop]
    rfl
  · dsimp only
    rw [List.length_take, List.length_drop]
    exact Nat.min_eq_left (Nat.le_sub_of_add_le' hle)

/-! ## The list in memory -/

/-- A token of a list that `createURL_list` makes is missing, or lies in the value. -/
theorem createURL_list_token (hfits : Fits env.gethostbyname URLS)
    (hcreate : createURL_list env URLS = some (.ok out)) (hu : u ∈ out.parsedURLs)
    (ht : t ∈ tokens u) :
    t = ⟨none, 0⟩ ∨ ∃ o, t.buff = some o ∧ o + t.size ≤ URLS.length := by
  obtain ⟨r, hr, -, hok⟩ := hfits.lists
  rw [hcreate] at hr
  cases hr
  obtain ⟨-, -, -, -, hslices⟩ := hok out rfl
  obtain ⟨i, -, hslice, hle⟩ := hslices u hu
  refine (token_le hslice ht).imp_right ?_
  rintro ⟨o, ho, hend⟩
  exact ⟨o, ho, hend.trans hle⟩

theorem createURL_list_URLs (hfits : Fits env.gethostbyname URLS)
    (hcreate : createURL_list env URLS = some (.ok out)) : out.URLs = URLS ++ ['\x00'] := by
  obtain ⟨r, hr, -, hok⟩ := hfits.lists
  rw [hcreate] at hr
  cases hr
  exact (hok out rfl).2.2.1

/-- A list that `createURL_list` makes of a value without a NUL is one that can be copied. -/
theorem InMemory.valid (h : InMemory m address out list) (hfits : Fits env.gethostbyname URLS)
    (hcreate : createURL_list env URLS = some (.ok out)) (hnul : '\x00' ∉ URLS)
    (hlen : (URLS.length : Int) ≤ intMax) :
    Valid m list URLS (out.URLs.map some) (out.parsedURLs.map (placeURI list.URLs address)) := by
  obtain ⟨r, hr, -, hok⟩ := hfits.lists
  rw [hcreate] at hr
  cases hr
  obtain ⟨-, hsize, htext, hparsed, -⟩ := hok out rfl
  have hcount : out.parsedURLs.length ≤ URLS.length := by
    rw [hparsed]
    refine (List.length_filterMap_le _ _).trans ?_
    exact (List.length_filter_le _ _).trans List.length_range.le
  have hlt : URLS.length < 2 ^ 64 := by
    unfold intMax at hlen
    omega
  refine ⟨h.buffer, ?_, hnul, h.parsed, ?_, ?_, ?_⟩
  · rw [htext]
    exact List.prefix_refl _
  · rw [h.size, hsize, List.length_map]
  · rw [h.size, hsize]
    exact (Int.ofNat_le.mpr hcount).trans hlen
  · intro v hv placed hplaced
    obtain ⟨u, hu, rfl⟩ := List.mem_map.mp hv
    rw [tokens_placeURI] at hplaced
    obtain ⟨t, ht, rfl⟩ := List.mem_map.mp hplaced
    rcases createURL_list_token hfits hcreate hu ht with rfl | ⟨o, ho, hle⟩
    · exact ⟨[], rfl, rfl⟩
    · refine ⟨_, place_reads ho ?_ ?_⟩
      · rw [htext, List.length_append]
        exact hle.trans (Nat.le_add_right _ _)
      · exact Nat.lt_of_le_of_lt ((Nat.le_add_right _ _).trans hle) hlt

/-! ## The copy -/

/-- A missing token survives unless the distance of the buffers is an address in the old one. -/
theorem survives_none {size len : Nat} (hapart : base'.Apart len base size) :
    (place base ⟨none, 0⟩).Survives base base' size len ↔ ¬ (base' - base).Within base size := by
  have hmoved : base' - base + NULL = base' - base := BitVec.add_zero _
  rw [Token.Survives]
  refine (if_pos rfl).to_iff.trans ?_
  dsimp only [place, Option.elim]
  rw [hmoved]
  refine or_iff_right_of_imp fun hwithin ↦ ?_
  have hnull : rebase base base' NULL = base' - base := by
    unfold rebase NULL
    bv_omega
  rw [← hnull]
  exact hapart.notWithin (within_rebase.mpr hwithin)

theorem survives_some {o len size : Nat} (ho : t.buff = some o) (hle : o + t.size < len)
    (hlt : o < 2 ^ 64) : (place base t).Survives base base' size len := by
  unfold Token.Survives
  rw [offset_place ho hlt]
  split
  · refine .inl ?_
    unfold Within
    rw [offset_place ho hlt]
    omega
  · exact hle.le

theorem copyLen_eq (hlen : (URLS.length : Int) < intMax) : copyLen URLS = URLS.length + 1 := by
  unfold intMax at hlen
  rw [copyLen, wrap32_of_range (by omega) (by omega), Util.size_t]
  omega

/-- The list of a subscription is copied when, and only when, the memory for the copy is there or
both parts of it are refused, and no null pointer is moved into the old buffer. -/
theorem copies_callbacks_iff (h : InMemory m address out list) (hfits : Fits env.gethostbyname URLS)
    (hcreate : createURL_list env URLS = some (.ok out)) (hnul : '\x00' ∉ URLS)
    (hlen : (URLS.length : Int) < intMax) :
    CopiesRight A m list (out.URLs.map some)
        (out.parsedURLs.map (placeURI list.URLs address)) ↔
      (newURLs A m URLS = NULL ↔ newParsed A m list URLS = NULL) ∧
        (newURLs A m URLS ≠ NULL → (∃ u ∈ out.parsedURLs, ∃ t ∈ tokens u, t.buff = none) →
          ¬ (newURLs A m URLS - list.URLs).Within list.URLs (URLS.length + 1)) := by
  have hvalid := h.valid hfits hcreate hnul hlen.le
  have hsize : (out.URLs.map some).length = URLS.length + 1 := by
    rw [createURL_list_URLs hfits hcreate, List.length_map, List.length_append]
    rfl
  have hlt : URLS.length + 1 < 2 ^ 64 := by
    unfold intMax at hlen
    omega
  by_cases hnull : newURLs A m URLS = NULL ∨ newParsed A m list URLS = NULL
  · rw [copiesRight_null hvalid hnull]
    refine (and_iff_left_of_imp fun htogether hne ↦ ?_).symm
    exact absurd (hnull.elim id htogether.mpr) hne
  · obtain ⟨hURLs, hparsed⟩ := not_or.mp hnull
    have hapart := (A.fresh 0 m (copyLen URLS) hURLs _ _ (chars_eq_some.mp h.buffer)).2
    rw [copiesRight_block hvalid hURLs hparsed, hsize, copyLen_eq hlen]
    change (newURLs A m URLS).Apart (copyLen URLS) list.URLs (out.URLs.map some).length at hapart
    rw [hsize, copyLen_eq hlen] at hapart
    constructor
    · rintro ⟨-, hsurvive⟩
      refine ⟨iff_of_false hURLs hparsed, fun _ ⟨u, hu, t, ht, hnone⟩ ↦ ?_⟩
      rw [← survives_none hapart]
      have htoken := (createURL_list_token hfits hcreate hu ht).resolve_right
        fun ⟨o, ho, _⟩ ↦ Option.some_ne_none o (ho.symm.trans hnone)
      exact htoken ▸ hsurvive _ (List.mem_map_of_mem hu) _ (List.mem_map_of_mem ht)
    · rintro ⟨-, hnone⟩
      refine ⟨le_rfl, fun v hv placed hplaced ↦ ?_⟩
      obtain ⟨u, hu, rfl⟩ := List.mem_map.mp hv
      rw [tokens_placeURI] at hplaced
      obtain ⟨t, ht, rfl⟩ := List.mem_map.mp hplaced
      rcases createURL_list_token hfits hcreate hu ht with rfl | ⟨o, ho, hle⟩
      · exact (survives_none hapart).mpr (hnone hURLs ⟨u, hu, _, ht, rfl⟩)
      · exact survives_some ho (Nat.lt_succ_of_le hle)
          (Nat.lt_of_le_of_lt ((Nat.le_add_right _ _).trans hle) (Nat.lt_of_succ_lt hlt))

end Upnp.Uri.Copy
