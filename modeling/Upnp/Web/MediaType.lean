import Mathlib.Data.List.TakeWhile
import Upnp.Lib.BinarySearch
import Upnp.Web.AliasList

/-!
# Content types

The table of media types of `server.cpp` and its two users: `addEntity`, for an alias, and
`AddContentType`, for a file.  Both search the table by halves; five of its entries stand out of
order and are never found.
-/

namespace Upnp.Web.MediaType

open Upnp.Lib

/-- `FileExtensionType`. -/
structure FileExtensionType where
  ext : CString
  type : CString
  subtype : CString
deriving DecidableEq, Repr

def AudioStr : CString := "audio".toList
def VideoStr : CString := "video".toList
def ImageStr : CString := "image".toList
def ApplicationStr : CString := "application".toList
def TextStr : CString := "text".toList

/-- `MediaTypeList`. -/
def MediaTypeList : List FileExtensionType := [
  ⟨"aif".toList, AudioStr, "x-aiff".toList⟩,
  ⟨"au".toList, AudioStr, "basic".toList⟩,
  ⟨"avi".toList, VideoStr, "msvideo".toList⟩,
  ⟨"bmp".toList, ImageStr, "x-MS-bmp".toList⟩,
  ⟨"gif".toList, ImageStr, "gif".toList⟩,
  ⟨"htm".toList, TextStr, "html".toList⟩,
  ⟨"html".toList, TextStr, "html".toList⟩,
  ⟨"jar".toList, ApplicationStr, "java-archive".toList⟩,
  ⟨"jpeg".toList, ImageStr, "jpeg".toList⟩,
  ⟨"jpg".toList, ImageStr, "jpeg".toList⟩,
  ⟨"jpe".toList, ImageStr, "jpeg".toList⟩,
  ⟨"jfif".toList, ImageStr, "jpeg".toList⟩,
  ⟨"mid".toList, AudioStr, "midi".toList⟩,
  ⟨"midi".toList, AudioStr, "midi".toList⟩,
  ⟨"mp3".toList, AudioStr, "mp3".toList⟩,
  ⟨"mpeg".toList, VideoStr, "mpeg".toList⟩,
  ⟨"mpg".toList, VideoStr, "mpeg".toList⟩,
  ⟨"mpv".toList, VideoStr, "mpeg".toList⟩,
  ⟨"mpe".toList, VideoStr, "mpeg".toList⟩,
  ⟨"mov".toList, VideoStr, "quicktime".toList⟩,
  ⟨"pdf".toList, ApplicationStr, "pdf".toList⟩,
  ⟨"pjp".toList, ImageStr, "jpeg".toList⟩,
  ⟨"pjpeg".toList, ImageStr, "jpeg".toList⟩,
  ⟨"png".toList, ImageStr, "png".toList⟩,
  ⟨"qt".toList, VideoStr, "quicktime".toList⟩,
  ⟨"ram".toList, AudioStr, "x-pn-realaudio".toList⟩,
  ⟨"rmi".toList, AudioStr, "mid".toList⟩,
  ⟨"rmm".toList, AudioStr, "x-pn-realaudio".toList⟩,
  ⟨"shtml".toList, TextStr, "html".toList⟩,
  ⟨"tar".toList, ApplicationStr, "tar".toList⟩,
  ⟨"text".toList, TextStr, "plain".toList⟩,
  ⟨"txt".toList, TextStr, "plain".toList⟩,
  ⟨"wav".toList, AudioStr, "wav".toList⟩,
  ⟨"xml".toList, TextStr, "xml".toList⟩,
  ⟨"xsl".toList, TextStr, "xml".toList⟩,
  ⟨"zip".toList, ApplicationStr, "zip".toList⟩]

/-- The extension at an index of the table. -/
def extAt (table : List FileExtensionType) (i : Nat) : CString :=
  (table[i]?.map FileExtensionType.ext).getD []

/-- `SearchExtension`. -/
def SearchExtension (fileExtension : CString) (table : List FileExtensionType) : Option Nat :=
  bisect (fun mid ↦ strcasecmp fileExtension (extAt table mid)) 0 (table.length - 1)

/-- The entry `SearchExtension` finds in the table of media types. -/
def searchMedia (fileExtension : CString) : Option FileExtensionType :=
  (SearchExtension fileExtension MediaTypeList).bind (MediaTypeList[·]?)

/-- `GetMediaType`: `contentType` and `contentSubtype`, both empty before the call. -/
def GetMediaType (fileExtension : CString) : CString × CString :=
  match searchMedia fileExtension with
  -- The second assignment is to `contentType` again.
  | none => ("octet-stream".toList, [])
  | some ext => (ext.type, ext.subtype)

/-- `application/octet-stream`. -/
def octetStream : CString × CString := (ApplicationStr, "octet-stream".toList)

variable {ι : Type}

/-- The name and the index of its dot as `addEntity` comes to know them. -/
def entityName (l : List (AliasedEntity ι)) (aliasName : CString) (ae : Nat) :
    CString × Option Nat :=
  let (name, dot_index) := GetExtensionIndex aliasName
  match find name l with
  | none => (name, dot_index)
  | some _ =>
    match dot_index with
    | none => (name ++ addressSuffix ae, none)
    | some i => GetExtensionIndex (name.take i ++ addressSuffix ae ++ name.drop i)

/-- `contentType` and `contentSubtype` of the entity `addEntity` adds. -/
def entityType (l : List (AliasedEntity ι)) (aliasName : CString) (ae : Nat) : CString × CString :=
  match entityName l aliasName ae with
  | (_, none) => octetStream
  | (name, some dot_index) => GetMediaType (name.drop (dot_index + 1))

/-- What follows the last occurrence of a character; the whole text where there is none. -/
def afterLast (d : Char) (s : CString) : CString := (s.reverse.takeWhile (· ≠ d)).reverse

/-- `strrchr`. -/
def strrchr (s : CString) (d : Char) : Option CString :=
  if d ∈ s then some (d :: afterLast d s) else none

/-- `AddContentType`: the type and the subtype of the header. -/
def AddContentType (fileName : CString) : CString × CString :=
  match strrchr fileName '.' with
  | none => octetStream
  | some extPtr =>
    match searchMedia (extPtr.drop 1) with
    | none => octetStream
    | some ext => (ext.type, ext.subtype)

/-! ## What the types should be -/

/-- The text after the last dot of the last path component. -/
def extension (name : CString) : Option CString :=
  if '.' ∈ afterLast '/' name then some (afterLast '.' (afterLast '/' name)) else none

/-- The type and the subtype of a name. -/
def mediaType (name : CString) : CString × CString :=
  match (extension name).bind fun ext ↦ MediaTypeList.find? (strcaseEq ext ·.ext) with
  | none => octetStream
  | some entry => (entry.type, entry.subtype)

/-- The entries that stand out of order. -/
def misplaced : List CString :=
  ["jpg".toList, "jpe".toList, "jfif".toList, "mpe".toList, "mov".toList]

/-- The extension, where there is one, is that of an entry that stands in order. -/
def Known (name : CString) : Prop :=
  ∀ ext, extension name = some ext →
    ∃ entry ∈ MediaTypeList, entry.ext ∉ misplaced ∧ strcaseEq ext entry.ext = true

/-! ## Texts and their last dots -/

variable {d : Char} {s t name ext fileExtension : CString}

/-- Behind the last occurrence nothing is left out. -/
theorem afterLast_append (s : CString) (ht : d ∉ t) : afterLast d (s ++ d :: t) = t := by
  unfold afterLast
  rw [List.reverse_append, List.reverse_cons, List.append_assoc, List.takeWhile_append_of_pos]
  · simp
  · intro c hc
    have hne : c ≠ d := by
      rintro rfl
      exact ht (List.mem_reverse.mp hc)
    exact decide_eq_true hne

/-- A text without the character is left as it is. -/
theorem afterLast_of_notMem (hs : d ∉ s) : afterLast d s = s := by
  unfold afterLast
  rw [List.takeWhile_eq_self_iff.mpr, List.reverse_reverse]
  intro c hc
  have hne : c ≠ d := by
    rintro rfl
    exact hs (List.mem_reverse.mp hc)
  exact decide_eq_true hne

/-- A text is cut in two at the last occurrence of a character. -/
theorem exists_eq_append_of_mem (hs : d ∈ s) : ∃ front rest, s = front ++ d :: rest ∧ d ∉ rest := by
  obtain ⟨rest, front, heq, hrest⟩ := List.eq_append_cons_of_mem (List.mem_reverse.mpr hs)
  refine ⟨front.reverse, rest.reverse, ?_, fun h ↦ hrest (List.mem_reverse.mp h)⟩
  rw [← List.reverse_inj, heq]
  simp

/-- What follows the last slash has none. -/
theorem notMem_afterLast : d ∉ afterLast d s := by
  intro hd
  have := List.mem_takeWhile_imp (List.mem_reverse.mp hd)
  simp at this

/-- A text ends in what follows the last occurrence. -/
theorem exists_append_afterLast : ∃ front, s = front ++ afterLast d s := by
  by_cases hs : d ∈ s
  · obtain ⟨front, rest, rfl, hrest⟩ := exists_eq_append_of_mem hs
    refine ⟨front ++ [d], ?_⟩
    rw [afterLast_append front hrest]
    simp
  · exact ⟨[], by rw [afterLast_of_notMem hs, List.nil_append]⟩

/-- The last path component, where what is behind a point has no slash. -/
theorem afterLast_slash_append (s : CString) (ht : '/' ∉ t) :
    afterLast '/' (s ++ t) = afterLast '/' s ++ t := by
  by_cases hs : '/' ∈ s
  · obtain ⟨front, rest, rfl, hrest⟩ := exists_eq_append_of_mem hs
    rw [afterLast_append front hrest, List.append_assoc, List.cons_append, afterLast_append]
    simp [hrest, ht]
  · rw [afterLast_of_notMem hs, afterLast_of_notMem]
    simp [hs, ht]

/-- An extension is what stands behind a dot, with neither a dot nor a slash in it. -/
theorem extension_eq_some_iff :
    extension name = some ext ↔ ∃ front, name = front ++ '.' :: ext ∧ '.' ∉ ext ∧ '/' ∉ ext := by
  unfold extension
  constructor
  · intro h
    split at h
    case isTrue hdot =>
      obtain rfl := Option.some.inj h
      obtain ⟨front, hfront⟩ := exists_append_afterLast (d := '/') (s := name)
      obtain ⟨stem, rest, hstem, hrest⟩ := exists_eq_append_of_mem hdot
      have hslash : '/' ∉ stem ++ '.' :: rest := hstem ▸ notMem_afterLast
      rw [hstem, afterLast_append stem hrest]
      refine ⟨front ++ stem, ?_, hrest, ?_⟩
      · rw [hfront, hstem, List.append_assoc]
      · intro hmem
        exact hslash (by simp [hmem])
    case isFalse => cases h
  · rintro ⟨front, rfl, hdot, hslash⟩
    have hcomponent : afterLast '/' (front ++ '.' :: ext) = afterLast '/' front ++ '.' :: ext :=
      afterLast_slash_append front (by simp [hslash])
    rw [hcomponent, if_pos (by simp), afterLast_append _ hdot]

/-- Without an extension the last path component has no dot. -/
theorem extension_eq_none_iff : extension name = none ↔ '.' ∉ afterLast '/' name := by
  unfold extension
  split <;> simp_all

/-- A name with its leading slash. -/
def slashed (name : CString) : CString := if '/' ∈ name then name else '/' :: name

/-- The slash put in front does not change the extension. -/
theorem extension_slashed (name : CString) : extension (slashed name) = extension name := by
  unfold slashed
  split
  · rfl
  · rename_i hname
    have hafter : afterLast '/' ('/' :: name) = afterLast '/' name := by
      rw [afterLast_of_notMem hname]
      exact afterLast_append [] hname
    unfold extension
    rw [hafter]

/-- The index is that of the dot in front of the extension. -/
theorem GetExtensionIndex_eq (name : CString) : GetExtensionIndex name =
    (slashed name, (extension (slashed name)).map fun ext ↦
      (slashed name).length - ext.length - 1) := by
  unfold GetExtensionIndex extension afterLast
  change (slashed name, _) = _
  refine Prod.ext rfl ?_
  simp only [List.mem_reverse, List.reverse_reverse]
  change (if '.' ∈ (slashed name).reverse.takeWhile (· ≠ '/') then
    some ((slashed name).length - _ - 1) else none) = _
  split
  · rw [Option.map_some, List.length_reverse]
    rfl
  · rfl

/-- The dot of a name that has an extension. -/
theorem GetExtensionIndex_of_extension (h : extension name = some ext) :
    ∃ front, GetExtensionIndex name = (front ++ '.' :: ext, some front.length) := by
  have hslashed : extension (slashed name) = some ext := by rw [extension_slashed, h]
  obtain ⟨front, hfront, -, -⟩ := extension_eq_some_iff.mp hslashed
  refine ⟨front, ?_⟩
  have hindex : (front ++ '.' :: ext).length - ext.length - 1 = front.length := by
    rw [List.length_append, List.length_cons]
    omega
  rw [GetExtensionIndex_eq, hslashed, hfront, Option.map_some, hindex]

/-- A name without an extension has no dot index. -/
theorem GetExtensionIndex_of_none (h : extension name = none) :
    GetExtensionIndex name = (slashed name, none) := by
  rw [GetExtensionIndex_eq, extension_slashed, h]
  rfl

/-! ## The two searches -/

/-- An alias is given the type of its extension, whatever names are in the list. -/
theorem entityType_eq (l : List (AliasedEntity ι)) (aliasName : CString) (ae : Nat) :
    entityType l aliasName ae = match extension aliasName with
      | none => octetStream
      | some ext => GetMediaType ext := by
  unfold entityType entityName
  cases h : extension aliasName with
  | none =>
    rw [GetExtensionIndex_of_none h]
    dsimp only
    cases find (slashed aliasName) l <;> rfl
  | some ext =>
    obtain ⟨front, hfront⟩ := GetExtensionIndex_of_extension h
    obtain ⟨-, -, hdot, hslash⟩ := extension_eq_some_iff.mp h
    rw [hfront]
    dsimp only
    cases find (front ++ '.' :: ext) l with
    | none => simp
    | some _ =>
      -- The address goes in before the dot, which is looked for again.
      have hinserted : extension (front ++ addressSuffix ae ++ '.' :: ext) = some ext :=
        extension_eq_some_iff.mpr ⟨_, rfl, hdot, hslash⟩
      obtain ⟨front', hfront'⟩ := GetExtensionIndex_of_extension hinserted
      dsimp only
      rw [List.take_left, List.drop_left, hfront']
      simp

/-- The entry a search finds is one of its extension. -/
theorem searchMedia_sound {entry : FileExtensionType} (h : searchMedia fileExtension = some entry) :
    entry ∈ MediaTypeList ∧ strcaseEq fileExtension entry.ext = true := by
  obtain ⟨i, hi, hentry⟩ := Option.bind_eq_some_iff.mp h
  obtain ⟨heq, -⟩ := bisect_sound le_rfl hi
  have hext : extAt MediaTypeList i = entry.ext := by
    unfold extAt
    rw [hentry]
    rfl
  rw [hext] at heq
  exact ⟨List.mem_of_getElem? hentry, strcasecmp_eq_iff.mp heq⟩

/-- A search does not tell upper case from lower case. -/
theorem searchMedia_congr (h : strcaseEq fileExtension ext = true) :
    searchMedia fileExtension = searchMedia ext := by
  have hmap : fileExtension.map Char.toLower = ext.map Char.toLower := of_decide_eq_true h
  unfold searchMedia SearchExtension strcasecmp
  rw [hmap]

/-- Each entry in its order is found, and no other is. -/
theorem searchMedia_ext : ∀ entry ∈ MediaTypeList,
    searchMedia entry.ext = if entry.ext ∈ misplaced then none else some entry := by
  decide +kernel

/-- No two entries have one extension. -/
theorem find_ext : ∀ entry ∈ MediaTypeList,
    MediaTypeList.find? (strcaseEq entry.ext ·.ext) = some entry := by
  decide +kernel

/-- The entry of an extension does not depend on its case. -/
theorem find_congr (h : strcaseEq fileExtension ext = true) :
    MediaTypeList.find? (strcaseEq fileExtension ·.ext) =
      MediaTypeList.find? (strcaseEq ext ·.ext) := by
  have hmap : fileExtension.map Char.toLower = ext.map Char.toLower := of_decide_eq_true h
  unfold strcaseEq
  rw [hmap]

/-- The type of an alias that was not found is neither that nor any entry's. -/
theorem GetMediaType_none (h : searchMedia fileExtension = none) :
    (GetMediaType fileExtension).2 = [] := by
  unfold GetMediaType
  rw [h]

/-- The subtype that every name should have has a text. -/
theorem mediaType_ne (name : CString) : (mediaType name).2 ≠ [] := by
  have hsubtype : ∀ entry ∈ MediaTypeList, entry.subtype ≠ [] := by decide +kernel
  unfold mediaType
  cases h : (extension name).bind fun ext ↦ MediaTypeList.find? (strcaseEq ext ·.ext) with
  | none => exact fun hnil ↦ nomatch hnil
  | some entry =>
    obtain ⟨ext, -, hfind⟩ := Option.bind_eq_some_iff.mp h
    exact hsubtype entry (List.mem_of_find?_eq_some hfind)

/-- The entry of a known extension is found, and is the one it should be. -/
theorem searchMedia_of_known {entry : FileExtensionType} (hmem : entry ∈ MediaTypeList)
    (hplace : entry.ext ∉ misplaced) (hext : strcaseEq ext entry.ext = true) :
    searchMedia ext = some entry ∧ MediaTypeList.find? (strcaseEq ext ·.ext) = some entry := by
  constructor
  · rw [searchMedia_congr hext, searchMedia_ext entry hmem, if_neg hplace]
  · rw [find_congr hext, find_ext entry hmem]

/-- A search that finds something knows the extension. -/
theorem known_of_searchMedia {entry : FileExtensionType} (h : searchMedia ext = some entry) :
    entry ∈ MediaTypeList ∧ entry.ext ∉ misplaced ∧ strcaseEq ext entry.ext = true := by
  obtain ⟨hmem, hext⟩ := searchMedia_sound h
  refine ⟨hmem, ?_, hext⟩
  intro hplace
  rw [searchMedia_congr hext, searchMedia_ext entry hmem, if_pos hplace] at h
  cases h

/-- No entry has a slash in its extension. -/
theorem searchMedia_slash (h : '/' ∈ ext) : searchMedia ext = none := by
  have hslash : ∀ entry ∈ MediaTypeList, '/' ∉ entry.ext := by decide +kernel
  by_contra hne
  obtain ⟨entry, hentry⟩ := Option.ne_none_iff_exists'.mp hne
  obtain ⟨hmem, heq⟩ := searchMedia_sound hentry
  have hmap : ext.map Char.toLower = entry.ext.map Char.toLower := of_decide_eq_true heq
  have hlower : '/' ∈ entry.ext.map Char.toLower := hmap ▸ List.mem_map.mpr ⟨'/', h, rfl⟩
  obtain ⟨c, hc, hlow⟩ := List.mem_map.mp hlower
  obtain rfl := eq_of_toLower_eq hlow (by decide)
  exact hslash entry hmem hc

/-- A file of a known extension has the type it should have. -/
theorem AddContentType_of_known (h : Known name) : AddContentType name = mediaType name := by
  unfold AddContentType strrchr mediaType
  cases hext : extension name with
  | none =>
    have hdot := extension_eq_none_iff.mp hext
    split
    case h_1 => rfl
    case h_2 extPtr hptr =>
      -- The last dot is in a directory: what follows it has a slash, and no entry has one.
      split at hptr
      case isFalse => cases hptr
      case isTrue hmem =>
        obtain rfl := Option.some.inj hptr
        obtain ⟨front, rest, rfl, hrest⟩ := exists_eq_append_of_mem hmem
        rw [afterLast_append front hrest]
        have hslash : '/' ∈ rest := by
          by_contra hslash
          rw [extension_eq_some_iff.mpr ⟨front, rfl, hrest, hslash⟩] at hext
          cases hext
        simp [searchMedia_slash hslash]
  | some ext =>
    obtain ⟨entry, hmem, hplace, heq⟩ := h ext hext
    obtain ⟨hsearch, hfind⟩ := searchMedia_of_known hmem hplace heq
    obtain ⟨front, rfl, hdot, -⟩ := extension_eq_some_iff.mp hext
    rw [if_pos (by simp), afterLast_append front hdot]
    simp [hsearch, hfind]

/-- **An alias of a name and a file of that name are served with the type of the name's extension
exactly when the extension, where there is one, is that of an entry that stands in order.**  Any
other extension leaves an alias with a type that is none, and an extension out of order leaves a
file with `application/octet-stream`. -/
theorem types_agree_iff (name : CString) :
    ((∀ (l : List (AliasedEntity (CString × CString))) (ae : Nat),
        entityType l name ae = mediaType name) ∧ AddContentType name = mediaType name) ↔
      Known name := by
  constructor
  · rintro ⟨halias, -⟩ ext hext
    have hnil := halias [] 0
    rw [entityType_eq, hext] at hnil
    cases hsearch : searchMedia ext with
    | none =>
      refine absurd ?_ (mediaType_ne name)
      rw [← hnil]
      exact GetMediaType_none hsearch
    | some entry => exact ⟨entry, known_of_searchMedia hsearch⟩
  · intro hknown
    refine ⟨fun l ae ↦ ?_, AddContentType_of_known hknown⟩
    rw [entityType_eq]
    unfold mediaType
    cases hext : extension name with
    | none => rfl
    | some ext =>
      obtain ⟨entry, hmem, hplace, heq⟩ := hknown ext hext
      obtain ⟨hsearch, hfind⟩ := searchMedia_of_known hmem hplace heq
      simp [GetMediaType, hsearch, hfind]

/-- A picture `/a.jpe` and a text `/a.c`: the one has an entry that is not found, the other has
none. -/
theorem types_not_agree :
    (entityType ([] : List (AliasedEntity (CString × CString))) "/a.jpe".toList 0 ≠
        mediaType "/a.jpe".toList ∧
      AddContentType "/a.jpe".toList ≠ mediaType "/a.jpe".toList) ∧
    entityType ([] : List (AliasedEntity (CString × CString))) "/a.c".toList 0 ≠
      mediaType "/a.c".toList := by
  decide +kernel

end Upnp.Web.MediaType
