import Upnp.Dom.NonEscaped
import Upnp.Dom.Search
import Upnp.Uri.ResolveRelUrl
import Upnp.Web.AliasList
import Upnp.Web.DotSegments

/-!
# The URL of a description

`Configure_Urlbase` of `urlconfig.cpp`: the document gets its `URLBase` before its alias is computed
and registered, and keeps it when one of these fails.
-/

namespace Upnp.Api.Urlbase

open Upnp.Lib Upnp.Xml Upnp.Dom Upnp.Uri Upnp.Web

def UPNP_E_OUTOF_MEMORY : Int := -104
def UPNP_E_INVALID_DESC : Int := -107
def UPNP_E_INVALID_URL : Int := -108

def URLBase : CString := "URLBase".toList

/-- Whether there is memory for each of the texts and objects that are made. -/
structure Memory where
  ipStr : Bool
  /-- `urlStr` and `rootPath`. -/
  urlStr : Bool
  /-- The text node of a new `URLBase`. -/
  textNode : Bool
  /-- The value in `setNodeValue`. -/
  nodeValue : Bool
  /-- What `convert_to_http_entity` makes. -/
  entity : Bool
  /-- `newAlias`. -/
  newAlias : Bool
  /-- The segments of `remove_dots`. -/
  segments : Bool
  /-- The record in the alias list. -/
  record : Bool
  descURL : Bool

/-- What `Configure_Urlbase` is called with, and the state of the server.  The first node of a
document is an element. -/
structure Setup where
  doc : List Content
  ipPort : CString
  aliasName : CString
  aliases : List (AliasedEntity CString)
  /-- The address of the record in the alias list. -/
  ae : Nat
  serial : Nat
  env : Env
  memory : Memory
  element : ∀ value rest, doc ≠ .text value :: rest

/-! ## The document -/

/-- `UpnpNode_setNodeValue` on the first child. -/
def setFirstText (value : CString) : List Content → List Content
  | .text _ :: children => .text value :: children
  | children => children

def setText (value : CString) : Content → Content
  | .element nodeName attributes children =>
    .element nodeName attributes (setFirstText value children)
  | node => node

mutual

/-- A tree, with the value set in the first `URLBase` of it. -/
def setNode (value : CString) : Content → Content
  | .text text => .text text
  | .element nodeName attributes children =>
    if isTagged URLBase nodeName then .element nodeName attributes (setFirstText value children)
    else .element nodeName attributes (setList value children)

/-- Nodes, with the value set in the first `URLBase` of them. -/
def setList (value : CString) : List Content → List Content
  | [] => []
  | child :: children =>
    if (searchNode URLBase child).isEmpty then child :: setList value children
    else setNode value child :: children

end

/-- The text of the first `URLBase`. -/
def urlBase (doc : List Content) : Option CString :=
  ((searchList URLBase doc).head?.bind firstChild).bind nodeValue

/-- A path, with a leading slash. -/
def rooted (path : CString) : CString := if path.head? = some '/' then path else '/' :: path

/-- `config_url` behind `addrToString`: the document and the path of its `URLBase`, or an error with
the document that it leaves; `none` for `strlen` of NULL, and where `parse_uri` leaves the text. -/
def set_url (c : Setup) : Option (Except (Int × List Content) (List Content × CString)) :=
  match searchList URLBase c.doc with
  | [] =>
    if c.memory.urlStr then
      match c.doc with
      | .element nodeName attributes children :: rest =>
        if c.memory.textNode then
          let textNode := Content.text ("http://".toList ++ c.ipPort ++ ['/'])
          some (.ok (Content.element nodeName attributes
            (children ++ [Content.element URLBase [] [textNode]]) :: rest, ['/']))
        else
          -- the new element is removed again
          some (.error (UPNP_E_OUTOF_MEMORY, Content.element nodeName attributes
            (children ++ [Content.element URLBase [] []]).dropLast :: rest))
      | _ => some (.error (UPNP_E_INVALID_DESC, c.doc))
    else some (.error (UPNP_E_OUTOF_MEMORY, c.doc))
  | element :: _ =>
    match firstChild element with
    | none => some (.error (UPNP_E_INVALID_DESC, c.doc))
    | some textNode =>
      match nodeValue textNode with
      | none => none
      | some domStr =>
        match parseString c.env domStr with
        | none => none
        | some (.error _) => some (.error (UPNP_E_INVALID_URL, c.doc))
        | some (.ok uri) =>
          if uri.type = .ABSOLUTE then
            if c.memory.urlStr then
              let rootPath := rooted (uri.pathquery.text domStr)
              let urlStr := uri.scheme.text domStr ++ "://".toList ++ c.ipPort ++ rootPath
              if c.memory.nodeValue then some (.ok (setList urlStr c.doc, rootPath))
              -- the old value was deleted; a text without a value is written as an empty one
              else some (.error (UPNP_E_OUTOF_MEMORY, setList [] c.doc))
            else some (.error (UPNP_E_OUTOF_MEMORY, c.doc))
          else some (.error (UPNP_E_INVALID_URL, c.doc))

/-- `config_url`. -/
def config_url (c : Setup) : Option (Except (Int × List Content) (List Content × CString)) :=
  if c.memory.ipStr then set_url c else some (.error (UPNP_E_OUTOF_MEMORY, c.doc))

/-! ## The alias -/

/-- `newAlias` in `calc_alias`, before its dots are removed. -/
def joined (rootPath aliasName : CString) : CString :=
  (if rootPath.getLast? = some '/' then rootPath else rootPath ++ ['/']) ++
    if aliasName.head? = some '/' then aliasName.tail else aliasName

/-- `calc_alias`. -/
def calc_alias (memory : Memory) (aliasName rootPath : CString) : Except Int CString :=
  if memory.newAlias then
    match removeDots memory.segments (joined rootPath aliasName) with
    | some newAlias => .ok newAlias
    | none => .error (if memory.segments then UPNP_E_INVALID_URL else UPNP_E_OUTOF_MEMORY)
  else .error UPNP_E_OUTOF_MEMORY

/-- `convert_to_http_entity`: the text of the entity. -/
def convert_to_http_entity (memory : Memory) (doc : List Content) : Option CString :=
  if memory.entity then DumpDocument (.document doc) else none

/-- What is left by `Configure_Urlbase`. -/
inductive Result where
  /-- An error; `deleted` is whether the entity was made and deleted. -/
  | failed (code : Int) (doc : List Content) (aliases : List (AliasedEntity CString)) (deleted : Bool)
  | done (doc : List Content) (aliases : List (AliasedEntity CString)) (actual_alias docURL : CString)

/-- `Configure_Urlbase`, on the document that `config_url` leaves. -/
def register (c : Setup) (doc : List Content) (rootPath : CString) : Result :=
  match convert_to_http_entity c.memory doc with
  | none => .failed UPNP_E_OUTOF_MEMORY doc c.aliases false
  | some entity =>
    match calc_alias c.memory c.aliasName rootPath with
    | .error code => .failed code doc c.aliases true
    | .ok newAlias =>
      if c.memory.record then
        let aliases := addEntity newAlias entity c.ae c.serial c.aliases
        let actual := actualAlias c.aliases newAlias c.ae
        if c.memory.descURL then .done doc aliases actual ("http://".toList ++ c.ipPort ++ actual)
        else .failed UPNP_E_OUTOF_MEMORY doc aliases true
      else .failed UPNP_E_OUTOF_MEMORY doc c.aliases true

/-- `Configure_Urlbase`, behind `config_url`. -/
def finish (c : Setup) : Except (Int × List Content) (List Content × CString) → Result
  | .error (code, doc) => .failed code doc c.aliases false
  | .ok (doc, rootPath) => register c doc rootPath

/-- `Configure_Urlbase`. -/
def Configure_Urlbase (c : Setup) : Option Result :=
  (config_url c).map (finish c)

/-! ## What it is for -/

/-- The scheme and the path of the `URLBase` that a document has, or gets. -/
inductive Base (c : Setup) : CString → CString → Prop
  | missing (h : searchList URLBase c.doc = []) (hne : c.doc ≠ []) : Base c "http".toList ['/']
  | found {text : CString} {uri : URI} (h : urlBase c.doc = some text)
      (hparse : parseString c.env text = some (.ok uri)) (habs : uri.type = .ABSOLUTE) :
      Base c (uri.scheme.text text) (rooted (uri.pathquery.text text))

/-- The absolute URL on the server. -/
def serverUrl (c : Setup) (scheme path : CString) : CString :=
  scheme ++ "://".toList ++ c.ipPort ++ path

/-- The document, the alias and the URL go together. -/
structure Consistent (c : Setup) (doc : List Content) (aliases : List (AliasedEntity CString))
    (actual url : CString) : Prop where
  url : url = "http://".toList ++ c.ipPort ++ actual
  base : ∃ scheme path newAlias, Base c scheme path ∧ urlBase doc = some (serverUrl c scheme path) ∧
    calc_alias c.memory c.aliasName path = .ok newAlias ∧
    removeDotSegments (joined path c.aliasName) = some newAlias ∧
    actual = actualAlias c.aliases newAlias c.ae ∧ (find newAlias c.aliases = none → actual = newAlias)
  entity : ∃ text, DumpDocument (.document doc) = some text ∧
    aliases = c.aliases ++ [⟨actual, text, 1, false, c.serial⟩]

/-- A success is consistent; a failure leaves the document, and deletes no entity that is in the
list. -/
def Right (c : Setup) : Result → Prop
  | .failed _ doc aliases deleted => doc = c.doc ∧ (deleted = true → aliases = c.aliases)
  | .done doc aliases actual url => Consistent c doc aliases actual url

def ConfiguresRight (c : Setup) : Prop := ∃ r, Configure_Urlbase c = some r ∧ Right c r

/-- The `URLBase` of the document, if there is one with a child, is a text that `parse_uri` does not
leave. -/
def Readable (c : Setup) : Prop :=
  ∀ e ∈ (searchList URLBase c.doc).head?, ∀ child ∈ firstChild e,
    ∃ text, child = .text text ∧ parseString c.env text ≠ none

/-- The alias on a path: the path does not climb above the root, and no dot segment is in front of a
query. -/
def Dotless (path : CString) : Prop :=
  climbsAbove 0 (pathSegments path) = false ∧
    (EndsInDots (pathSegments path) → queryPart path = [])

/-- Nothing fails behind `config_url`, and the alias has no dots that stay. -/
structure Succeeds (c : Setup) (path : CString) : Prop where
  entity : c.memory.entity = true
  newAlias : c.memory.newAlias = true
  segments : c.memory.segments = true
  record : c.memory.record = true
  descURL : c.memory.descURL = true
  dotless : Dotless (joined path c.aliasName)

/-- The alias is registered. -/
structure Registers (c : Setup) (path : CString) : Prop where
  entity : c.memory.entity = true
  newAlias : c.memory.newAlias = true
  removeDots : removeDots c.memory.segments (joined path c.aliasName) ≠ none
  record : c.memory.record = true

/-- Behind `config_url` nothing fails, or the document had the very same `URLBase` before and the
alias is not registered. -/
def Lasts (c : Setup) (scheme path : CString) : Prop :=
  Succeeds c path ∨ urlBase c.doc = some (serverUrl c scheme path) ∧ ¬ Registers c path

/-- When the `URLBase` of the document is set, there is memory for its value, and what follows does
not fail. -/
def Clear (c : Setup) : Prop :=
  c.memory.ipStr = true → Readable c ∧ ∀ scheme path, Base c scheme path → c.memory.urlStr = true →
    (searchList URLBase c.doc ≠ [] → c.memory.nodeValue = true) ∧
      ((searchList URLBase c.doc = [] → c.memory.textNode = true) → Lasts c scheme path)

/-! ## Setting the URL -/

mutual

/-- The first `URLBase` is found again, with the value. -/
theorem searchNode_setNode (value : CString) : ∀ (node e : Content) (more : List Content),
    searchNode URLBase node = e :: more →
      ∃ more', searchNode URLBase (setNode value node) = setText value e :: more'
  | .text _, _, _, h => by cases h
  | .element nodeName attributes children, e, more, h => by
    rw [searchNode] at h
    rw [setNode]
    by_cases htag : isTagged URLBase nodeName = true
    · rw [if_pos htag] at h ⊢
      cases h
      rw [searchNode, if_pos htag]
      exact ⟨_, rfl⟩
    · rw [if_neg htag, List.nil_append] at h
      rw [if_neg htag, searchNode, if_neg htag, List.nil_append]
      exact searchList_setList value children e more h

theorem searchList_setList (value : CString) : ∀ (nodes : List Content) (e : Content)
    (more : List Content), searchList URLBase nodes = e :: more →
      ∃ more', searchList URLBase (setList value nodes) = setText value e :: more'
  | [], _, _, h => by cases h
  | node :: nodes, e, more, h => by
    rw [searchList] at h
    rw [setList]
    cases hnode : searchNode URLBase node with
    | nil =>
      rw [hnode, List.nil_append] at h
      rw [List.isEmpty_nil, if_pos rfl, searchList, hnode, List.nil_append]
      exact searchList_setList value nodes e more h
    | cons e' more₁ =>
      rw [hnode, List.cons_append] at h
      obtain ⟨rfl, -⟩ := List.cons.inj h
      obtain ⟨more₂, hmore⟩ := searchNode_setNode value node e' more₁ hnode
      rw [List.isEmpty_cons, if_neg Bool.false_ne_true, searchList, hmore]
      exact ⟨_, rfl⟩

end

mutual

/-- Nothing changes if the first `URLBase` does not. -/
theorem setNode_eq_iff (value : CString) : ∀ (node e : Content) (more : List Content),
    searchNode URLBase node = e :: more → (setNode value node = node ↔ setText value e = e)
  | .text _, _, _, h => by cases h
  | .element nodeName attributes children, e, more, h => by
    rw [searchNode] at h
    rw [setNode]
    by_cases htag : isTagged URLBase nodeName = true
    · rw [if_pos htag] at h ⊢
      cases h
      rfl
    · rw [if_neg htag, List.nil_append] at h
      rw [if_neg htag, Content.element.injEq, ← setList_eq_iff value children e more h]
      simp only [true_and]

theorem setList_eq_iff (value : CString) : ∀ (nodes : List Content) (e : Content)
    (more : List Content), searchList URLBase nodes = e :: more →
      (setList value nodes = nodes ↔ setText value e = e)
  | [], _, _, h => by cases h
  | node :: nodes, e, more, h => by
    rw [searchList] at h
    rw [setList]
    cases hnode : searchNode URLBase node with
    | nil =>
      rw [hnode, List.nil_append] at h
      rw [List.isEmpty_nil, if_pos rfl, ← setList_eq_iff value nodes e more h, List.cons.injEq]
      simp only [true_and]
    | cons e' more₁ =>
      rw [hnode, List.cons_append] at h
      obtain ⟨rfl, -⟩ := List.cons.inj h
      rw [List.isEmpty_cons, if_neg Bool.false_ne_true, List.cons.injEq,
        ← setNode_eq_iff value node e' more₁ hnode]
      simp only [and_true]

end

theorem searchList_append (tagname : CString) (nodes nodes' : List Content) :
    searchList tagname (nodes ++ nodes') = searchList tagname nodes ++ searchList tagname nodes' := by
  induction nodes with
  | nil => rw [List.nil_append, searchList, List.nil_append]
  | cons node nodes ih => rw [List.cons_append, searchList, searchList, ih, List.append_assoc]

variable {c : Setup} {doc : List Content} {text value scheme path scheme' path' : CString}

theorem exists_of_urlBase (h : urlBase doc = some text) : ∃ nodeName attributes children more,
    searchList URLBase doc = .element nodeName attributes (.text text :: children) :: more := by
  rw [urlBase] at h
  cases hsearch : searchList URLBase doc with
  | nil =>
    rw [hsearch] at h
    cases h
  | cons e more =>
    rw [hsearch] at h
    match e, h with
    | .element nodeName attributes (.text _ :: children), h =>
      cases h
      exact ⟨nodeName, attributes, children, more, rfl⟩

theorem urlBase_of_search {nodeName : CString} {attributes : List (CString × CString)}
    {children more : List Content}
    (h : searchList URLBase doc = .element nodeName attributes (.text text :: children) :: more) :
    urlBase doc = some text := by
  rw [urlBase, h]
  rfl

theorem urlBase_setList (h : urlBase doc = some text) :
    urlBase (setList value doc) = some value := by
  obtain ⟨nodeName, attributes, children, more, hsearch⟩ := exists_of_urlBase h
  obtain ⟨more', hset⟩ := searchList_setList value doc _ more hsearch
  exact urlBase_of_search hset

theorem setList_same_iff (h : urlBase doc = some text) : setList value doc = doc ↔ text = value := by
  obtain ⟨nodeName, attributes, children, more, hsearch⟩ := exists_of_urlBase h
  rw [setList_eq_iff value doc _ more hsearch, setText, setFirstText]
  constructor
  · intro heq
    cases heq
    rfl
  · rintro rfl
    rfl

/-- A `URLBase` that is appended is the first one where there was none. -/
theorem urlBase_appended {nodeName : CString} {attributes : List (CString × CString)}
    {children rest : List Content}
    (h : searchList URLBase (.element nodeName attributes children :: rest) = []) :
    urlBase (.element nodeName attributes
      (children ++ [.element URLBase [] [.text value]]) :: rest) = some value := by
  have htagged : isTagged URLBase URLBase = true := by decide
  rw [searchList, List.append_eq_nil_iff, searchNode, List.append_eq_nil_iff] at h
  obtain ⟨⟨htag, hchildren⟩, -⟩ := h
  have hnew : searchList URLBase [.element URLBase [] [.text value]] =
      [.element URLBase [] [.text value]] := by
    have htext : searchList URLBase [.text value] = [] := rfl
    have hnil : searchList URLBase [] = [] := rfl
    rw [searchList, searchNode, if_pos htagged, htext, hnil]
    rfl
  rw [urlBase, searchList, searchNode, searchList_append, hchildren, hnew]
  by_cases hname : isTagged URLBase nodeName = true
  · rw [if_pos hname] at htag
    cases htag
  · rw [if_neg hname]
    rfl

/-! ## The alias -/

/-- The reference gives a path. -/
theorem removeDotSegments_head {path newAlias : CString} (h : removeDotSegments path = some newAlias) :
    '/' ∈ newAlias := by
  obtain ⟨stack, -, rfl⟩ := Option.map_eq_some_iff.mp h
  refine List.mem_append_left _ ?_
  rw [stackText]
  split
  · exact List.mem_cons_self ..
  · exact List.mem_cons_self ..

theorem climbsAbove_append {pre : List CString} (seg : CString) (h : climbsAbove 0 pre = true) :
    climbsAbove 0 (pre ++ [seg]) = true := by
  have hpre := (@foldlM_pushSegment_eq_none_iff [] pre).mpr h
  refine (@foldlM_pushSegment_eq_none_iff [] (pre ++ [seg])).mp ?_
  rw [List.foldlM_append, hpre]
  rfl

/-- Where the alias has no dots that stay, the source and the reference make the same of it. -/
theorem dotless_iff {more : CString} : Dotless ('/' :: more) ↔
    ∃ newAlias, removeDots true ('/' :: more) = some newAlias ∧
      removeDotSegments ('/' :: more) = some newAlias := by
  obtain ⟨pre, last, hsegs⟩ := exists_concat_pathSegments more
  have hequal := removeDots_eq_reference_iff hsegs
  have hnone : removeDotSegments ('/' :: more) = none ↔ climbsAbove 0 (pre ++ [last]) = true := by
    rw [removeDotSegments, hsegs, Option.map_eq_none_iff]
    exact foldlM_pushSegment_eq_none_iff
  have hends : EndsInDots (pre ++ [last]) ↔ IsDots last := by
    rw [EndsInDots, List.getLast?_concat]
    simp
  rw [Dotless, hsegs, hends]
  constructor
  · rintro ⟨hclimbs, hquery⟩
    cases href : removeDotSegments ('/' :: more) with
    | none =>
      rw [hnone.mp href] at hclimbs
      cases hclimbs
    | some newAlias =>
      refine ⟨newAlias, ?_, rfl⟩
      rw [← href]
      exact hequal.mpr fun hdots ↦ .inl (hquery hdots)
  · rintro ⟨newAlias, hsource, href⟩
    have hclimbs : ¬ climbsAbove 0 (pre ++ [last]) = true := by
      intro hclimbs
      cases href.symm.trans (hnone.mpr hclimbs)
    refine ⟨Bool.eq_false_iff.mpr hclimbs, fun hdots ↦ ?_⟩
    rcases hequal.mp (hsource.trans href.symm) hdots with hquery | hpre
    · exact hquery
    · exact absurd (climbsAbove_append last hpre) hclimbs

/-- The alias is new unless its name was taken. -/
theorem actualAlias_of_free {newAlias : CString} (hslash : '/' ∈ newAlias)
    (hfree : find newAlias c.aliases = none) : actualAlias c.aliases newAlias c.ae = newAlias := by
  rw [actualAlias, GetExtensionIndex, if_pos hslash]
  simp only [hfree]

theorem joined_slash {aliasName : CString} (hpath : path.head? = some '/') :
    ∃ more, joined path aliasName = '/' :: more := by
  obtain ⟨rest, rfl⟩ := List.head?_eq_some_iff.mp hpath
  rw [joined]
  split
  · exact ⟨_, rfl⟩
  · exact ⟨_, rfl⟩

/-! ## The `URLBase` of a document -/

theorem rooted_head (path : CString) : (rooted path).head? = some '/' := by
  rw [rooted]
  split_ifs with h
  · exact h
  · rfl

theorem Base.head (h : Base c scheme path) : path.head? = some '/' := by
  cases h with
  | missing => rfl
  | found => exact rooted_head _

theorem Base.unique (h : Base c scheme path) (h' : Base c scheme' path') :
    scheme = scheme' ∧ path = path' := by
  cases h with
  | missing h hne =>
    cases h' with
    | missing => exact ⟨rfl, rfl⟩
    | found h' _ _ =>
      rw [urlBase, h] at h'
      cases h'
  | found h hparse habs =>
    cases h' with
    | missing h' _ =>
      rw [urlBase, h'] at h
      cases h
    | found h' hparse' _ =>
      cases h.symm.trans h'
      cases hparse.symm.trans hparse'
      exact ⟨rfl, rfl⟩

/-- What is left of the document. -/
inductive Configured (c : Setup) :
    Except (Int × List Content) (List Content × CString) → Prop
  | error {code : Int} (h : ∀ scheme path, Base c scheme path → c.memory.urlStr = true →
      searchList URLBase c.doc = [] ∧ c.memory.textNode = false) : Configured c (.error (code, c.doc))
  | emptied {code : Int} {doc : List Content} {scheme path : CString} (hbase : Base c scheme path)
      (hmemory : c.memory.urlStr = true) (hfound : searchList URLBase c.doc ≠ [])
      (hvalue : c.memory.nodeValue = false) (hdoc : doc ≠ c.doc) : Configured c (.error (code, doc))
  | ok {nodeName : CString} {attributes : List (CString × CString)} {children rest : List Content}
      {scheme path : CString} (hbase : Base c scheme path) (hmemory : c.memory.urlStr = true)
      (hvalue : searchList URLBase c.doc ≠ [] → c.memory.nodeValue = true)
      (htext : searchList URLBase c.doc = [] → c.memory.textNode = true)
      (hurl : urlBase (.element nodeName attributes children :: rest) =
        some (serverUrl c scheme path))
      (hsame : .element nodeName attributes children :: rest = c.doc ↔
        urlBase c.doc = some (serverUrl c scheme path)) :
      Configured c (.ok (.element nodeName attributes children :: rest, path))

/-- The first node stays an element. -/
theorem setList_element (value : CString) (nodeName : CString)
    (attributes : List (CString × CString)) (children rest : List Content) :
    ∃ children' rest', setList value (.element nodeName attributes children :: rest) =
      .element nodeName attributes children' :: rest' := by
  rw [setList]
  split
  · exact ⟨_, _, rfl⟩
  · rw [setNode]
    split
    · exact ⟨_, _, rfl⟩
    · exact ⟨_, _, rfl⟩

theorem exists_element (c : Setup) (hne : c.doc ≠ []) : ∃ nodeName attributes children rest,
    c.doc = .element nodeName attributes children :: rest := by
  have helement := c.element
  revert hne helement
  rcases c.doc with _ | ⟨_ | value, rest⟩
  · exact fun hne _ ↦ absurd rfl hne
  · exact fun _ _ ↦ ⟨_, _, _, _, rfl⟩
  · exact fun _ helement ↦ absurd rfl (helement value rest)

/-- Without a `URLBase`, one is appended to the first node. -/
theorem set_url_missing (h : searchList URLBase c.doc = []) :
    ∃ r, set_url c = some r ∧ Configured c r := by
  have hnone : urlBase c.doc = none := by
    rw [urlBase, h]
    rfl
  have hhttp : "http".toList ++ "://".toList = "http://".toList := by decide
  rw [set_url, h]
  simp only
  split_ifs with hmemory htext
  · rcases hdoc : c.doc with _ | ⟨_ | value, rest⟩
    · refine ⟨_, rfl, hdoc ▸ .error fun scheme path hbase ↦ ?_⟩
      cases hbase with
      | missing _ hne => exact absurd hdoc hne
      | found h' _ _ => cases hnone.symm.trans h'
    · refine ⟨_, rfl, .ok (.missing h (hdoc ▸ List.cons_ne_nil _ _)) hmemory (absurd h) (fun _ ↦ htext)
        ?_ ?_⟩
      · rw [hdoc] at h
        rw [urlBase_appended h, serverUrl, hhttp]
      · refine iff_of_false (fun heq ↦ ?_) fun heq ↦ ?_
        · rw [hdoc] at heq
          have hlength := congrArg List.length (Content.element.inj (List.cons.inj heq).1).2.2
          rw [List.length_append, List.length_singleton] at hlength
          omega
        · cases hnone.symm.trans heq
    · exact absurd hdoc (c.element value rest)
  · rcases hdoc : c.doc with _ | ⟨_ | value, rest⟩
    · refine ⟨_, rfl, hdoc ▸ .error fun _ _ _ _ ↦ ⟨h, Bool.eq_false_iff.mpr htext⟩⟩
    · refine ⟨_, rfl, ?_⟩
      rw [List.dropLast_concat, ← hdoc]
      exact .error fun _ _ _ _ ↦ ⟨h, Bool.eq_false_iff.mpr htext⟩
    · exact absurd hdoc (c.element value rest)
  · exact ⟨_, rfl, .error fun _ _ _ hmemory' ↦ absurd hmemory' hmemory⟩

/-- The empty text is no absolute URL. -/
theorem ne_nil_of_absolute {uri : URI} (hparse : parseString c.env text = some (.ok uri))
    (habs : uri.type = .ABSOLUTE) : text ≠ [] := by
  rintro rfl
  cases hparse
  cases habs

/-- A `URLBase` that the document has is a text that was parsed. -/
theorem Base.parsed (h : Base c scheme path) (hurl : urlBase c.doc = some text) :
    ∃ uri, parseString c.env text = some (.ok uri) ∧ uri.type = .ABSOLUTE ∧
      scheme = uri.scheme.text text ∧ path = rooted (uri.pathquery.text text) := by
  cases h with
  | missing h _ =>
    rw [urlBase, h] at hurl
    cases hurl
  | found h hparse habs =>
    cases hurl.symm.trans h
    exact ⟨_, hparse, habs, rfl, rfl⟩

theorem urlBase_of_child {e : Content} {more : List Content}
    (h : searchList URLBase c.doc = e :: more) (hchild : firstChild e = some (.text text)) :
    urlBase c.doc = some text := by
  rw [urlBase, h, List.head?_cons, Option.bind_some, hchild]
  rfl

/-- The document with another text in its `URLBase`. -/
theorem Configured.replaced (hbase : Base c scheme path) (hmemory : c.memory.urlStr = true)
    (hvalue : c.memory.nodeValue = true) (hurl : urlBase c.doc = some text) :
    Configured c (.ok (setList (serverUrl c scheme path) c.doc, path)) := by
  have hne : c.doc ≠ [] := by
    intro hnil
    rw [hnil] at hurl
    cases hurl
  have hmissing : searchList URLBase c.doc ≠ [] := by
    intro hnil
    rw [urlBase, hnil] at hurl
    cases hurl
  obtain ⟨nodeName, attributes, children, rest, hdoc⟩ := exists_element c hne
  obtain ⟨children', rest', helement⟩ :=
    setList_element (serverUrl c scheme path) nodeName attributes children rest
  have hset := @urlBase_setList c.doc text (serverUrl c scheme path) hurl
  have hsame := @setList_same_iff c.doc text (serverUrl c scheme path) hurl
  rw [← @Option.some_inj _ text, ← hurl] at hsame
  rw [← hdoc] at helement
  rw [helement] at hset hsame ⊢
  exact .ok hbase hmemory (fun _ ↦ hvalue) (fun hnil ↦ absurd hnil hmissing) hset hsame

/-- The text of a `URLBase` is replaced. -/
theorem set_url_found {e : Content} {more : List Content}
    (h : searchList URLBase c.doc = e :: more) (hreadable : Readable c) :
    ∃ r, set_url c = some r ∧ Configured c r := by
  have hfound : searchList URLBase c.doc ≠ [] := h ▸ List.cons_ne_nil e more
  cases hchild : firstChild e with
  | none =>
    refine ⟨.error (UPNP_E_INVALID_DESC, c.doc), ?_, .error fun scheme path hbase ↦ ?_⟩
    · rw [set_url, h]
      simp only [hchild]
    · cases hbase with
      | missing h' _ => exact absurd h' hfound
      | found h' _ _ =>
        rw [urlBase, h, List.head?_cons, Option.bind_some, hchild] at h'
        cases h'
  | some child =>
    obtain ⟨text, rfl, hparse⟩ := hreadable e (by rw [h]; rfl) child hchild
    have hurl := urlBase_of_child h hchild
    rw [set_url, h]
    simp only [hchild, nodeValue]
    rcases hp : parseString c.env text with _ | _ | uri
    · exact absurd hp hparse
    · refine ⟨_, rfl, .error fun scheme path hbase ↦ ?_⟩
      obtain ⟨uri, hp', -⟩ := hbase.parsed hurl
      cases hp.symm.trans hp'
    · simp only
      split_ifs with habs hmemory hvalue
      · exact ⟨_, rfl, .replaced (.found hurl hp habs) hmemory hvalue hurl⟩
      · refine ⟨_, rfl, .emptied (.found hurl hp habs) hmemory hfound (Bool.eq_false_iff.mpr hvalue) ?_⟩
        intro heq
        exact ne_nil_of_absolute hp habs ((setList_same_iff hurl).mp heq)
      · exact ⟨_, rfl, .error fun _ _ _ hmemory' ↦ absurd hmemory' hmemory⟩
      · refine ⟨_, rfl, .error fun scheme path hbase ↦ ?_⟩
        obtain ⟨uri', hp', habs', -⟩ := hbase.parsed hurl
        cases hp.symm.trans hp'
        exact absurd habs' habs

/-- A `URLBase` that cannot be read is a fault. -/
theorem set_url_fault (h : ¬ Readable c) : set_url c = none := by
  simp only [Readable, not_forall, not_exists, not_and, not_not] at h
  obtain ⟨e, he, child, hchild, h⟩ := h
  obtain ⟨more, hsearch⟩ := List.head?_eq_some_iff.mp he
  rw [set_url, hsearch]
  simp only [Option.mem_def.mp hchild]
  cases child with
  | element => rfl
  | text text => simp only [nodeValue, h text rfl]

/-- What is done with a document that can be read. -/
theorem set_url_configured (h : Readable c) : ∃ r, set_url c = some r ∧ Configured c r := by
  cases hsearch : searchList URLBase c.doc with
  | nil => exact set_url_missing hsearch
  | cons e more => exact set_url_found hsearch h

/-! ## Registering -/

theorem DumpDocument_element (nodeName : CString) (attributes : List (CString × CString))
    (children rest : List Content) : ∃ text,
      DumpDocument (.document (.element nodeName attributes children :: rest)) = some text := by
  refine ⟨dumpSiblings (.element nodeName attributes children :: rest), ?_⟩
  rw [DumpDocument, membuffer_detach, if_neg]
  rw [dumpSiblings, dump_doc]
  exact List.cons_ne_nil _ _

theorem calc_alias_eq_ok_iff {memory : Memory} {aliasName rootPath newAlias : CString} :
    calc_alias memory aliasName rootPath = .ok newAlias ↔ memory.newAlias = true ∧
      removeDots memory.segments (joined rootPath aliasName) = some newAlias := by
  rw [calc_alias]
  constructor
  · intro h
    by_cases hmemory : memory.newAlias = true
    · rw [if_pos hmemory] at h
      split at h
      · next hremove =>
        cases h
        exact ⟨hmemory, hremove⟩
      · cases h
    · rw [if_neg hmemory] at h
      cases h
  · rintro ⟨hmemory, hremove⟩
    rw [if_pos hmemory, hremove]

theorem segments_of_removeDots {newAlias : CString}
    (h : removeDots c.memory.segments path = some newAlias) : c.memory.segments = true := by
  by_contra hno
  rw [removeDots, if_neg hno] at h
  cases h

theorem Succeeds.registers (h : Succeeds c path) (hpath : path.head? = some '/') :
    Registers c path := by
  obtain ⟨more, hjoined⟩ := @joined_slash path c.aliasName hpath
  have hdotless := h.dotless
  rw [hjoined, dotless_iff] at hdotless
  obtain ⟨newAlias, hremove, -⟩ := hdotless
  refine ⟨h.entity, h.newAlias, ?_, h.record⟩
  rw [hjoined, h.segments, hremove]
  exact Option.some_ne_none newAlias

/-- A failure that registers nothing is right if the document is the same. -/
theorem failed_right_iff (hpath : path.head? = some '/') (hno : ¬ Registers c path) (code : Int)
    (deleted : Bool) : Right c (.failed code doc c.aliases deleted) ↔
      Succeeds c path ∨ doc = c.doc ∧ ¬ Registers c path := by
  constructor
  · rintro ⟨hsame, -⟩
    exact .inr ⟨hsame, hno⟩
  · rintro (h | ⟨hsame, -⟩)
    · exact absurd (h.registers hpath) hno
    · exact ⟨hsame, fun _ ↦ rfl⟩

/-- A success is right if the dots are removed from the alias as the reference does it. -/
theorem done_right_iff {newAlias : CString} (hbase : Base c scheme path)
    (hurl : urlBase doc = some (serverUrl c scheme path))
    (hprint : DumpDocument (.document doc) = some text) (hregisters : Registers c path)
    (hdesc : c.memory.descURL = true) (hcalc : calc_alias c.memory c.aliasName path = .ok newAlias) :
    Right c (.done doc (addEntity newAlias text c.ae c.serial c.aliases)
      (actualAlias c.aliases newAlias c.ae)
      ("http://".toList ++ c.ipPort ++ actualAlias c.aliases newAlias c.ae)) ↔ Succeeds c path := by
  obtain ⟨more, hjoined⟩ := @joined_slash path c.aliasName hbase.head
  have hremove := (calc_alias_eq_ok_iff.mp hcalc).2
  constructor
  · rintro ⟨-, ⟨scheme', path', newAlias', hbase', -, hcalc', href, -⟩, -⟩
    obtain ⟨-, rfl⟩ := hbase.unique hbase'
    cases hcalc.symm.trans hcalc'
    have hsegments := segments_of_removeDots hremove
    refine ⟨hregisters.entity, hregisters.newAlias, hsegments, hregisters.record, hdesc, ?_⟩
    rw [hsegments, hjoined] at hremove
    rw [hjoined] at href ⊢
    exact dotless_iff.mpr ⟨newAlias, hremove, href⟩
  · intro h
    have hdotless := h.dotless
    rw [hjoined, dotless_iff] at hdotless
    obtain ⟨newAlias', hremove', href⟩ := hdotless
    rw [h.segments, hjoined, hremove'] at hremove
    cases hremove
    rw [← hjoined] at href
    refine ⟨rfl, ⟨scheme, path, newAlias, hbase, hurl, hcalc, href, rfl, ?_⟩, text, hprint, rfl⟩
    exact actualAlias_of_free (removeDotSegments_head href)

/-- Behind `config_url`, what is left is right if nothing fails, or if the document is the same and
nothing is registered. -/
theorem register_right_iff (hbase : Base c scheme path)
    (hurl : urlBase doc = some (serverUrl c scheme path))
    (hprint : ∃ text, DumpDocument (.document doc) = some text) :
    Right c (register c doc path) ↔ Succeeds c path ∨ doc = c.doc ∧ ¬ Registers c path := by
  obtain ⟨text, hprint⟩ := hprint
  have hpath := hbase.head
  rw [register, convert_to_http_entity]
  by_cases hentity : c.memory.entity = true
  · rw [if_pos hentity, hprint]
    simp only
    cases hcalc : calc_alias c.memory c.aliasName path with
    | error code =>
      refine failed_right_iff hpath (fun h ↦ ?_) code true
      obtain ⟨newAlias, hremove⟩ := Option.ne_none_iff_exists'.mp h.removeDots
      cases hcalc.symm.trans (calc_alias_eq_ok_iff.mpr ⟨h.newAlias, hremove⟩)
    | ok newAlias =>
      obtain ⟨hmemory, hremove⟩ := calc_alias_eq_ok_iff.mp hcalc
      simp only
      by_cases hrecord : c.memory.record = true
      · have hregisters : Registers c path :=
          ⟨hentity, hmemory, hremove ▸ Option.some_ne_none newAlias, hrecord⟩
        rw [if_pos hrecord, or_iff_left fun h ↦ h.2 hregisters]
        by_cases hdesc : c.memory.descURL = true
        · rw [if_pos hdesc]
          exact done_right_iff hbase hurl hprint hregisters hdesc hcalc
        · rw [if_neg hdesc]
          refine iff_of_false ?_ fun h ↦ hdesc h.descURL
          -- the entity is in the list, and is deleted
          rintro ⟨-, hlist⟩
          have hlength := congrArg List.length (hlist rfl)
          rw [addEntity, List.length_append, List.length_singleton] at hlength
          omega
      · rw [if_neg hrecord]
        exact failed_right_iff hpath (fun h ↦ hrecord h.record) _ true
  · rw [if_neg hentity]
    exact failed_right_iff hpath (fun h ↦ hentity h.entity) _ false

theorem configured_right_iff {r : Except (Int × List Content) (List Content × CString)}
    (hipStr : c.memory.ipStr = true) (hr : set_url c = some r) :
    ConfiguresRight c ↔ Right c (finish c r) := by
  rw [ConfiguresRight, Configure_Urlbase, config_url, if_pos hipStr, hr, Option.map_some]
  constructor
  · rintro ⟨_, heq, h⟩
    cases heq
    exact h
  · exact fun h ↦ ⟨_, rfl, h⟩

def climbingDoc : List Content := [.element "r".toList [] []]

theorem climbingDoc_element (value : CString) (rest : List Content) :
    climbingDoc ≠ .text value :: rest := by
  intro h
  cases h

/-- A document without a `URLBase`, whose alias climbs above the root. -/
def climbing : Setup where
  doc := climbingDoc
  ipPort := "10.0.0.1:80".toList
  aliasName := "../x".toList
  aliases := []
  ae := 0
  serial := 0
  env := ⟨true, fun _ ↦ none⟩
  memory := ⟨true, true, true, true, true, true, true, true, true⟩
  element := climbingDoc_element

/-- The call fails, and the `URLBase` stays in the document. -/
theorem climbing_fails : Configure_Urlbase climbing = some (.failed UPNP_E_INVALID_URL
    [.element "r".toList [] [.element URLBase [] [.text "http://10.0.0.1:80/".toList]]] [] true) := rfl

end Upnp.Api.Urlbase
