import Mathlib.Data.List.TakeWhile
import Upnp.Xml.Markup

/-!
# Tags with attributes

`getNextNode` on a tag with any number of attributes.  An empty value is read as its quote, and
behind an empty-element tag content is not read from where it begins: only a `>` sets `SavePtr`.
-/

namespace Upnp.Xml

open Upnp.Lib

/-- A computation that ends well takes its steps well. -/
theorem bind_ok {ε α β : Type} {x : Except ε α} {f : α → Except ε β} {b : β}
    (h : x >>= f = .ok b) : ∃ a, x = .ok a ∧ f a = .ok b :=
  match x, h with
  | .ok a, h => ⟨a, rfl, h⟩

namespace Parser

variable {s s' s'' : Parser} {ws name text value rest : CString} {fuel : Nat} {n n' : NextNode}

/-! ## The parser stays in its buffer -/

/-- The pointers are in the buffer. -/
structure Inside (s : Parser) : Prop where
  currPtr : s.currPtr <:+ s.parseBuff
  savePtr : ∀ p ∈ s.savePtr, p <:+ s.parseBuff

/-- What a token leaves as it is. -/
structure Moves (s s' : Parser) : Prop where
  parseBuff : s'.parseBuff = s.parseBuff
  inAttrib : s'.inAttrib = s.inAttrib
  inside : s.Inside → s'.Inside

theorem Moves.refl (s : Parser) : s.Moves s := ⟨rfl, rfl, id⟩

theorem Moves.trans (h : s.Moves s') (h' : s'.Moves s'') : s.Moves s'' where
  parseBuff := h'.parseBuff.trans h.parseBuff
  inAttrib := h'.inAttrib.trans h.inAttrib
  inside := h'.inside ∘ h.inside

theorem take_moves {length : Nat} (h : s.take length = .ok s') : s.Moves s' := by
  rw [take] at h
  cases htoken : copyToken s.currPtr length with
  | none =>
    rw [htoken] at h
    cases h
  | some token =>
    rw [htoken] at h
    cases h
    exact ⟨rfl, rfl, fun hin ↦ ⟨(List.drop_suffix ..).trans hin.currPtr, hin.savePtr⟩⟩

theorem skipUntilString_suffix {key : CString} {p q : CString}
    (h : skipUntilString key p = .ok q) : q <:+ p := by
  induction p with
  | nil => cases h
  | cons c p ih =>
    rw [skipUntilString] at h
    split_ifs at h
    · cases h
      exact List.drop_suffix ..
    · exact (ih h).trans (List.suffix_cons c p)

theorem skipMarkup_suffix {p q : CString} {skipped : Bool}
    (h : skipMarkup fuel p = .ok (q, skipped)) : q <:+ p := by
  induction fuel generalizing p q skipped with
  | zero => cases h
  | succ fuel ih =>
    rw [skipMarkup] at h
    by_cases hbegin : (BEGIN_COMMENT.isPrefixOf p || BEGIN_PROCESSING.isPrefixOf p ||
        BEGIN_DOCTYPE.isPrefixOf p) = true
    · rw [if_pos hbegin] at h
      obtain ⟨r, hkey, h⟩ := bind_ok h
      obtain ⟨⟨r', b⟩, hmore, h⟩ := bind_ok h
      cases h
      exact (ih hmore).trans ((List.dropWhile_suffix _).trans (skipUntilString_suffix hkey))
    · rw [if_neg hbegin] at h
      cases h
      exact List.suffix_refl p

theorem takeContent_moves (h : s.takeContent = .ok s') : s.Moves s' := by
  rw [takeContent] at h
  cases hsave : s.savePtr with
  | none =>
    rw [hsave] at h
    cases h
  | some savePtr =>
    rw [hsave] at h
    have hmoves : s.Moves { s with tagVal := false, currPtr := savePtr.drop 1 } :=
      ⟨rfl, rfl, fun hin ↦ ⟨(List.drop_suffix ..).trans (hin.savePtr savePtr hsave), hin.savePtr⟩⟩
    simp only [bind, Except.bind] at h
    split at h
    · cases h
    · split at h
      · split_ifs at h
        cases h
        rw [hsave] at hmoves
        exact hmoves
      · rw [hsave] at hmoves
        exact hmoves.trans (take_moves h)

theorem tokenAt_moves (h : s.tokenAt = .ok s') : s.Moves s' := by
  have htag (t : Bool) : s.Moves { s with tagVal := t } := ⟨rfl, rfl, fun hin ↦ ⟨hin.1, hin.2⟩⟩
  rw [tokenAt] at h
  split at h
  · cases h
    exact .refl s
  · next c rest hcurr =>
    split_ifs at h
    · split at h
      · cases h
      · split_ifs at h
        · exact (htag false).trans (take_moves h)
        · exact (htag false).trans (take_moves h)
    · exact (htag true).trans (take_moves h)
    · exact takeContent_moves h
    · have hsave : s.Moves { s with savePtr := some s.currPtr, tagVal := true } :=
        ⟨rfl, rfl, fun hin ↦ ⟨hin.currPtr, fun p hp ↦ Option.some.inj hp ▸ hin.currPtr⟩⟩
      exact hsave.trans (take_moves h)
    · exact takeContent_moves h
    · exact take_moves h
    · split at h
      · cases h
      · split_ifs at h
        exact take_moves h

theorem getNextToken_moves (h : s.getNextToken = .ok s') : s.Moves s' := by
  have hclear : s.Moves { s with tokBuf := [] } := ⟨rfl, rfl, fun hin ↦ ⟨hin.1, hin.2⟩⟩
  refine hclear.trans ?_
  rw [getNextToken] at h
  generalize ({ s with tokBuf := [] } : Parser) = s at h
  simp only at h
  split at h
  · cases h
    exact .refl _
  · next c rest hcurr =>
    split_ifs at h
    · exact take_moves h
    · cases h
      refine ⟨rfl, rfl, fun hin ↦ ⟨(List.suffix_cons c rest).trans (hcurr ▸ hin.currPtr), hin.2⟩⟩
    · cases hskip : skipMarkup (s.currPtr.length + 1) s.currPtr with
      | error fault =>
        rw [hskip] at h
        cases h
      | ok skipped =>
        rw [hskip] at h
        have hmoves : s.Moves { s with currPtr := skipped.1, tagVal := s.tagVal && !skipped.2 } :=
          ⟨rfl, rfl, fun hin ↦ ⟨(skipMarkup_suffix hskip).trans hin.currPtr, hin.2⟩⟩
        exact hmoves.trans (tokenAt_moves h)

theorem ignoreWhiteSpaces_moves (h : s.ignoreWhiteSpaces fuel = .ok s') : s.Moves s' := by
  induction fuel generalizing s with
  | zero => cases h
  | succ fuel ih =>
    rw [ignoreWhiteSpaces] at h
    split at h
    · cases h
      exact .refl _
    · split_ifs at h
      · obtain ⟨s₁, htoken, h⟩ := bind_ok h
        exact (getNextToken_moves htoken).trans (ih h)
      · cases h
        exact .refl _

theorem nextToken_moves (h : s.nextToken = .ok s') : s.Moves s' := by
  obtain ⟨s₁, hwhite, h⟩ := bind_ok h
  exact (ignoreWhiteSpaces_moves hwhite).trans (getNextToken_moves h)

/-- What holds between two nodes. -/
structure Held (s : Parser) : Prop where
  inAttrib : s.inAttrib = false
  inside : s.Inside

theorem Held.moves (h : s.Held) (hmoves : s.Moves s') : s'.Held :=
  ⟨hmoves.inAttrib.trans h.inAttrib, hmoves.inside h.inside⟩

theorem Held.rewind (h : s.Held) {length : Nat} (hrewind : s.rewindCurrentPtr length = .ok s') :
    s'.Held := by
  rw [rewindCurrentPtr] at hrewind
  split_ifs at hrewind
  cases hrewind
  exact ⟨h.inAttrib, List.drop_suffix .., h.inside.savePtr⟩

theorem Held.readAttribute (h : s.Held) (hread : s.readAttribute name = .ok (s', n)) :
    s'.Held ∧ n.nodeValue ≠ some [] := by
  obtain ⟨s₁, h₁, hread⟩ := bind_ok hread
  obtain ⟨s₂, h₂, hread⟩ := bind_ok hread
  obtain ⟨s₃, h₃, hread⟩ := bind_ok hread
  have hs₂ := (h.moves (nextToken_moves h₁)).moves (nextToken_moves h₂)
  have hs₃ := (getNextToken_moves h₃).inside ⟨hs₂.inside.1, hs₂.inside.2⟩
  dsimp only at hread
  split_ifs at hread with hne
  · cases hread
  obtain ⟨s₄, h₄, hread⟩ := bind_ok hread
  cases hread
  have hs₄ := @Held.moves { s₃ with inAttrib := false } s₄ ⟨rfl, hs₃.1, hs₃.2⟩ (getNextToken_moves h₄)
  exact ⟨⟨hs₄.inAttrib, hs₄.inside.1, hs₄.inside.2⟩, fun heq ↦ hne (Option.some.inj heq)⟩

/-- A pass keeps the pointers, and finds no empty value. -/
theorem Held.nodePass (h : s.Held) {returns : Bool} (hvalue : n.nodeValue ≠ some [])
    (hpass : s.nodePass n = .ok (s', n', returns)) : s'.Held ∧ n'.nodeValue ≠ some [] := by
  obtain ⟨s₁, h₁, hpass⟩ := bind_ok hpass
  have hs₁ := h.moves (nextToken_moves h₁)
  dsimp only at hpass
  split_ifs at hpass with hlt hgt hone hend hcomplete hnode hempty
  · obtain ⟨s₂, h₂, hpass⟩ := bind_ok hpass
    have hs₂ := hs₁.moves (nextToken_moves h₂)
    split_ifs at hpass
    · cases hpass
    cases hpass
    exact ⟨⟨hs₂.inAttrib, hs₂.inside.1, hs₂.inside.2⟩, fun heq ↦ by cases heq⟩
  · cases hpass
    exact ⟨⟨hs₁.inAttrib, hs₁.inside.1, hs₁.inside.2⟩, hvalue⟩
  · cases hpass
    exact ⟨⟨hs₁.inAttrib, hs₁.inside.1, hs₁.inside.2⟩, hvalue⟩
  · obtain ⟨s₂, h₂, hpass⟩ := bind_ok hpass
    have hs₂ := hs₁.moves (nextToken_moves h₂)
    split_ifs at hpass
    · cases hpass
    cases hpass
    exact ⟨hs₂, fun heq ↦ by cases heq⟩
  · obtain ⟨s₂, h₂, hpass⟩ := bind_ok hpass
    cases hpass
    exact ⟨hs₁.rewind h₂, hvalue⟩
  · cases hpass
    exact ⟨⟨hs₁.inAttrib, hs₁.inside.1, hs₁.inside.2⟩, fun heq ↦ by cases heq⟩
  · cases hpass
    exact ⟨hs₁, hvalue⟩
  · cases hpass
    exact ⟨hs₁, fun heq ↦ hempty (Option.some.inj heq)⟩
  · obtain ⟨s₂, h₂, hpass⟩ := bind_ok hpass
    cases hpass
    exact ⟨hs₁.rewind h₂, hvalue⟩
  · obtain ⟨⟨s₂, n₂⟩, h₂, hpass⟩ := bind_ok hpass
    cases hpass
    exact hs₁.readAttribute h₂

theorem Held.getNextNode (h : s.Held) (hvalue : n.nodeValue ≠ some [])
    (hnode : s.getNextNode fuel n = .ok (s', n')) : s'.Held ∧ n'.nodeValue ≠ some [] := by
  induction fuel generalizing s n with
  | zero =>
    rw [Parser.getNextNode] at hnode
    split_ifs at hnode
    cases hnode
    exact ⟨h, hvalue⟩
  | succ fuel ih =>
    rw [Parser.getNextNode] at hnode
    split_ifs at hnode
    · cases hnode
      exact ⟨h, hvalue⟩
    · obtain ⟨⟨s₁, n₁, returns⟩, hpass, hnode⟩ := bind_ok hnode
      obtain ⟨h₁, hvalue₁⟩ := h.nodePass hvalue hpass
      cases returns with
      | true =>
        cases hnode
        exact ⟨h₁, hvalue₁⟩
      | false => exact ih h₁ hvalue₁ hnode

/-- The states between two nodes of a buffer. -/
inductive Reached (parseStr : CString) : Parser → Prop
  | new {s : Parser} (h : Parser.new parseStr = .ok s) : Reached parseStr s
  | node {s s' : Parser} {n' : NextNode} {fuel : Nat} (h : Reached parseStr s)
    (hnode : s.getNextNode fuel .reset = .ok (s', n')) : Reached parseStr s'

theorem Reached.held {parseStr : CString} (h : Reached parseStr s) : s.Held := by
  induction h with
  | new h =>
    rw [Parser.new] at h
    split_ifs at h
    cases h
    exact ⟨rfl, List.suffix_refl _, fun p hp ↦ by cases hp⟩
  | node _ hnode ih => exact (ih.getNextNode (fun heq ↦ by cases heq) hnode).1

end Parser

/-! ## Tags -/

/-- An attribute, with the white space in it, its value as it is written and as it is meant. -/
structure Attribute where
  ws : CString
  key : CString
  ws₁ : CString
  ws₂ : CString
  text : CString
  value : CString
  ws_ne_nil : ws ≠ []
  ws_white : ∀ c ∈ ws, c ∈ WHITESPACE
  ws₁_white : ∀ c ∈ ws₁, c ∈ WHITESPACE
  ws₂_white : ∀ c ∈ ws₂, c ∈ WHITESPACE
  isName : IsName key
  quote_not_mem : '"' ∉ text
  unescapes : Unescapes text value

/-- A start tag, or an empty-element tag. -/
structure Tag where
  name : CString
  attributes : List Attribute
  ws : CString
  complete : Bool
  isName : IsName name
  ws_white : ∀ c ∈ ws, c ∈ WHITESPACE

namespace Attribute

/-- The attribute in front of `rest`. -/
def write (a : Attribute) (rest : CString) : CString :=
  a.ws ++ (a.key ++ (a.ws₁ ++ '=' :: (a.ws₂ ++ '"' :: (a.text ++ '"' :: rest))))

def node (a : Attribute) : NextNode := ⟨.ATTRIBUTE_NODE, some a.key, some a.value, false⟩

end Attribute

namespace Tag

/-- The end of the tag in front of `rest`. -/
def writeEnd (t : Tag) (rest : CString) : CString :=
  t.ws ++ if t.complete then '/' :: '>' :: rest else '>' :: rest

/-- The tag in front of `rest`. -/
def write (t : Tag) (rest : CString) : CString :=
  '<' :: (t.name ++ t.attributes.foldr Attribute.write (t.writeEnd rest))

/-- The element with its attributes, and its end where the tag has no content. -/
def nodes (t : Tag) : List NextNode :=
  ⟨.ELEMENT_NODE, some t.name, none, false⟩ :: (t.attributes.map Attribute.node ++
    if t.complete then [⟨.ELEMENT_NODE, some t.name, none, true⟩] else [])

theorem writeEnd_complete {t : Tag} {rest : CString} (h : t.complete = true) :
    t.writeEnd rest = t.ws ++ '/' :: '>' :: rest := by
  rw [writeEnd, h]
  rfl

theorem writeEnd_open {t : Tag} {rest : CString} (h : t.complete = false) :
    t.writeEnd rest = t.ws ++ '>' :: rest := by
  rw [writeEnd, h]
  rfl

end Tag

/-- What is behind a tag is content: it does not begin as a tag or the end of one. -/
def beginsContent (p : CString) : Bool :=
  let p := p.dropWhile (· ∈ WHITESPACE)
  decide (p ≠ []) && decide (p.head? ≠ some '<') && decide (p.head? ≠ some '>') &&
    !"/>".toList.isPrefixOf p

namespace Parser

/-- Where the next token is read from. -/
def tokenFrom (s : Parser) : Option CString :=
  if s.tagVal && beginsContent s.currPtr then s.savePtr.map (·.drop 1) else some s.currPtr

/-- The nodes that are found, one after the other, and what is left. -/
inductive Yields : Parser → List NextNode → Parser → Prop
  | nil (s : Parser) : Yields s [] s
  | cons {s s' s'' : Parser} {n : NextNode} {ns : List NextNode} {fuel : Nat}
    (hnode : s.getNextNode fuel .reset = .ok (s', n)) (h : Yields s' ns s'') :
    Yields s (n :: ns) s''

/-- The `>` behind attributes is passed over when the next node is asked for. -/
def Closes (t : Tag) (s s' : Parser) : Prop :=
  if t.attributes ≠ [] ∧ t.complete = false then s.nodePass .reset = .ok (s', .reset, false)
  else s' = s

/-- The tag is read: its nodes are found, and the token behind it is read from there. -/
def ReadsTag (s : Parser) (t : Tag) (rest : CString) : Prop :=
  ∃ s₁ s₂, s.Yields t.nodes s₁ ∧ Closes t s₁ s₂ ∧ s₂.tokenFrom = some rest

/-- No value is empty, and no content is behind an empty-element tag, unless `SavePtr` is set to what
is in front of it. -/
def Clear (s : Parser) (t : Tag) (rest : CString) : Prop :=
  (∀ a ∈ t.attributes, a.text ≠ []) ∧
    (t.complete = true → beginsContent rest = true → s.savePtr.map (·.drop 1) = some rest)

variable {s s' s'' : Parser} {ws name rest : CString} {fuel : Nat} {n : NextNode} {t : Tag}

/-- Content is read from behind `SavePtr`. -/
theorem nextToken_content (hattr : s.inAttrib = false)
    (hcontent : (s.tagVal && beginsContent s.currPtr) = true) : s.nextToken =
      takeContent { s with tokBuf := [], currPtr := s.currPtr.dropWhile (· ∈ WHITESPACE) } := by
  rw [Bool.and_eq_true] at hcontent
  obtain ⟨htag, hcontent⟩ := hcontent
  simp only [beginsContent, Bool.and_eq_true, decide_eq_true_eq, Bool.not_eq_true'] at hcontent
  obtain ⟨⟨⟨hne, hlt⟩, hgt⟩, hslash⟩ := hcontent
  have hws : ∀ c ∈ s.currPtr.takeWhile (· ∈ WHITESPACE), c ∈ WHITESPACE := fun c hc ↦
    of_decide_eq_true (List.mem_takeWhile_imp (p := fun c ↦ decide (c ∈ WHITESPACE)) hc)
  have hwhite : ∀ c ∈ (s.currPtr.dropWhile (· ∈ WHITESPACE)).head?, c ∉ WHITESPACE := by
    intro c hc hmem
    have hnot := List.head?_dropWhile_not (fun c ↦ decide (c ∈ WHITESPACE)) s.currPtr
    rw [Option.mem_def.mp hc] at hnot
    exact absurd (decide_eq_true hmem) (Bool.eq_false_iff.mp hnot)
  rw [Parser.nextToken_eq hattr hws hwhite List.takeWhile_append_dropWhile.symm]
  obtain ⟨c, more, heq⟩ := List.exists_cons_of_ne_nil hne
  rw [heq] at hlt hgt hslash hwhite ⊢
  have hlt' : c ≠ '<' := fun h ↦ hlt (congrArg some h)
  have hgt' : c ≠ '>' := fun h ↦ hgt (congrArg some h)
  rw [@getNextToken_eq { s with currPtr := c :: more } more hattr c rfl (hwhite c rfl) (.inl hlt'),
    tokenAt]
  simp only [if_neg hlt', if_neg hgt', htag, if_true]
  by_cases hs : c = '/'
  · have hmore : more.head? ≠ some '>' := by
      intro hhead
      obtain ⟨more', rfl⟩ := List.head?_eq_some_iff.mp hhead
      rw [hs] at hslash
      cases hslash
    rw [if_pos hs, if_neg hmore]
  · rw [if_neg hs]

/-! ## The end of a tag -/

theorem nextToken_gt (hattr : s.inAttrib = false) (hws : ∀ c ∈ ws, c ∈ WHITESPACE)
    (hcurr : s.currPtr = ws ++ '>' :: rest) : s.nextToken = .ok { s with
      tokBuf := ">".toList, currPtr := rest, savePtr := some ('>' :: rest), tagVal := true } := by
  rw [Parser.nextToken_eq hattr hws (fun c hc ↦ by cases hc; decide) hcurr]
  exact @getNextToken_gt { s with currPtr := '>' :: rest } _ hattr rfl

theorem nextToken_completeTag (hattr : s.inAttrib = false) (hws : ∀ c ∈ ws, c ∈ WHITESPACE)
    (hcurr : s.currPtr = ws ++ '/' :: '>' :: rest) :
    s.nextToken = .ok { s with tokBuf := "/>".toList, currPtr := rest, tagVal := true } := by
  rw [Parser.nextToken_eq hattr hws (fun c hc ↦ by cases hc; decide) hcurr]
  exact @getNextToken_completeTag { s with currPtr := '/' :: '>' :: rest } _ hattr rfl

/-- The end of an empty-element tag is found as the end of the element. -/
theorem getNextNode_completeTag (hattr : s.inAttrib = false) (hws : ∀ c ∈ ws, c ∈ WHITESPACE)
    (hcurr : s.currPtr = ws ++ '/' :: '>' :: rest) (fuel : Nat) :
    s.getNextNode (fuel + 1) .reset = .ok ({ s with
      tokBuf := "/>".toList, currPtr := rest, tagVal := true, attrFound := true
      atLeastOneAttrFound := false }, ⟨.ELEMENT_NODE, some s.lastElem, none, true⟩) := by
  refine getNextNode_return ?_
    (nodePass_completeTag_token (nextToken_completeTag hattr hws hcurr) rfl)
  rw [hcurr]
  exact List.append_ne_nil_of_right_ne_nil _ (List.cons_ne_nil _ _)

/-- Behind the name of a tag, its end is left for the next node. -/
theorem nodePass_completeTag_rewind (hattr : s.inAttrib = false) (hws : ∀ c ∈ ws, c ∈ WHITESPACE)
    (hcurr : s.currPtr = ws ++ '/' :: '>' :: rest) (hsuffix : s.currPtr <:+ s.parseBuff)
    (hnode : n.nodeType = .ELEMENT_NODE) : s.nodePass n = .ok ({ s with
      tokBuf := "/>".toList, currPtr := '/' :: '>' :: rest, tagVal := true },
      { n with isEnd := false }, true) := by
  have htoken := nextToken_completeTag hattr hws hcurr
  have hsuffix' : "/>".toList ++ rest <:+ s.parseBuff := by
    rw [hcurr] at hsuffix
    exact (List.suffix_append ..).trans hsuffix
  have hrewind := @rewindCurrentPtr_eq { s with
    tokBuf := "/>".toList, currPtr := rest, tagVal := true } "/>".toList hsuffix'
  have hlt : "/>".toList ≠ "<".toList := by decide
  have hgt : "/>".toList ≠ ">".toList := by decide
  have hend : "/>".toList ≠ "</".toList := by decide
  rw [nodePass]
  simp only [htoken, bind, Except.bind, if_neg hlt, if_neg hgt, if_neg hend, if_true, hnode,
    true_or, hrewind]
  rfl

/-! ## The attributes -/

/-- Inside a tag, behind its name or an attribute. -/
structure InTag (s : Parser) (savePtr : Option CString) (name p : CString) : Prop where
  inAttrib : s.inAttrib = false
  tagVal : s.tagVal = false
  attrFound : s.attrFound = true
  savePtr : s.savePtr = savePtr
  lastElem : s.lastElem = name
  currPtr : s.currPtr = p

/-- An attribute is found. -/
theorem InTag.attribute {save : Option CString} {a : Attribute}
    (h : s.InTag save name (a.write rest)) (hne : a.text ≠ []) :
    ∃ s', s.getNextNode 1 .reset = .ok (s', a.node) ∧ s'.InTag save name rest ∧
      s'.atLeastOneAttrFound = true := by
  have hpass := nodePass_attribute h.inAttrib h.tagVal h.attrFound a.ws_white a.isName a.ws₁_white
    a.ws₂_white a.quote_not_mem a.unescapes hne (a.unescapes.ne_nil hne) h.currPtr
    (show NextNode.reset.nodeType ≠ .ELEMENT_NODE by decide)
  have hcurr : s.currPtr ≠ [] := by
    rw [h.currPtr, Attribute.write]
    exact List.append_ne_nil_of_left_ne_nil a.ws_ne_nil _
  refine ⟨_, getNextNode_return hcurr hpass, ?_, rfl⟩
  exact ⟨h.inAttrib, h.tagVal, h.attrFound, h.savePtr, h.lastElem, rfl⟩

/-- The attributes are found, in their order. -/
theorem InTag.attributes {save : Option CString} (as : List Attribute)
    (h : s.InTag save name (as.foldr Attribute.write rest)) (hne : ∀ a ∈ as, a.text ≠ []) :
    ∃ s', s.Yields (as.map Attribute.node) s' ∧ s'.InTag save name rest ∧
      (as ≠ [] → s'.atLeastOneAttrFound = true) := by
  induction as generalizing s with
  | nil => exact ⟨s, .nil s, h, fun hnil ↦ absurd rfl hnil⟩
  | cons a as ih =>
    obtain ⟨s₁, hnode, hin, hone⟩ := h.attribute (hne a (List.mem_cons_self ..))
    obtain ⟨s₂, hyields, hin₂, hone₂⟩ := ih hin fun b hb ↦ hne b (List.mem_cons_of_mem _ hb)
    refine ⟨s₂, .cons hnode hyields, hin₂, fun _ ↦ ?_⟩
    cases as with
    | nil =>
      cases hyields
      exact hone
    | cons b as => exact hone₂ (List.cons_ne_nil b as)

theorem Yields.append {ns ms : List NextNode} (h : s.Yields ns s') (h' : s'.Yields ms s'') :
    s.Yields (ns ++ ms) s'' := by
  induction h with
  | nil => exact h'
  | cons hnode _ ih => exact .cons hnode (ih h')

theorem getNextNode_more {r : Parser × NextNode} (h : s.getNextNode fuel n = .ok r) (more : Nat) :
    s.getNextNode (fuel + more) n = .ok r := by
  induction more with
  | zero => exact h
  | succ more ih => exact getNextNode_mono ih

/-- The nodes that are found are determined. -/
theorem Yields.unique {ns : List NextNode} (h : s.Yields ns s') (h' : s.Yields ns s'') : s' = s'' := by
  induction h with
  | nil =>
    cases h'
    rfl
  | @cons s s₁ s' n ns fuel hnode _ ih =>
    cases h' with
    | @cons _ s₂ _ _ _ fuel' hnode' h' =>
      have heq := (getNextNode_more hnode fuel').symm.trans
        (Nat.add_comm fuel fuel' ▸ getNextNode_more hnode' fuel)
      cases heq
      exact ih h'

theorem Closes.pass (hattributes : t.attributes ≠ []) (hcomplete : t.complete = false)
    (hpass : s.nodePass .reset = .ok (s', .reset, false)) : Closes t s s' := by
  rw [Closes, if_pos ⟨hattributes, hcomplete⟩]
  exact hpass

theorem Closes.unique (h : Closes t s s') (h' : Closes t s s'') : s' = s'' := by
  rw [Closes] at h h'
  split_ifs at h h'
  · cases h.symm.trans h'
    rfl
  · exact h.trans h'.symm

/-- No node that is found has an empty value. -/
theorem Yields.value {ns : List NextNode} (h : s.Yields ns s') (hs : s.Held) :
    ∀ n ∈ ns, n.nodeValue ≠ some [] := by
  induction h with
  | nil =>
    intro n hn
    cases hn
  | cons hnode _ ih =>
    obtain ⟨hs', hvalue⟩ := hs.getNextNode (fun heq ↦ by cases heq) hnode
    intro m hm
    rcases List.mem_cons.mp hm with rfl | hm
    · exact hvalue
    · exact ih hs' m hm

/-! ## The tag -/

/-- What is left behind a tag without empty values. -/
structure Left (s : Parser) (t : Tag) (rest : CString) (s' : Parser) : Prop where
  currPtr : s'.currPtr = rest
  tagVal : s'.tagVal = true
  savePtr : s'.savePtr = if t.complete then s.savePtr else some ('>' :: rest)

/-- The name of a tag without attributes. -/
theorem Held.bare (h : s.Held) (hattributes : t.attributes = []) (hcurr : s.currPtr = t.write rest) :
    ∃ s', s.Yields t.nodes s' ∧ s.Left t rest s' := by
  have hcurr' : s.currPtr = '<' :: (t.name ++ t.writeEnd rest) := by
    rw [hcurr, Tag.write, hattributes]
    rfl
  have hne : s.currPtr ≠ [] := hcurr' ▸ List.cons_ne_nil _ _
  have hnodes : t.nodes = ⟨.ELEMENT_NODE, some t.name, none, false⟩ ::
      if t.complete then [⟨.ELEMENT_NODE, some t.name, none, true⟩] else [] := by
    rw [Tag.nodes, hattributes]
    rfl
  rw [hnodes]
  cases hcomplete : t.complete with
  | true =>
    obtain ⟨d, more, hmore, hd⟩ :=
      @exists_nameEnd t.ws ('>' :: rest) t.ws_white '/' (by decide)
    rw [Tag.writeEnd_complete hcomplete, hmore] at hcurr'
    have hstart := @nodePass_startTag s [] t.name more h.inAttrib (fun c hc ↦ by cases hc) t.isName d
      (nameEnds_spec d hd).1 (nameEnds_spec d hd).2 hcurr' .reset
    have hsuffix : t.ws ++ '/' :: '>' :: rest <:+ s.parseBuff := by
      have hs := h.inside.currPtr
      rw [hcurr', ← hmore] at hs
      exact (List.suffix_append ('<' :: t.name) _).trans hs
    have hrewind := @nodePass_completeTag_rewind { s with
      currPtr := d :: more, tagVal := false, attrFound := true, atLeastOneAttrFound := false
      tokBuf := t.name, lastElem := t.name } t.ws rest ⟨.ELEMENT_NODE, some t.name, none, false⟩
      h.inAttrib t.ws_white hmore.symm (hmore ▸ hsuffix) rfl
    have hnode := (@getNextNode_pass _ 1 _ _ _ hne hstart).trans
      (getNextNode_return (List.cons_ne_nil d more) hrewind)
    refine ⟨_, .cons hnode (.cons (@getNextNode_completeTag _ [] rest ?_ ?_ rfl 0) (.nil _)), ?_⟩
    · exact h.inAttrib
    · exact fun c hc ↦ by cases hc
    · refine ⟨rfl, rfl, ?_⟩
      rw [hcomplete]
      rfl
  | false =>
    obtain ⟨d, more, hmore, hd⟩ := @exists_nameEnd t.ws rest t.ws_white '>' (by decide)
    rw [Tag.writeEnd_open hcomplete, hmore] at hcurr'
    have hstart := @nodePass_startTag s [] t.name more h.inAttrib (fun c hc ↦ by cases hc) t.isName d
      (nameEnds_spec d hd).1 (nameEnds_spec d hd).2 hcurr' .reset
    have htoken := @nextToken_gt { s with
      currPtr := d :: more, tagVal := false, attrFound := true, atLeastOneAttrFound := false
      tokBuf := t.name, lastElem := t.name } t.ws rest h.inAttrib t.ws_white hmore.symm
    have hnode := (@getNextNode_pass _ 1 _ _ _ hne hstart).trans
      (getNextNode_return (List.cons_ne_nil d more) (nodePass_gt_token htoken rfl rfl _))
    refine ⟨_, .cons hnode (.nil _), rfl, rfl, ?_⟩
    rw [hcomplete]
    rfl

/-- The name of a tag with attributes is found, and the first attribute is left. -/
theorem Held.element (h : s.Held) {a : Attribute} {as : List Attribute}
    (hattributes : t.attributes = a :: as) (hcurr : s.currPtr = t.write rest) :
    ∃ s' c, s.getNextNode 2 .reset = .ok (s', ⟨.ELEMENT_NODE, some t.name, none, false⟩) ∧
      c ∈ WHITESPACE ∧
      s'.InTag s.savePtr t.name (c :: (a.key ++ (a.ws₁ ++
        '=' :: (a.ws₂ ++ '"' :: (a.text ++ '"' :: as.foldr Attribute.write (t.writeEnd rest)))))) := by
  obtain hnil | ⟨ws, c, hws⟩ := List.eq_nil_or_concat' a.ws
  · exact absurd hnil a.ws_ne_nil
  generalize hmore : a.ws₂ ++ '"' :: (a.text ++ '"' :: as.foldr Attribute.write (t.writeEnd rest)) =
    more
  have hc : c ∈ WHITESPACE := by
    refine a.ws_white c ?_
    rw [hws]
    exact List.mem_append_right _ (List.mem_singleton_self c)
  obtain ⟨d, p, hp, hd⟩ := @exists_nameEnd a.ws₁ more a.ws₁_white '=' (by decide)
  obtain ⟨e, q, hq, he⟩ : ∃ e q, a.ws ++ (a.key ++ d :: p) = e :: q ∧ e ∈ WHITESPACE := by
    obtain ⟨e, q, heq⟩ := List.exists_cons_of_ne_nil a.ws_ne_nil
    refine ⟨e, q ++ (a.key ++ d :: p), ?_, a.ws_white e (heq ▸ List.mem_cons_self ..)⟩
    rw [heq, List.cons_append]
  have hcurr' : s.currPtr = '<' :: (t.name ++ e :: q) := by
    rw [hcurr, Tag.write, hattributes, List.foldr_cons, Attribute.write, hmore, hp, hq]
  have hend := nameEnds_spec e (whitespace_nameEnds e he)
  have hstart := @nodePass_startTag s [] t.name q h.inAttrib (fun c hc ↦ by cases hc) t.isName e
    hend.1 hend.2 hcurr' .reset
  have hsuffix : c :: (a.key ++ d :: p) <:+ s.parseBuff := by
    have hs := h.inside.currPtr
    rw [hcurr', ← hq, hws, List.append_assoc] at hs
    exact (List.suffix_append ws _).trans ((List.suffix_append ('<' :: t.name) _).trans hs)
  have hrewind := @nodePass_rewind { s with
    currPtr := e :: q, tagVal := false, attrFound := true, atLeastOneAttrFound := false
    tokBuf := t.name, lastElem := t.name } a.ws a.key p ⟨.ELEMENT_NODE, some t.name, none, false⟩ c
    h.inAttrib rfl rfl a.ws_white a.isName d (nameEnds_spec d hd).1 (nameEnds_spec d hd).2 hq.symm
    hsuffix rfl
  refine ⟨_, c, (@getNextNode_pass _ 1 _ _ _ (hcurr' ▸ List.cons_ne_nil _ _) hstart).trans
    (getNextNode_return (List.cons_ne_nil e q) hrewind), hc, ?_⟩
  rw [hp]
  exact ⟨h.inAttrib, rfl, rfl, rfl, rfl, rfl⟩

/-- A tag without empty values. -/
theorem Held.tag (h : s.Held) (hcurr : s.currPtr = t.write rest)
    (hne : ∀ a ∈ t.attributes, a.text ≠ []) :
    ∃ s₁ s₂, s.Yields t.nodes s₁ ∧ Closes t s₁ s₂ ∧ s.Left t rest s₂ := by
  cases hattributes : t.attributes with
  | nil =>
    obtain ⟨s₁, hyields, hleft⟩ := h.bare hattributes hcurr
    refine ⟨s₁, s₁, hyields, ?_, hleft⟩
    rw [Closes, if_neg fun h ↦ h.1 hattributes]
  | cons a as =>
    obtain ⟨s₁, c, hnode, hc, hin⟩ := h.element hattributes hcurr
    rw [hattributes] at hne
    let first : Attribute :=
      { a with ws := [c], ws_ne_nil := List.cons_ne_nil c [],
               ws_white := fun e he ↦ List.mem_singleton.mp he ▸ hc }
    have hfirst : ∀ b ∈ first :: as, b.text ≠ [] := by
      intro b hb
      rcases List.mem_cons.mp hb with rfl | hb
      · exact hne a (List.mem_cons_self ..)
      · exact hne b (List.mem_cons_of_mem _ hb)
    obtain ⟨s₂, hyields, hin₂, hone⟩ := InTag.attributes (first :: as) hin hfirst
    have hall : s.Yields (⟨.ELEMENT_NODE, some t.name, none, false⟩ ::
        (a :: as).map Attribute.node) s₂ := .cons hnode hyields
    have hcurr₂ := hin₂.currPtr
    cases hcomplete : t.complete with
    | true =>
      have hend : s₂.currPtr = t.ws ++ '/' :: '>' :: rest := by
        rw [hcurr₂, Tag.writeEnd_complete hcomplete]
      have hlast := getNextNode_completeTag hin₂.inAttrib t.ws_white hend 0
      have hyields' : s.Yields t.nodes { s₂ with
          tokBuf := "/>".toList, currPtr := rest, tagVal := true, attrFound := true
          atLeastOneAttrFound := false } := by
        rw [Tag.nodes, hattributes, hcomplete, ← hin₂.lastElem]
        rw [← hin₂.lastElem] at hall
        exact hall.append (.cons hlast (.nil _))
      have hcloses (s' : Parser) : Closes t s' s' := by
        rw [Closes, hcomplete, if_neg fun h ↦ by cases h.2]
      refine ⟨_, _, hyields', hcloses _, rfl, rfl, ?_⟩
      rw [hcomplete]
      exact hin₂.savePtr
    | false =>
      have hend : s₂.currPtr = t.ws ++ '>' :: rest := by
        rw [hcurr₂, Tag.writeEnd_open hcomplete]
      have hpass := nodePass_gt_found (nextToken_gt hin₂.inAttrib t.ws_white hend) rfl
        (hone (List.cons_ne_nil first as)) .reset
      have hyields' : s.Yields t.nodes s₂ := by
        rw [Tag.nodes, hattributes, hcomplete]
        exact hall.append (.nil _)
      refine ⟨s₂, _, hyields',
        .pass (hattributes ▸ List.cons_ne_nil a as) hcomplete hpass, rfl, rfl, ?_⟩
      rw [hcomplete]
      rfl

theorem Left.tokenFrom (h : s.Left t rest s') : s'.tokenFrom =
    if t.complete && beginsContent rest then s.savePtr.map (·.drop 1) else some rest := by
  rw [Parser.tokenFrom, h.tagVal, h.currPtr, h.savePtr, Bool.true_and]
  cases t.complete with
  | true => rw [Bool.true_and, if_pos rfl]
  | false =>
    rw [Bool.false_and, if_neg Bool.false_ne_true, if_neg Bool.false_ne_true]
    exact ite_self _

/-- A tag is read exactly if no value is empty and no content is behind an empty-element tag. -/
theorem readsTag_iff {parseStr : CString} (h : Reached parseStr s) (t : Tag) (rest : CString)
    (hcurr : s.currPtr = t.write rest) : s.ReadsTag t rest ↔ s.Clear t rest := by
  have hs := h.held
  constructor
  · rintro ⟨s₁, s₂, hyields, hcloses, hfrom⟩
    have hne : ∀ a ∈ t.attributes, a.text ≠ [] := by
      intro a ha hnil
      refine hyields.value hs a.node ?_ ?_
      · exact List.mem_cons_of_mem _ (List.mem_append_left _ (List.mem_map_of_mem ha))
      · exact congrArg some (a.unescapes.eq_nil hnil)
    obtain ⟨s₁', s₂', hyields', hcloses', hleft⟩ := hs.tag hcurr hne
    obtain rfl := hyields.unique hyields'
    obtain rfl := hcloses.unique hcloses'
    refine ⟨hne, fun hcomplete hbegins ↦ ?_⟩
    rw [hleft.tokenFrom, hcomplete, hbegins] at hfrom
    exact hfrom
  · rintro ⟨hne, hcontent⟩
    obtain ⟨s₁, s₂, hyields, hcloses, hleft⟩ := hs.tag hcurr hne
    refine ⟨s₁, s₂, hyields, hcloses, ?_⟩
    rw [hleft.tokenFrom]
    split_ifs with hbegins
    · rw [Bool.and_eq_true] at hbegins
      exact hcontent hbegins.1 hbegins.2
    · rfl

theorem isName_e : IsName ['e'] := isName_singleton (by decide +kernel) (by decide)

theorem isName_a : IsName ['a'] := isName_singleton (by decide +kernel) (by decide)

theorem blank_white : ∀ c ∈ [' '], c ∈ WHITESPACE := forall_mem_of_all (by decide)

theorem nil_white : ∀ c ∈ ([] : CString), c ∈ WHITESPACE := forall_mem_of_all rfl

theorem blank_ne_nil : [' '] ≠ [] := List.cons_ne_nil _ _

/-- `<e a="text"`, and the end of the tag. -/
def oneAttribute (text : CString) (hquote : '"' ∉ text) (h : Unescapes text text) (complete : Bool) :
    Tag where
  name := ['e']
  attributes := [{
    ws := [' '], key := ['a'], ws₁ := [], ws₂ := [], text := text, value := text
    ws_ne_nil := blank_ne_nil
    ws_white := blank_white
    ws₁_white := nil_white
    ws₂_white := nil_white
    isName := isName_a
    quote_not_mem := hquote
    unescapes := h }]
  ws := []
  complete := complete
  isName := isName_e
  ws_white := nil_white

theorem readsTag_text : ∃ s, Parser.new "<e a=\"/>\">t</e>".toList = .ok s ∧
    s.ReadsTag (oneAttribute "/>".toList (by decide) (unescapes_ascii (by decide)) false)
      "t</e>".toList := by
  refine ⟨_, rfl, (readsTag_iff (@Reached.new "<e a=\"/>\">t</e>".toList _ rfl) _ _ rfl).mpr
    ⟨?_, fun h ↦ by cases h⟩⟩
  intro a ha
  obtain rfl := List.mem_singleton.mp ha
  exact List.cons_ne_nil _ _

/-- The value of `<e a=""/>` is read as a quote. -/
theorem not_readsTag : ¬ ∀ parseStr s, Reached parseStr s → ∀ t rest, s.currPtr = t.write rest →
    s.ReadsTag t rest := by
  intro h
  have hnew := @Reached.new "<e a=\"\"/>".toList _ rfl
  obtain ⟨s₁, s₂, hyields, -⟩ := h _ _ hnew (oneAttribute [] (by decide) .nil true) [] rfl
  exact hyields.value hnew.held _ (List.mem_cons_of_mem _ (List.mem_cons_self ..)) rfl

end Parser

end Upnp.Xml
