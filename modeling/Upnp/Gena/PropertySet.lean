import Mathlib.Data.List.TakeWhile
import Upnp.Xml.Markup
import Upnp.GenaClient.RequestText

/-!
# Property sets

`GeneratePropertySet`, and `UpnpParse_Buffer` on what it generates.
-/

namespace Upnp.Gena.PropertySet

open Upnp.Lib Upnp.Xml Upnp.GenaClient

/-- A variable, with its value as it is written and as it is meant. -/
structure Variable where
  name : CString
  text : CString
  value : CString
  isName : IsName name
  unescapes : Unescapes text value
  lt_not_mem : '<' ∉ text
  nonblank : text = [] ∨ ∃ c ∈ text, c ∉ WHITESPACE

/-! ## `GeneratePropertySet` -/

/-- `XML_PROPERTYSET_HEADER`. -/
def XML_PROPERTYSET_HEADER : CString :=
  "<e:propertyset xmlns:e=\"urn:schemas-upnp-org:event-1-0\">\n".toList

/-- What the loops add for a variable. -/
def variableSize (v : Variable) : Nat :=
  "<e:property>\n</e:property>\n".length +
    (2 * v.name.length + v.text.length + "<></>\n".length)

/-- `size`, before it is an `int`. -/
def propertySetSize (vars : List Variable) : Nat :=
  XML_PROPERTYSET_HEADER.length + "</e:propertyset>\n\n".length + (vars.map variableSize).sum

/-- The strings that are appended for a variable. -/
def variablePieces (v : Variable) : List CString :=
  ["<e:property>\n".toList,
    "<".toList ++ v.name ++ ">".toList ++ v.text ++ "</".toList ++ v.name ++
      ">\n</e:property>\n".toList]

/-- The strings that are copied and appended. -/
def propertySetPieces (vars : List Variable) : List CString :=
  XML_PROPERTYSET_HEADER :: (vars.flatMap variablePieces ++ ["</e:propertyset>\n\n".toList])

def propertySetText (vars : List Variable) : CString := (propertySetPieces vars).flatten

/-- `GeneratePropertySet`, with the NUL at the end. -/
def generatePropertySet (ok : Bool) (vars : List Variable) : Outcome :=
  match malloc ok (wrap32 (propertySetSize vars + 1)) with
  | none => .refused
  | some buffer => written (buffer.memcpyAll 0 (propertySetPieces vars ++ [['\x00']]))

/-! ## The round trip -/

/-- The property of a variable. -/
def property (v : Variable) : Content :=
  .element "e:property".toList []
    [.element v.name [] (if v.value = [] then [] else [.text v.value])]

/-- The document is a property set with the properties of the variables, in their order. -/
def Holds (doc : List Content) (vars : List Variable) : Prop :=
  ∃ attributes, doc = [.element "e:propertyset".toList attributes (vars.map property)]

/-- `UpnpParse_Buffer` reads the text back, whatever its variables hold at first. -/
def ReadsBack (text : CString) (vars : List Variable) : Prop :=
  ∀ n, ∃ fuel doc, readDocument fuel n text = .ok doc ∧ Holds doc vars

/-- There is no memory, or what is generated fills what was allocated and is read back. -/
inductive Delivered (vars : List Variable) : Outcome → Prop
  | refused : Delivered vars .refused
  | done (h : ReadsBack (propertySetText vars) vars) :
      Delivered vars (.done ((propertySetText vars ++ ['\x00']).map some))

def RoundTrips (vars : List Variable) : Prop := ∀ ok, Delivered vars (generatePropertySet ok vars)

/-- The value begins as the end of a tag, after white space. -/
def EndsTag (v : Variable) : Prop :=
  [">".toList, "/>".toList].any (·.isPrefixOf (v.text.dropWhile (· ∈ WHITESPACE))) = true

/-- A value that is read as markup: it begins as the end of a tag, after white space, or means
`<`, `>`, `</` or `/>`. -/
def Misread (v : Variable) : Prop := EndsTag v ∨ v.value ∈ Parser.markup

/-! ## The size -/

theorem length_pieces (v : Variable) : (variablePieces v).flatten.length = variableSize v := by
  simp only [variablePieces, List.flatten_cons, List.flatten_nil, List.length_append,
    List.length_nil]
  change 13 + (1 + v.name.length + 1 + v.text.length + 2 + v.name.length + 16 + 0) =
    27 + (2 * v.name.length + v.text.length + 6)
  omega

/-- The size is that of the text. -/
theorem length_propertySetText (vars : List Variable) :
    (propertySetText vars).length = propertySetSize vars := by
  have hvars : (vars.flatMap variablePieces).flatten.length = (vars.map variableSize).sum := by
    induction vars with
    | nil => rfl
    | cons v vars ih =>
      rw [List.flatMap_cons, List.flatten_append, List.length_append, length_pieces, ih,
        List.map_cons, List.sum_cons]
  rw [propertySetText, propertySetPieces, List.flatten_cons, List.flatten_append,
    List.length_append, List.length_append, hvars, propertySetSize]
  change _ + (_ + 18) = _ + 18 + _
  omega

/-! ## Reading a property -/

/-- Between the properties. -/
structure Between (s : Parser) (whole rest : CString) : Prop where
  inAttrib : s.inAttrib = false
  atLeastOneAttrFound : s.atLeastOneAttrFound = false
  currPtr : s.currPtr = '\n' :: rest
  parseBuff : s.parseBuff = whole
  suffix : '\n' :: rest <:+ whole

variable {s : Parser} {v : Variable} {whole rest content name : CString} {fuel : Nat}
  {o : OpenNode} {os : List OpenNode}

theorem newline_mem : ∀ c ∈ "\n".toList, c ∈ WHITESPACE := forall_mem_of_all (by decide)

theorem isName_property : IsName "e:property".toList :=
  ⟨'e'.toNat, ":property".toList.map Char.toNat, by decide +kernel, by decide +kernel,
    by decide +kernel⟩

theorem isName_propertyset : IsName "e:propertyset".toList :=
  ⟨'e'.toNat, ":propertyset".toList.map Char.toNat, by decide +kernel, by decide +kernel,
    by decide +kernel⟩

theorem isName_xmlns : IsName "xmlns:e".toList :=
  ⟨'x'.toNat, "mlns:e".toList.map Char.toNat, by decide +kernel, by decide +kernel,
    by decide +kernel⟩

/-- A start tag opens an element. -/
theorem readLoop_startTag {ws : CString} (hattr : s.inAttrib = false)
    (hws : ∀ c ∈ ws, c ∈ WHITESPACE) (hname : IsName name)
    (hcurr : s.currPtr = ws ++ '<' :: (name ++ '>' :: content)) :
    ∃ s' : Parser, s'.InContent content ∧ s'.lastElem = name ∧ s'.parseBuff = s.parseBuff ∧
      ∀ fuel, readLoop (fuel + 3) s .reset (o, os) =
        readLoop (fuel + 2) s' .reset (⟨name, [], []⟩, o :: os) := by
  refine ⟨_, ?_, ?_, ?_, fun fuel ↦ readLoop_step
    (Parser.getNextNode_startTag hattr hws hname hcurr .reset fuel) rfl
    (fun h : NodeType.ELEMENT_NODE = .INVALID_NODE ↦ by cases h)⟩
  · exact ⟨hattr, rfl, rfl, rfl, rfl, rfl⟩
  · rfl
  · rfl

/-- An end tag closes its element. -/
theorem readLoop_endTag {ws : CString} (hattr : s.inAttrib = false)
    (hone : s.atLeastOneAttrFound = false) (hws : ∀ c ∈ ws, c ∈ WHITESPACE) (hname : IsName name)
    (hcurr : s.currPtr = ws ++ '<' :: '/' :: (name ++ '>' :: rest)) {parent : OpenNode}
    (ho : o.nodeName = name) :
    ∃ s' : Parser, s'.InContent rest ∧ s'.parseBuff = s.parseBuff ∧
      ∀ fuel, readLoop (fuel + 3) s .reset (o, parent :: os) =
        readLoop (fuel + 2) s' .reset (parent.appendChild o.close, os) := by
  have hadd : Current.add (o, parent :: os) ⟨.ELEMENT_NODE, some name, none, true⟩ =
      .ok (parent.appendChild o.close, os) := by
    rw [Current.add]
    simp only [Bool.not_true, Bool.false_eq_true, if_false, if_pos ho.symm]
    rfl
  refine ⟨_, ?_, ?_, fun fuel ↦ readLoop_step
    (Parser.getNextNode_endTag hattr hone hws hname hcurr .reset fuel) hadd
    (fun h : NodeType.ELEMENT_NODE = .INVALID_NODE ↦ by cases h)⟩
  · exact ⟨hattr, rfl, rfl, hone, rfl, rfl⟩
  · rfl

/-- What follows the value. -/
def closing (v : Variable) (rest : CString) : CString :=
  '<' :: '/' :: (v.name ++ '>' :: ("\n".toList ++
    '<' :: '/' :: ("e:property".toList ++ '>' :: '\n' :: rest)))

theorem pieces_append (v : Variable) (rest : CString) :
    (variablePieces v).flatten ++ rest =
      '<' :: ("e:property".toList ++ '>' :: ("\n".toList ++
        '<' :: (v.name ++ '>' :: (v.text ++ closing v rest)))) := by
  have hopen : "<e:property>\n".toList = '<' :: ("e:property".toList ++ '>' :: "\n".toList) := by
    decide
  have hclose : ">\n</e:property>\n".toList =
      '>' :: ("\n".toList ++ '<' :: '/' :: ("e:property".toList ++ '>' :: ['\n'])) := by
    decide
  have hlt : "<".toList = ['<'] := by decide
  have hgt : ">".toList = ['>'] := by decide
  have hend : "</".toList = ['<', '/'] := by decide
  simp only [variablePieces, closing, hopen, hclose, hlt, hgt, hend, List.flatten_cons,
    List.flatten_nil, List.append_assoc, List.cons_append, List.nil_append]

/-- The two start tags of a property. -/
theorem open_property (h : Between s whole ((variablePieces v).flatten ++ rest)) :
    ∃ s' : Parser, s'.InContent (v.text ++ closing v rest) ∧ s'.lastElem = v.name ∧
      s'.parseBuff = whole ∧ v.text ++ closing v rest <:+ whole ∧
      ∀ fuel, readLoop (fuel + 4) s .reset (o, os) = readLoop (fuel + 2) s' .reset
        (⟨v.name, [], []⟩, ⟨"e:property".toList, [], []⟩ :: o :: os) := by
  have hcurr := h.currPtr
  have hsuffix := h.suffix
  rw [pieces_append] at hcurr hsuffix
  obtain ⟨s₁, hin, -, hbuff, hrun⟩ :=
    @readLoop_startTag s _ _ o os "\n".toList h.inAttrib newline_mem isName_property hcurr
  obtain ⟨s₂, hin', hlast, hbuff', hrun'⟩ :=
    @readLoop_startTag s₁ _ _ ⟨"e:property".toList, [], []⟩ (o :: os) "\n".toList hin.inAttrib
      newline_mem v.isName hin.currPtr
  refine ⟨s₂, hin', hlast, (hbuff'.trans hbuff).trans h.parseBuff, ?_, fun fuel ↦ ?_⟩
  · refine List.IsSuffix.trans ?_ hsuffix
    refine ⟨'\n' :: '<' :: ("e:property".toList ++ '>' :: ("\n".toList ++
      '<' :: (v.name ++ ['>']))), ?_⟩
    simp only [List.append_assoc, List.cons_append, List.nil_append]
  · rw [hrun (fuel + 1), hrun' fuel]

/-- The two end tags of a property. -/
theorem close_property {children : List Content} (hattr : s.inAttrib = false)
    (hone : s.atLeastOneAttrFound = false) (hcurr : s.currPtr = closing v rest)
    (hbuff : s.parseBuff = whole) (hsuffix : closing v rest <:+ whole) :
    ∃ s', Between s' whole rest ∧
      ∀ fuel, readLoop (fuel + 4) s .reset
        (⟨v.name, [], children⟩, ⟨"e:property".toList, [], []⟩ :: o :: os) =
          readLoop (fuel + 2) s' .reset (o.appendChild
            (.element "e:property".toList [] [.element v.name [] children]), os) := by
  obtain ⟨s₁, hin, hbuff₁, hrun⟩ := @readLoop_endTag s
    ("\n".toList ++ '<' :: '/' :: ("e:property".toList ++ '>' :: '\n' :: rest)) v.name
    ⟨v.name, [], children⟩ (o :: os) [] hattr hone (fun c hc ↦ by cases hc) v.isName hcurr
    ⟨"e:property".toList, [], []⟩ rfl
  obtain ⟨s₂, hin', hbuff₂, hrun'⟩ := @readLoop_endTag s₁ ('\n' :: rest) "e:property".toList
    (OpenNode.appendChild ⟨"e:property".toList, [], []⟩ (.element v.name [] children)) os
    "\n".toList hin.inAttrib hin.atLeastOneAttrFound newline_mem isName_property hin.currPtr o rfl
  refine ⟨s₂, ⟨hin'.inAttrib, hin'.atLeastOneAttrFound, hin'.currPtr,
    (hbuff₂.trans hbuff₁).trans hbuff, ?_⟩, fun fuel ↦ ?_⟩
  · refine List.IsSuffix.trans ?_ hsuffix
    refine ⟨'<' :: '/' :: (v.name ++ '>' :: ("\n".toList ++
      '<' :: '/' :: ("e:property".toList ++ ['>']))), ?_⟩
    simp only [closing, List.append_assoc, List.cons_append, List.nil_append]
  · exact (hrun (fuel + 1)).trans (hrun' fuel)

/-! ## Reading a value -/

theorem Variable.value_eq_nil (hv : v.text = []) : v.value = [] := v.unescapes.eq_nil hv

theorem Variable.value_ne_nil (hv : v.text ≠ []) : v.value ≠ [] := v.unescapes.ne_nil hv

/-- A value that is not empty begins, after white space, with another character. -/
theorem Variable.split (hv : v.text ≠ []) : ∃ ws c more, v.text = ws ++ c :: more ∧
    (∀ c ∈ ws, c ∈ WHITESPACE) ∧ c ∉ WHITESPACE ∧
    v.text.dropWhile (· ∈ WHITESPACE) = c :: more := by
  obtain ⟨c₀, hc₀, hnot⟩ := v.nonblank.resolve_left hv
  have happend : v.text.takeWhile (· ∈ WHITESPACE) ++ v.text.dropWhile (· ∈ WHITESPACE) = v.text :=
    List.takeWhile_append_dropWhile
  have hws : ∀ c ∈ v.text.takeWhile (· ∈ WHITESPACE), c ∈ WHITESPACE := fun c hc ↦
    of_decide_eq_true (List.mem_takeWhile_imp (p := fun c ↦ decide (c ∈ WHITESPACE)) hc)
  cases hdrop : v.text.dropWhile (· ∈ WHITESPACE) with
  | nil =>
    have hmem : c₀ ∈ v.text.takeWhile (· ∈ WHITESPACE) := by
      rw [hdrop, List.append_nil] at happend
      rwa [happend]
    exact absurd (hws c₀ hmem) hnot
  | cons c more =>
    rw [hdrop] at happend
    have hc := List.head?_dropWhile_not (fun c ↦ decide (c ∈ WHITESPACE)) v.text
    rw [hdrop] at hc
    exact ⟨_, c, more, happend.symm, hws, by simpa using hc, rfl⟩

theorem endsTag_iff {c : Char} {more : CString}
    (hdrop : v.text.dropWhile (· ∈ WHITESPACE) = c :: more) :
    EndsTag v ↔ c = '>' ∨ c = '/' ∧ more.head? = some '>' := by
  have hgt : ">".toList.isPrefixOf (c :: more) = true ↔ c = '>' := by
    change (('>' == c) && true) = true ↔ _
    rw [Bool.and_true, beq_iff_eq, eq_comm]
  have hend : "/>".toList.isPrefixOf (c :: more) = true ↔ c = '/' ∧ more.head? = some '>' := by
    cases more with
    | nil =>
      change (('/' == c) && false) = true ↔ _
      rw [Bool.and_false]
      exact iff_of_false Bool.false_ne_true fun h ↦ by cases h.2
    | cons d more =>
      change (('/' == c) && (('>' == d) && true)) = true ↔ _
      rw [Bool.and_true, Bool.and_eq_true, beq_iff_eq, beq_iff_eq, List.head?_cons,
        Option.some.injEq, eq_comm, @eq_comm _ '>']
  rw [EndsTag, hdrop, List.any_cons, List.any_cons, List.any_nil, Bool.or_false, Bool.or_eq_true,
    hgt, hend]

/-- A value that does not end the tag is one token. -/
theorem value_token (h : s.InContent (v.text ++ closing v rest)) (hv : v.text ≠ [])
    (hend : ¬ EndsTag v) : s.nextToken =
      .ok { s with tokBuf := v.value, currPtr := closing v rest, tagVal := false } := by
  obtain ⟨ws, c, more, htext, hws, hc, hdrop⟩ := v.split hv
  rw [endsTag_iff hdrop, not_or, not_and] at hend
  have hlt := v.lt_not_mem
  have hvalue := v.unescapes
  rw [htext] at hlt hvalue h
  rw [List.append_assoc] at h
  exact h.nextToken_content hws hc hend.1 hend.2 hlt hvalue

/-- A value that is not misread becomes the text of its element. -/
theorem read_value (h : s.InContent (v.text ++ closing v rest)) (hgood : ¬ Misread v) :
    ∃ s' k, s'.inAttrib = false ∧ s'.atLeastOneAttrFound = false ∧
      s'.currPtr = closing v rest ∧ s'.parseBuff = s.parseBuff ∧
      ∀ fuel, readLoop (fuel + k + 2) s .reset (⟨v.name, [], []⟩, os) =
        readLoop (fuel + 2) s' .reset
          (⟨v.name, [], if v.value = [] then [] else [.text v.value]⟩, os) := by
  obtain ⟨hend, hmarkup⟩ := not_or.mp hgood
  by_cases hv : v.text = []
  · refine ⟨s, 0, h.inAttrib, h.atLeastOneAttrFound, ?_, rfl, fun fuel ↦ ?_⟩
    · have hcurr := h.currPtr
      rwa [hv] at hcurr
    · rw [if_pos (v.value_eq_nil hv)]
  · have htoken := value_token h hv hend
    have hne := v.value_ne_nil hv
    have hcurr : s.currPtr ≠ [] := by
      rw [h.currPtr]
      exact List.append_ne_nil_of_right_ne_nil _ (List.cons_ne_nil _ _)
    refine ⟨{ s with tokBuf := v.value, currPtr := closing v rest, tagVal := false }, 1,
      h.inAttrib, h.atLeastOneAttrFound, rfl, rfl, fun fuel ↦ ?_⟩
    rw [if_neg hne]
    exact readLoop_step (Parser.getNextNode_return hcurr
      (Parser.nodePass_text htoken h.attrFound hne hmarkup .reset)) rfl
      (fun h : NodeType.TEXT_NODE = .INVALID_NODE ↦ by cases h)

/-- A property whose value is not misread is read whole. -/
theorem read_property (h : Between s whole ((variablePieces v).flatten ++ rest))
    (hgood : ¬ Misread v) :
    ∃ s' k, Between s' whole rest ∧ ∀ fuel, readLoop (fuel + k + 2) s .reset (o, os) =
      readLoop (fuel + 2) s' .reset (o.appendChild (property v), os) := by
  obtain ⟨s₁, hin, -, hbuff, hsuffix, hrun₁⟩ := @open_property s v whole rest o os h
  obtain ⟨s₂, k, hattr, hone, hcurr, hbuff₂, hrun₂⟩ :=
    @read_value s₁ v rest (⟨"e:property".toList, [], []⟩ :: o :: os) hin hgood
  have hsuffix' : closing v rest <:+ whole := (List.suffix_append _ _).trans hsuffix
  obtain ⟨s₃, hbetween, hrun₃⟩ := @close_property s₂ v whole rest o os
    (if v.value = [] then [] else [.text v.value]) hattr hone hcurr (hbuff₂.trans hbuff) hsuffix'
  refine ⟨s₃, k + 4, hbetween, fun fuel ↦ ?_⟩
  have h₁ := hrun₁ (fuel + 2 + k)
  have h₂ := hrun₂ (fuel + 2)
  have h₃ := hrun₃ fuel
  rw [show fuel + (k + 4) + 2 = fuel + 2 + k + 4 by omega, h₁, h₂, h₃]
  rfl

/-- Properties whose values are not misread are read whole. -/
theorem read_properties {vars : List Variable} (hgood : ∀ v ∈ vars, ¬ Misread v)
    (h : Between s whole ((vars.flatMap variablePieces).flatten ++ rest)) :
    ∃ s' k, Between s' whole rest ∧ ∀ fuel, readLoop (fuel + k + 2) s .reset (o, os) =
      readLoop (fuel + 2) s' .reset
        ({ o with children := o.children ++ vars.map property }, os) := by
  induction vars generalizing s o with
  | nil =>
    refine ⟨s, 0, h, fun fuel ↦ ?_⟩
    rw [List.map_nil, List.append_nil]
  | cons v vars ih =>
    rw [List.flatMap_cons, List.flatten_append, List.append_assoc] at h
    obtain ⟨s₁, k₁, hbetween₁, hrun₁⟩ :=
      @read_property s v whole _ o os h (hgood v (List.mem_cons_self ..))
    obtain ⟨s₂, k₂, hbetween₂, hrun₂⟩ := @ih s₁ (o.appendChild (property v))
      (fun v hv ↦ hgood v (List.mem_cons_of_mem _ hv)) hbetween₁
    refine ⟨s₂, k₂ + k₁, hbetween₂, fun fuel ↦ ?_⟩
    rw [← Nat.add_assoc, hrun₁ (fuel + k₂), hrun₂ fuel, List.map_cons]
    simp only [OpenNode.appendChild, List.append_assoc, List.cons_append, List.nil_append]

/-! ## The property set -/

/-- The value of `xmlns:e`. -/
def namespaceName : CString := "urn:schemas-upnp-org:event-1-0".toList

/-- The element of the property set, when its start tag was read. -/
def openSet : OpenNode := ⟨"e:propertyset".toList, [("xmlns:e".toList, namespaceName)], []⟩

def document : OpenNode := ⟨"#document".toList, [], []⟩

theorem unescapes_namespaceName : Unescapes namespaceName namespaceName :=
  unescapes_ascii (by decide)

/-- The start tag of the property set: the state behind its attribute, and behind its `>`. -/
theorem read_header (n : NextNode) (rest : CString) :
    ∃ s₀ s₂ s₃ : Parser, Parser.new (XML_PROPERTYSET_HEADER ++ rest) = .ok s₀ ∧
      Between s₃ (XML_PROPERTYSET_HEADER ++ rest) rest ∧
      (∀ fuel, s₂.getNextNode (fuel + 1) .reset = s₃.getNextNode fuel .reset) ∧
      ∀ fuel, readLoop (fuel + 4) s₀ n (document, []) =
        readLoop (fuel + 2) s₂ .reset (openSet, [document]) := by
  have hheader : XML_PROPERTYSET_HEADER ++ rest =
      '<' :: ("e:propertyset".toList ++ ' ' :: ("xmlns:e".toList ++
        '=' :: '"' :: (namespaceName ++ '"' :: ('>' :: '\n' :: rest)))) := by
    have hclosed : XML_PROPERTYSET_HEADER =
        '<' :: ("e:propertyset".toList ++ ' ' :: ("xmlns:e".toList ++
          '=' :: '"' :: (namespaceName ++ '"' :: ['>', '\n']))) := by
      decide
    rw [hclosed]
    simp only [List.append_assoc, List.cons_append, List.nil_append]
  rw [hheader]
  generalize hwhole : '<' :: ("e:propertyset".toList ++ ' ' :: ("xmlns:e".toList ++
    '=' :: '"' :: (namespaceName ++ '"' :: ('>' :: '\n' :: rest)))) = whole
  have hne : whole ≠ [] := hwhole ▸ List.cons_ne_nil _ _
  let s₀ : Parser := ⟨whole, whole, none, false, false, true, false, [], []⟩
  have hnew : Parser.new whole = .ok s₀ := by
    rw [Parser.new, if_neg hne]
    rfl
  -- the element, whose attribute is left for the next node
  have helement := @Parser.getNextNode_startTag_attributes s₀ [] _ _ rfl (fun c hc ↦ by cases hc)
    isName_propertyset _ isName_xmlns hwhole.symm (List.suffix_refl whole) n
  obtain ⟨s₁, hs₁⟩ : ∃ s₁ : Parser, s₁ = { s₀ with
      currPtr := ' ' :: ("xmlns:e".toList ++
        '=' :: '"' :: (namespaceName ++ '"' :: ('>' :: '\n' :: rest)))
      tagVal := false, attrFound := true, atLeastOneAttrFound := false
      tokBuf := "xmlns:e".toList, lastElem := "e:propertyset".toList } := ⟨_, rfl⟩
  -- the attribute
  have hattribute := @Parser.nodePass_attribute s₁ [' '] "xmlns:e".toList namespaceName
    namespaceName ('>' :: '\n' :: rest) .reset [] [] (by rw [hs₁]) (by rw [hs₁]) (by rw [hs₁])
    (forall_mem_of_all (by decide)) isName_xmlns (fun c hc ↦ by cases hc) (fun c hc ↦ by cases hc)
    (by decide) unescapes_namespaceName (by decide) (by decide) (by rw [hs₁]; rfl) (by decide)
  obtain ⟨s₂, hs₂⟩ : ∃ s₂ : Parser, s₂ = { s₁ with
      currPtr := '>' :: '\n' :: rest, tokBuf := ['"'], atLeastOneAttrFound := true } := ⟨_, rfl⟩
  rw [← hs₁] at helement
  rw [← hs₂] at hattribute
  have hcurr₁ : s₁.currPtr ≠ [] := by
    rw [hs₁]
    exact List.cons_ne_nil _ _
  refine ⟨s₀, s₂, _, hnew, ?_, fun fuel ↦ @Parser.getNextNode_gt_attributes s₂
    ('\n' :: rest) (by rw [hs₂, hs₁]) (by rw [hs₂]) (by rw [hs₂]) .reset fuel, fun fuel ↦ ?_⟩
  · refine ⟨by rw [hs₂, hs₁], rfl, rfl, by rw [hs₂, hs₁], ?_⟩
    rw [← hwhole]
    refine ⟨'<' :: ("e:propertyset".toList ++ ' ' :: ("xmlns:e".toList ++
      '=' :: '"' :: (namespaceName ++ ['"', '>']))), ?_⟩
    simp only [List.append_assoc, List.cons_append, List.nil_append]
  · have hfirst := @readLoop_step s₀ s₁ n _ (document, []) _ _ (helement (fuel + 1)) rfl
      (fun h : NodeType.ELEMENT_NODE = .INVALID_NODE ↦ by cases h)
    have hsecond := @readLoop_step s₁ s₂ .reset _ (⟨"e:propertyset".toList, [], []⟩, [document])
      (openSet, [document]) (fuel + 2) (Parser.getNextNode_return hcurr₁ hattribute) rfl
      (fun h : NodeType.ATTRIBUTE_NODE = .INVALID_NODE ↦ by cases h)
    exact hfirst.trans hsecond

/-- What follows the header. -/
def body (vars : List Variable) : CString :=
  (vars.flatMap variablePieces).flatten ++ "</e:propertyset>\n\n".toList

theorem propertySetText_eq (vars : List Variable) :
    propertySetText vars = XML_PROPERTYSET_HEADER ++ body vars := by
  rw [propertySetText, propertySetPieces, List.flatten_cons, List.flatten_append, body]
  rfl

theorem end_eq : "</e:propertyset>\n\n".toList =
    '<' :: '/' :: ("e:propertyset".toList ++ '>' :: "\n\n".toList) := by
  decide

/-- The next node is a tag. -/
theorem next_tag {vars : List Variable} (h : Between s whole (body vars)) :
    ∃ r, ∀ fuel, s.getNextNode (fuel + 2) .reset = .ok r := by
  have hcurr := h.currPtr
  cases vars with
  | nil =>
    have hbody : body [] = '<' :: '/' :: ("e:propertyset".toList ++ '>' :: "\n\n".toList) := end_eq
    rw [hbody] at hcurr
    exact ⟨_, @Parser.getNextNode_endTag s "\n".toList _ _ h.inAttrib h.atLeastOneAttrFound
      newline_mem isName_propertyset hcurr .reset⟩
  | cons v vars =>
    rw [body, List.flatMap_cons, List.flatten_append, List.append_assoc, pieces_append] at hcurr
    exact ⟨_, @Parser.getNextNode_startTag s "\n".toList _ _ h.inAttrib newline_mem
      isName_property hcurr .reset⟩

/-- The header is read, and the loop goes on between the properties. -/
theorem read_set (vars : List Variable) (n : NextNode) :
    ∃ s, Between s (propertySetText vars) (body vars) ∧
      ∀ fuel, readDocument (fuel + 6) n (propertySetText vars) =
        readLoop (fuel + 4) s .reset (openSet, [document]) := by
  obtain ⟨s₀, s₂, s₃, hnew, hbetween, hnext, hrun⟩ := read_header n (body vars)
  rw [← propertySetText_eq] at hnew hbetween
  obtain ⟨r, hr⟩ := next_tag hbetween
  refine ⟨s₃, hbetween, fun fuel ↦ ?_⟩
  have hread : readDocument (fuel + 6) n (propertySetText vars) =
      readLoop (fuel + 6) s₀ n (document, []) := by
    rw [readDocument, hnew]
    rfl
  rw [hread, hrun (fuel + 2)]
  exact readLoop_congr ((hnext (fuel + 2)).trans (hr fuel)) (hr (fuel + 1))

/-- The end of the property set. -/
theorem read_end (h : Between s whole "</e:propertyset>\n\n".toList)
    (ho : o.nodeName = "e:propertyset".toList) :
    ∃ fuel, ∀ more, readLoop (fuel + more + 2) s .reset (o, [document]) = .ok [o.close] := by
  have hcurr := h.currPtr
  rw [end_eq] at hcurr
  obtain ⟨s₁, hin, -, hrun⟩ := @readLoop_endTag s "\n\n".toList "e:propertyset".toList o []
    "\n".toList h.inAttrib h.atLeastOneAttrFound newline_mem isName_propertyset hcurr document ho
  obtain ⟨s₂, hblank⟩ := @Parser.getNextNode_blank s₁ "\n\n".toList hin.inAttrib
    (forall_mem_of_all (by decide)) (by decide) hin.currPtr .reset
  refine ⟨1, fun more ↦ ?_⟩
  rw [show 1 + more + 2 = more + 3 by omega, hrun more]
  exact readLoop_end (hblank more)

/-- Without a value that is misread, the set is read back. -/
theorem readsBack_of_not_misread {vars : List Variable} (hgood : ∀ v ∈ vars, ¬ Misread v) :
    ReadsBack (propertySetText vars) vars := by
  intro n
  obtain ⟨s, hbetween, hrun⟩ := read_set vars n
  obtain ⟨s₁, k, hbetween₁, hrun₁⟩ :=
    @read_properties s _ _ openSet [document] vars hgood hbetween
  obtain ⟨fuel, hend⟩ := @read_end s₁ _
    { openSet with children := openSet.children ++ vars.map property } hbetween₁ rfl
  refine ⟨fuel + 2 + k + 4, [.element "e:propertyset".toList openSet.attributes
    (openSet.children ++ vars.map property)], ?_, openSet.attributes, rfl⟩
  have hstart := hrun (fuel + k)
  have hall := hrun₁ (fuel + 2)
  have hlast := hend 2
  rw [show fuel + 2 + k + 4 = fuel + k + 6 by omega, hstart,
    show fuel + k + 4 = fuel + 2 + k + 2 by omega, hall]
  exact hlast

/-! ## Values that are misread -/

/-- Among the properties of the document, the one behind those of `before` begins with `t`. -/
def HasFirst (before : List Variable) (t : Content) (doc : List Content) : Prop :=
  ∃ attributes attributes' ts more more',
    doc = .element "e:propertyset".toList attributes
      (before.map property ++ .element "e:property".toList attributes' (t :: ts) :: more) :: more'

/-- A property that begins otherwise is not that of its variable. -/
theorem HasFirst.not_holds {before after : List Variable} {t : Content} {doc : List Content}
    (h : HasFirst before t doc) (hne : v.value ≠ []) (ht : t ≠ .element v.name [] [.text v.value]) :
    ¬ Holds doc (before ++ v :: after) := by
  obtain ⟨attributes, attributes', ts, more, more', rfl⟩ := h
  rintro ⟨attributes'', heq⟩
  have hchildren := (Content.element.inj (List.cons.inj heq).1).2.2
  rw [List.map_append] at hchildren
  have hproperty := (List.cons.inj (List.append_cancel_left hchildren)).1
  have hfirst := (Content.element.inj hproperty).2.2
  rw [if_neg hne] at hfirst
  exact ht (List.cons.inj hfirst).1

/-- The open nodes around the property: it is open, or the property set is, or neither. -/
inductive Around (before : List Variable) (t : Content) : OpenNode → List OpenNode → Prop
  | property {as as' as'' ts} : Around before t ⟨"e:property".toList, as, t :: ts⟩
      [⟨"e:propertyset".toList, as', before.map property⟩, ⟨"#document".toList, as'', []⟩]
  | set {as as' as'' ts more} : Around before t ⟨"e:propertyset".toList, as,
      before.map property ++ .element "e:property".toList as' (t :: ts) :: more⟩
      [⟨"#document".toList, as'', []⟩]
  | document {as as' as'' ts more more'} : Around before t ⟨"#document".toList, as,
      .element "e:propertyset".toList as'
        (before.map property ++ .element "e:property".toList as'' (t :: ts) :: more) :: more'⟩ []
  | inner {o parent : OpenNode} {os : List OpenNode} (h : Around before t parent os) :
      Around before t o (parent :: os)

variable {before : List Variable} {t : Content}

theorem Around.appendChild (h : Around before t o os) (child : Content) :
    Around before t (o.appendChild child) os := by
  cases h with
  | property => exact .property
  | set =>
    rw [OpenNode.appendChild, List.append_assoc, List.cons_append]
    exact .set
  | document => exact .document
  | inner h => exact .inner h

theorem Around.attributes (h : Around before t o os) (as : List (CString × CString)) :
    Around before t { o with attributes := as } os := by
  cases h with
  | property => exact .property
  | set => exact .set
  | document => exact .document
  | inner h => exact .inner h

theorem Around.close {parent : OpenNode} (h : Around before t o (parent :: os)) :
    Around before t (parent.appendChild o.close) os := by
  cases h with
  | property => exact .set
  | set => exact .document
  | inner h => exact h.appendChild _

/-- No node that is read changes the property. -/
theorem Around.add {n : NextNode} {current : Current} (h : Around before t o os)
    (hadd : Current.add (o, os) n = .ok current) : Around before t current.1 current.2 := by
  obtain ⟨nodeType, nodeName, nodeValue, isEnd⟩ := n
  cases isEnd with
  | true =>
    cases nodeName with
    | none => cases hadd
    | some nodeName =>
      simp only [Current.add, Bool.not_true, Bool.false_eq_true, if_false] at hadd
      split_ifs at hadd
      cases os with
      | nil => cases hadd
      | cons parent os =>
        cases hadd
        exact h.close
  | false =>
    cases nodeType with
    | INVALID_NODE =>
      cases hadd
      exact h
    | ELEMENT_NODE =>
      cases nodeName with
      | none => cases hadd
      | some nodeName =>
        cases hadd
        exact .inner h
    | ATTRIBUTE_NODE =>
      cases nodeName with
      | none => cases hadd
      | some nodeName =>
        cases nodeValue with
        | none => cases hadd
        | some nodeValue =>
          cases hadd
          exact h.attributes _
    | TEXT_NODE =>
      cases nodeValue with
      | none => cases hadd
      | some nodeValue =>
        cases hadd
        exact h.appendChild _

theorem Around.root (h : Around before t o os) : HasFirst before t (o.root os) := by
  induction os generalizing o with
  | nil =>
    cases h with
    | document => exact ⟨_, _, _, _, _, rfl⟩
  | cons parent os ih => exact ih h.close

/-- However the loop goes on, the property stays as it is. -/
theorem Around.readLoop {n : NextNode} {doc : List Content} (h : Around before t o os)
    (hread : Xml.readLoop fuel s n (o, os) = .ok doc) : HasFirst before t doc := by
  induction fuel generalizing s n o os with
  | zero => cases hread
  | succ fuel ih =>
    rw [Xml.readLoop] at hread
    cases hnode : s.getNextNode fuel n with
    | error fault =>
      rw [hnode] at hread
      cases hread
    | ok found =>
      obtain ⟨s', n'⟩ := found
      rw [hnode] at hread
      simp only [bind, Except.bind] at hread
      cases hadd : Current.add (o, os) n' with
      | error fault =>
        rw [hadd] at hread
        cases hread
      | ok current =>
        have haround := h.add hadd
        rw [hadd] at hread
        simp only at hread
        split_ifs at hread
        · cases hread
          exact haround.root
        · exact ih haround hread

theorem Misread.text_ne_nil (h : Misread v) : v.text ≠ [] := by
  intro hnil
  rcases h with hend | hmarkup
  · rw [EndsTag, hnil] at hend
    cases hend
  · rw [v.value_eq_nil hnil] at hmarkup
    exact absurd hmarkup (by decide)

/-- The first token of a value that is misread. -/
theorem Misread.token (h : Misread v) (hin : s.InContent (v.text ++ closing v rest)) :
    (∃ s', s.nextToken = .ok s' ∧ s'.atLeastOneAttrFound = false ∧ s'.lastElem = s.lastElem ∧
      (s'.tokBuf = ">".toList ∨ s'.tokBuf = "/>".toList)) ∨
    (s.nextToken = .ok { s with tokBuf := v.value, currPtr := closing v rest, tagVal := false } ∧
      (v.value = "<".toList ∨ v.value = "</".toList)) := by
  have hv := h.text_ne_nil
  by_cases hend : EndsTag v
  · obtain ⟨ws, c, more, htext, hws, hc, hdrop⟩ := v.split hv
    rw [htext, List.append_assoc, List.cons_append] at hin
    have htoken := hin.nextToken_eq hws hc
    rcases (endsTag_iff hdrop).mp hend with rfl | ⟨rfl, hmore⟩
    · have hgt := htoken.trans (@Parser.getNextToken_gt
        { s with currPtr := '>' :: (more ++ closing v rest) } _ hin.inAttrib rfl)
      exact Or.inl ⟨_, hgt, hin.atLeastOneAttrFound, rfl, Or.inl rfl⟩
    · obtain ⟨more, rfl⟩ : ∃ more', more = '>' :: more' := by
        cases more with
        | nil => cases hmore
        | cons d more =>
          cases hmore
          exact ⟨more, rfl⟩
      have hcomplete := htoken.trans (@Parser.getNextToken_completeTag
        { s with currPtr := '/' :: '>' :: (more ++ closing v rest) } _ hin.inAttrib rfl)
      exact Or.inl ⟨_, hcomplete, hin.atLeastOneAttrFound, rfl, Or.inr rfl⟩
  · have htoken := value_token hin hv hend
    have hmarkup := h.resolve_left hend
    simp only [Parser.markup, List.mem_cons, List.not_mem_nil, or_false] at hmarkup
    rcases hmarkup with hlt | hgt | hclose | hcomplete
    · exact Or.inr ⟨htoken, Or.inl hlt⟩
    · exact Or.inl ⟨_, htoken, hin.atLeastOneAttrFound, rfl, Or.inl hgt⟩
    · exact Or.inr ⟨htoken, Or.inr hclose⟩
    · exact Or.inl ⟨_, htoken, hin.atLeastOneAttrFound, rfl, Or.inr hcomplete⟩

/-- The value `<` opens an element that is not there, and the parser fails. -/
theorem read_lt {doc : List Content} (hin : s.InContent (v.text ++ closing v rest))
    (hsuffix : closing v rest <:+ s.parseBuff)
    (htoken : s.nextToken =
      .ok { s with tokBuf := "<".toList, currPtr := closing v rest, tagVal := false }) :
    readLoop (fuel + 4) s .reset (o, os) ≠ .ok doc := by
  have hattr := hin.inAttrib
  have hcurr : s.currPtr ≠ [] := by
    rw [hin.currPtr]
    exact List.append_ne_nil_of_right_ne_nil _ (List.cons_ne_nil _ _)
  obtain ⟨s₁, hs₁⟩ : ∃ s₁ : Parser, s₁ =
    { s with tokBuf := "<".toList, currPtr := closing v rest, tagVal := false } := ⟨_, rfl⟩
  rw [← hs₁] at htoken
  -- the next token is the `</` of the end tag, and is taken for a name
  have htoken₁ : s₁.nextToken = .ok { s₁ with
      tokBuf := "</".toList, tagVal := false
      currPtr := v.name ++ '>' :: ("\n".toList ++
        '<' :: '/' :: ("e:property".toList ++ '>' :: '\n' :: rest)) } := by
    have hattr₁ : s₁.inAttrib = false := by rw [hs₁]; exact hattr
    have hcurr₁ : s₁.currPtr = closing v rest := by rw [hs₁]
    rw [Parser.nextToken_here hattr₁ (by decide) hcurr₁]
    exact Parser.getNextToken_endTag hattr₁ hcurr₁
  obtain ⟨s₂, hs₂⟩ : ∃ s₂ : Parser, s₂ = { s₁ with
      tokBuf := "</".toList, tagVal := false, lastElem := "</".toList, attrFound := true
      atLeastOneAttrFound := false
      currPtr := v.name ++ '>' :: ("\n".toList ++
        '<' :: '/' :: ("e:property".toList ++ '>' :: '\n' :: rest)) } := ⟨_, rfl⟩
  have hpass : s.nodePass .reset =
      .ok (s₂, ⟨.ELEMENT_NODE, some "</".toList, none, false⟩, false) := by
    have hbuf : s₁.tokBuf = "<".toList := by rw [hs₁]
    have hne : "</".toList ≠ [] := by decide
    rw [Parser.nodePass]
    simp only [htoken, bind, Except.bind, hbuf, if_true, htoken₁, if_neg hne]
    rw [hs₂]
    rfl
  -- the name is left for the next node, from the `/` on
  have hrewind := @Parser.nodePass_rewind s₂ [] v.name _ ⟨.ELEMENT_NODE, some "</".toList, none, false⟩
    '/' (by rw [hs₂, hs₁]; exact hattr) (by rw [hs₂]) (by rw [hs₂]) (fun c hc ↦ by cases hc)
    v.isName '>' (by decide) (by decide +kernel) (by rw [hs₂]; rfl)
    (by rw [hs₂, hs₁]; exact (List.suffix_cons '<' _).trans hsuffix) rfl
  have hcurr₂ : s₂.currPtr ≠ [] := by
    rw [hs₂]
    exact List.append_ne_nil_of_right_ne_nil _ (List.cons_ne_nil _ _)
  have hnode : s.getNextNode (fuel + 3) .reset = _ :=
    (Parser.getNextNode_pass hcurr hpass).trans (Parser.getNextNode_return hcurr₂ hrewind)
  rw [readLoop_step hnode rfl (fun h : NodeType.ELEMENT_NODE = .INVALID_NODE ↦ by cases h)]
  obtain ⟨b, bs, hhead, hb⟩ := v.isName.head
  have hgt : (v.name ++ '>' :: ("\n".toList ++
      '<' :: '/' :: ("e:property".toList ++ '>' :: '\n' :: rest))).head? ≠ some '>' := by
    rw [hhead]
    intro heq
    cases heq
    exact hb (by decide)
  have herror := @Parser.getNextNode_slash { s₂ with
      currPtr := '/' :: (v.name ++ '>' :: ("\n".toList ++
        '<' :: '/' :: ("e:property".toList ++ '>' :: '\n' :: rest))), tokBuf := v.name } _
    (by rw [hs₂, hs₁]; exact hattr) (by rw [hs₂]) hgt rfl .reset (fuel + 1)
  rw [readLoop_error herror]
  intro heq
  cases heq

/-- The value `</` ends an element that is not there, and the name is taken for the text. -/
theorem read_endTag {doc : List Content} (hin : s.InContent (v.text ++ closing v rest))
    (htoken : s.nextToken =
      .ok { s with tokBuf := "</".toList, currPtr := closing v rest, tagVal := false })
    (hread : readLoop (fuel + 5) s .reset (o, os) = .ok doc) :
    doc = (o.appendChild (.text v.name)).root os := by
  have hattr := hin.inAttrib
  have hcurr : s.currPtr ≠ [] := by
    rw [hin.currPtr]
    exact List.append_ne_nil_of_right_ne_nil _ (List.cons_ne_nil _ _)
  obtain ⟨more, hmore⟩ : ∃ more, more = "\n".toList ++
    '<' :: '/' :: ("e:property".toList ++ '>' :: '\n' :: rest) := ⟨_, rfl⟩
  have hclosing : closing v rest = '<' :: '/' :: (v.name ++ '>' :: more) := by rw [hmore]; rfl
  rw [hclosing] at htoken
  have htoken₁ := @Parser.nextToken_here
    { s with tokBuf := "</".toList, currPtr := '<' :: '/' :: (v.name ++ '>' :: more), tagVal := false }
    _ hattr '<' (by decide) rfl
  rw [@Parser.getNextToken_endTag { s with
    tokBuf := "</".toList, currPtr := '<' :: '/' :: (v.name ++ '>' :: more), tagVal := false } _
    hattr rfl] at htoken₁
  obtain ⟨s₂, hs₂⟩ : ∃ s₂ : Parser, s₂ = { s with
    tokBuf := "</".toList, currPtr := v.name ++ '>' :: more, tagVal := false } := ⟨_, rfl⟩
  have hpass : s.nodePass .reset =
      .ok (s₂, ⟨.ELEMENT_NODE, some "</".toList, none, true⟩, false) := by
    have hlt : "</".toList ≠ "<".toList := by decide
    have hgt : "</".toList ≠ ">".toList := by decide
    have hne : "</".toList ≠ [] := by decide
    rw [Parser.nodePass]
    simp only [htoken, bind, Except.bind, if_neg hlt, if_neg hgt, if_true, htoken₁, if_neg hne]
    rw [hs₂]
    rfl
  have hwhite := v.isName.head_not_white ('>' :: more)
  have htoken₂ : s₂.nextToken = .ok { s₂ with tokBuf := v.name, currPtr := '>' :: more } := by
    rw [@Parser.nextToken_eq s₂ [] _ (by rw [hs₂]; exact hattr) (fun c hc ↦ by cases hc) hwhite
      (by rw [hs₂]; rfl)]
    exact @Parser.getNextToken_name { s₂ with currPtr := v.name ++ '>' :: more } _ _
      (by rw [hs₂]; exact hattr) (by rw [hs₂]) v.isName '>' (by decide) (by decide +kernel) rfl
  have hcurr₂ : s₂.currPtr ≠ [] := by
    rw [hs₂]
    exact List.append_ne_nil_of_right_ne_nil _ (List.cons_ne_nil _ _)
  have htext := @Parser.nodePass_text s₂ _ htoken₂ (by rw [hs₂]; exact hin.attrFound)
    (Parser.IsName_ne_nil v.isName) (Parser.IsName_not_markup v.isName)
    ⟨.ELEMENT_NODE, some "</".toList, none, true⟩
  have hnode : s.getNextNode (fuel + 4) .reset = _ :=
    (Parser.getNextNode_pass hcurr hpass).trans (Parser.getNextNode_return hcurr₂ htext)
  rw [readLoop_step hnode rfl (fun h : NodeType.TEXT_NODE = .INVALID_NODE ↦ by cases h)] at hread
  -- the `>` of the end tag ends the document
  have hgt := @Parser.nodePass_gt { s₂ with tokBuf := v.name, currPtr := '>' :: more } more
    (by rw [hs₂]; exact hattr) (by rw [hs₂]; exact hin.atLeastOneAttrFound) rfl .reset
  rw [readLoop_end (Parser.getNextNode_return (List.cons_ne_nil _ _) hgt)] at hread
  cases hread
  rfl

/-- The property of a value that is misread begins otherwise. -/
theorem Misread.hasFirst {doc : List Content} {as : List (CString × CString)} (h : Misread v)
    (hin : s.InContent (v.text ++ closing v rest)) (hlast : s.lastElem = v.name)
    (hsuffix : closing v rest <:+ s.parseBuff)
    (hread : readLoop (fuel + 5) s .reset (⟨v.name, [], []⟩, [⟨"e:property".toList, [], []⟩,
      ⟨"e:propertyset".toList, as, before.map property⟩, document]) = .ok doc) :
    ∃ t, t ≠ .element v.name [] [.text v.value] ∧ HasFirst before t doc := by
  have hcurr : s.currPtr ≠ [] := by
    rw [hin.currPtr]
    exact List.append_ne_nil_of_right_ne_nil _ (List.cons_ne_nil _ _)
  have hempty : Content.element v.name [] [] ≠ .element v.name [] [.text v.value] := fun heq ↦ by
    cases heq
  rcases h.token hin with ⟨s', htoken, hone, hlast', hgt | hcomplete⟩ | ⟨htoken, hlt | hclose⟩
  · rw [readLoop_end (Parser.getNextNode_return hcurr
      (Parser.nodePass_gt_token htoken hgt hone .reset))] at hread
    cases hread
    exact ⟨_, hempty, Around.property.root⟩
  · have hadd : Current.add (⟨v.name, [], []⟩, [⟨"e:property".toList, [], []⟩,
        ⟨"e:propertyset".toList, as, before.map property⟩, document])
        ⟨.ELEMENT_NODE, some s'.lastElem, none, true⟩ =
        .ok (⟨"e:property".toList, [], [.element v.name [] []]⟩,
          [⟨"e:propertyset".toList, as, before.map property⟩, document]) := by
      rw [Current.add]
      simp only [Bool.not_true, Bool.false_eq_true, if_false, if_pos (hlast'.trans hlast)]
      rfl
    rw [readLoop_step (Parser.getNextNode_return hcurr
      (Parser.nodePass_completeTag_token htoken hcomplete)) hadd
      (fun h : NodeType.ELEMENT_NODE = .INVALID_NODE ↦ by cases h)] at hread
    exact ⟨_, hempty, Around.property.readLoop hread⟩
  · rw [hlt] at htoken
    exact absurd hread (read_lt hin hsuffix htoken)
  · rw [hclose] at htoken
    have hdoc := read_endTag hin htoken hread
    have hname : Content.element v.name [] [.text v.name] ≠
        .element v.name [] [.text v.value] := by
      intro heq
      have htext := (List.cons.inj (Content.element.inj heq).2.2).1
      rw [hclose] at htext
      exact Parser.IsName_not_markup v.isName (Content.text.inj htext ▸ by decide)
    rw [hdoc]
    exact ⟨_, hname, Around.property.root⟩

instance (v : Variable) : Decidable (EndsTag v) := inferInstanceAs (Decidable (_ = true))

instance (v : Variable) : Decidable (Misread v) := inferInstanceAs (Decidable (_ ∨ _))

/-- With a value that is misread, the set is not read back. -/
theorem not_readsBack {vars : List Variable} (h : ∃ v ∈ vars, Misread v) :
    ¬ ReadsBack (propertySetText vars) vars := by
  obtain ⟨v, hfound⟩ := Option.isSome_iff_exists.mp
    (List.find?_isSome.mpr (show ∃ v ∈ vars, decide (Misread v) = true by simpa using h))
  obtain ⟨hmisread, before, after, hvars, hbefore⟩ := List.find?_eq_some_iff_append.mp hfound
  have hmisread := of_decide_eq_true hmisread
  have hgood : ∀ v ∈ before, ¬ Misread v := fun v hv hmis ↦ by
    have hnot := hbefore v hv
    rw [decide_eq_true hmis] at hnot
    cases hnot
  obtain ⟨s, hbetween, hrun⟩ := read_set vars .reset
  have hbody : body vars =
      (before.flatMap variablePieces).flatten ++ ((variablePieces v).flatten ++ body after) := by
    rw [body, hvars, List.flatMap_append, List.flatMap_cons, List.flatten_append,
      List.flatten_append, List.append_assoc, List.append_assoc, body]
  have hbetween' := hbetween
  rw [hbody] at hbetween'
  obtain ⟨s₁, k, hbetween₁, hrun₁⟩ :=
    @read_properties s _ _ openSet [document] before hgood hbetween'
  obtain ⟨s₂, hin, hlast, hbuff, hsuffix, hrun₂⟩ := @open_property s₁ v _ _
    { openSet with children := openSet.children ++ before.map property } [document] hbetween₁
  intro hback
  obtain ⟨fuel, doc, hread, hholds⟩ := hback .reset
  -- enough fuel for every step
  have hmore := readDocument_mono hread (k + 9)
  have hsteps : readDocument (fuel + (k + 9)) .reset (propertySetText vars) =
      readLoop (fuel + 5) s₂ .reset (⟨v.name, [], []⟩, [⟨"e:property".toList, [], []⟩,
        ⟨"e:propertyset".toList, openSet.attributes, before.map property⟩, document]) := by
    have h₁ := hrun (fuel + k + 3)
    have h₂ := hrun₁ (fuel + 5)
    have h₃ := hrun₂ (fuel + 3)
    rw [show fuel + (k + 9) = fuel + k + 3 + 6 by omega, h₁,
      show fuel + k + 3 + 4 = fuel + 5 + k + 2 by omega, h₂]
    exact h₃
  rw [hsteps] at hmore
  obtain ⟨t, ht, hfirst⟩ := hmisread.hasFirst hin hlast
    (hbuff ▸ (List.suffix_append _ _).trans hsuffix) hmore
  rw [hvars] at hholds
  exact hfirst.not_holds (v.value_ne_nil hmisread.text_ne_nil) ht hholds

theorem readsBack_iff (vars : List Variable) :
    ReadsBack (propertySetText vars) vars ↔ ∀ v ∈ vars, ¬ Misread v := by
  constructor
  · intro h v hv hmis
    exact not_readsBack ⟨v, hv, hmis⟩ h
  · exact readsBack_of_not_misread

/-! ## The allocation -/

/-- There is no block of the size, as it is negative as an `int`. -/
def TooLarge (vars : List Variable) : Prop := wrap32 (propertySetSize vars + 1) < 0

theorem flatten_pieces (vars : List Variable) :
    (propertySetPieces vars ++ [['\x00']]).flatten = propertySetText vars ++ ['\x00'] := by
  rw [List.flatten_append, List.flatten_singleton, propertySetText]

theorem length_written (vars : List Variable) :
    (propertySetText vars ++ ['\x00']).length = propertySetSize vars + 1 := by
  rw [List.length_append, length_propertySetText, List.length_singleton]

/-- A block of the right size is filled. -/
theorem fill_block (vars : List Variable) :
    (Buffer.alloc (propertySetSize vars + 1)).memcpyAll 0 (propertySetPieces vars ++ [['\x00']]) =
      some ((propertySetText vars ++ ['\x00']).map some) := by
  have hfill := @Buffer.memcpyAll_append [] (Buffer.alloc (propertySetSize vars + 1))
    (propertySetPieces vars ++ [['\x00']])
    (by rw [flatten_pieces, length_written, Buffer.length_alloc])
  have hrest : (Buffer.alloc (propertySetSize vars + 1)).drop
      (propertySetText vars ++ ['\x00']).length = [] := by
    rw [List.drop_eq_nil_iff, length_written, Buffer.length_alloc]
  rwa [flatten_pieces, hrest, List.append_nil, List.nil_append, List.nil_append,
    List.length_nil] at hfill

/-- A byte is written outside of a block that is smaller. -/
theorem fill_small {vars : List Variable} {size : Nat} (h : size < propertySetSize vars + 1) :
    (Buffer.alloc size).memcpyAll 0 (propertySetPieces vars ++ [['\x00']]) = none := by
  have hfault := @Buffer.memcpyAll_eq_none [] (Buffer.alloc size)
    (propertySetPieces vars ++ [['\x00']])
    (by rwa [flatten_pieces, length_written, Buffer.length_alloc])
  rwa [List.nil_append, List.length_nil] at hfault

/-- What an `int` makes of the size. -/
theorem size_cases {size : Nat} (h : ¬ wrap32 (size + 1) < 0) :
    (size < 2147483647 → (wrap32 (size + 1)).toNat = size + 1) ∧
      (¬ size < 2147483647 → (wrap32 (size + 1)).toNat < size + 1) := by
  obtain ⟨hlow, hhigh⟩ := wrap32_range (size + 1)
  obtain ⟨k, hk⟩ := wrap32_dvd (size + 1)
  generalize wrap32 (size + 1) = wrapped at hlow hhigh hk h ⊢
  omega

theorem generatePropertySet_true {vars : List Variable} (h : ¬ TooLarge vars) :
    generatePropertySet true vars =
      written ((Buffer.alloc (wrap32 (propertySetSize vars + 1)).toNat).memcpyAll 0
        (propertySetPieces vars ++ [['\x00']])) := by
  rw [TooLarge, not_lt] at h
  rw [generatePropertySet, malloc, Bool.true_and, if_pos (decide_eq_true h)]

theorem generatePropertySet_small {vars : List Variable} (h : ¬ TooLarge vars)
    (hsmall : propertySetSize vars < 2147483647) :
    generatePropertySet true vars = .done ((propertySetText vars ++ ['\x00']).map some) := by
  rw [generatePropertySet_true h, (size_cases h).1 hsmall, fill_block, written]

theorem generatePropertySet_overflow {vars : List Variable} (h : ¬ TooLarge vars)
    (hlarge : ¬ propertySetSize vars < 2147483647) : generatePropertySet true vars = .fault := by
  rw [generatePropertySet_true h, fill_small ((size_cases h).2 hlarge), written]

theorem delivered_done_iff {vars : List Variable} :
    Delivered vars (.done ((propertySetText vars ++ ['\x00']).map some)) ↔
      ∀ v ∈ vars, ¬ Misread v := by
  rw [← readsBack_iff]
  constructor
  · intro h
    cases h with
    | done h => exact h
  · exact .done

/-- A property set fills its block and is read back if and only if there is no block of its size,
or an `int` keeps the size and no value is misread. -/
theorem roundTrips_iff (vars : List Variable) :
    RoundTrips vars ↔ TooLarge vars ∨
      propertySetSize vars < 2147483647 ∧ ∀ v ∈ vars, ¬ Misread v := by
  have hfalse : generatePropertySet false vars = .refused := by
    rw [generatePropertySet, malloc, Bool.false_and]
    rfl
  by_cases hlarge : TooLarge vars
  · have hnone : generatePropertySet true vars = .refused := by
      rw [generatePropertySet, malloc, decide_eq_false (not_le.mpr hlarge), Bool.and_false]
      rfl
    refine iff_of_true (fun ok ↦ ?_) (Or.inl hlarge)
    cases ok with
    | false =>
      rw [hfalse]
      exact .refused
    | true =>
      rw [hnone]
      exact .refused
  · constructor
    · intro h
      have htrue := h true
      by_cases hsmall : propertySetSize vars < 2147483647
      · rw [generatePropertySet_small hlarge hsmall, delivered_done_iff] at htrue
        exact Or.inr ⟨hsmall, htrue⟩
      · rw [generatePropertySet_overflow hlarge hsmall] at htrue
        cases htrue
    · rintro (h | ⟨hsmall, hgood⟩)
      · exact absurd h hlarge
      · intro ok
        cases ok with
        | false =>
          rw [hfalse]
          exact .refused
        | true =>
          rw [generatePropertySet_small hlarge hsmall, delivered_done_iff]
          exact hgood

/-- A variable whose value is `>`, escaped. -/
def gtVariable : Variable where
  name := "a".toList
  text := "&gt;".toList
  value := ">".toList
  isName := ⟨'a'.toNat, [], by decide +kernel, by decide, by decide⟩
  unescapes := .cons (.entity (show ("&gt;".toList, 0x3E) ∈ entities by decide)) .nil
  lt_not_mem := by decide
  nonblank := Or.inr ⟨'&', by decide, by decide⟩

/-- Its value is lost, and the parser reports no error. -/
theorem gt_not_read_back : Misread gtVariable ∧ ¬ RoundTrips [gtVariable] := by
  have hmis : Misread gtVariable := by decide
  have hsize : propertySetSize [gtVariable] = 114 := by decide +kernel
  have hlarge : ¬ TooLarge [gtVariable] := by
    rw [TooLarge, hsize]
    decide
  have hsmall : propertySetSize [gtVariable] < 2147483647 := by
    rw [hsize]
    decide
  refine ⟨hmis, fun h ↦ ?_⟩
  have htrue := h true
  rw [generatePropertySet_small hlarge hsmall, delivered_done_iff] at htrue
  exact htrue gtVariable (List.mem_singleton_self _) hmis

end Upnp.Gena.PropertySet
