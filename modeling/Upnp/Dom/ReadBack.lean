import Upnp.Dom.NonEscaped
import Upnp.Xml.Attributes

/-!
# Printed documents are read back

`UpnpParse_Buffer` on what `UpnpNewPrintDocument` prints.  A text is printed right behind the start
tag only when it is the first child, and the tokenizer compares the decoded text with its marks;
trees that keep clear of both are read back as they are.
-/

namespace Upnp.Dom

open Upnp.Lib Upnp.Xml

/-! ## Trees that are read back -/

/-- A text of XML characters, in UTF-8. -/
def IsText (v : CString) : Prop :=
  ∃ cs : List Nat, (∀ c ∈ cs, isxmlch c = true) ∧ v = cs.flatMap toutf8

/-- A value of an attribute: double quotes are not escaped, and an empty value is an error. -/
structure ReadableValue (v : CString) : Prop where
  isText : IsText v
  ne_nil : v ≠ []
  quote_not_mem : '"' ∉ v

/-- The text of an element: not blank, and none of the marks of the tokenizer. -/
structure ReadableText (v : CString) : Prop where
  isText : IsText v
  nonblank : ∃ c ∈ v, c ∉ WHITESPACE
  not_markup : v ∉ Parser.markup

/-- The name of an element, and its attributes. -/
structure ReadableTag (name : CString) (attributes : List (CString × CString)) : Prop where
  isName : IsName name
  attributes : ∀ a ∈ attributes, IsName a.1 ∧ ReadableValue a.2

def IsElement : Content → Prop
  | .text _ => False
  | .element .. => True

mutual

def Readable : Content → Prop
  | .text v => ReadableText v
  | .element name attributes children => ReadableTag name attributes ∧ ReadableChildren children

/-- Behind its first child, an element has only elements. -/
def ReadableChildren : List Content → Prop
  | [] => True
  | child :: children => Readable child ∧ ReadableElements children

def ReadableElements : List Content → Prop
  | [] => True
  | child :: children => IsElement child ∧ Readable child ∧ ReadableElements children

end

variable {v name rest content : CString} {c : Char} {attributes : List (CString × CString)}

/-! ## Escaped texts -/

theorem copy_with_escape_append (v t : CString) :
    copy_with_escape (v ++ t) = copy_with_escape v ++ copy_with_escape t := List.flatMap_append

/-- The escape of a character spells it. -/
theorem escape_spells {d : Nat} (hxml : isxmlch d = true) :
    Spells (copy_with_escape (toutf8 d)) d := by
  have hle := (isxmlch_bounds hxml).2
  rcases Nat.lt_or_ge 127 d with hlt | hge
  · have hbytes := toutf8_ge hlt (by omega)
    have hsame : copy_with_escape (toutf8 d) = toutf8 d := by
      have hall : ∀ b ∈ toutf8 d, b ≠ '<' ∧ b ≠ '>' ∧ b ≠ '&' ∧ b ≠ '\'' := by
        intro b hb
        have hge := hbytes b hb
        refine ⟨?_, ?_, ?_, ?_⟩
        all_goals
          rintro rfl
          exact absurd hge (by decide)
      generalize toutf8 d = bytes at hall
      induction bytes with
      | nil => rfl
      | cons b bytes ih =>
        obtain ⟨hb₁, hb₂, hb₃, hb₄⟩ := hall b (List.mem_cons_self ..)
        rw [copy_with_escape, List.flatMap_cons, if_neg hb₁, if_neg hb₂, if_neg hb₃, if_neg hb₄,
          ← copy_with_escape, ih fun b hb ↦ hall b (List.mem_cons_of_mem _ hb)]
        rfl
    rw [hsame]
    exact .char hxml (by rintro rfl; exact absurd hlt (by decide))
  · rw [toutf8_ascii hge]
    have hone (e : Char) : copy_with_escape [e] = if e = '<' then "&lt;".toList
        else if e = '>' then "&gt;".toList else if e = '&' then "&amp;".toList
        else if e = '\'' then "&apos;".toList else [e] := by
      rw [copy_with_escape, List.flatMap_singleton]
    have hof : (Char.ofNat d).toNat = d := toNat_ofNat_byte d (by omega)
    have hd {e : Char} (he : Char.ofNat d = e) : d = e.toNat := by rw [← he, hof]
    rw [hone]
    split_ifs with h₁ h₂ h₃ h₄
    · rw [hd h₁]
      exact .entity (by decide)
    · rw [hd h₂]
      exact .entity (by decide)
    · rw [hd h₃]
      exact .entity (by decide)
    · rw [hd h₄]
      exact .entity (by decide)
    · rw [← toutf8_ascii hge]
      refine .char hxml fun heq ↦ h₃ ?_
      rw [heq]
      rfl

/-- What `copy_with_escape` writes, `copy_token` decodes. -/
theorem IsText.unescapes (h : IsText v) : Unescapes (copy_with_escape v) v := by
  obtain ⟨cs, hcs, rfl⟩ := h
  induction cs with
  | nil => exact .nil
  | cons d cs ih =>
    rw [List.flatMap_cons, copy_with_escape_append]
    exact .cons (escape_spells (hcs d (List.mem_cons_self ..)))
      (ih fun e he ↦ hcs e (List.mem_cons_of_mem _ he))

/-- An escaped text has no new characters but those of the entities. -/
theorem mem_escaped (h : c ∈ copy_with_escape v) :
    c ∈ v ∧ c ≠ '<' ∧ c ≠ '>' ∨ c ∈ "&lt;gamposquo".toList := by
  obtain ⟨d, hd, hc⟩ := List.mem_flatMap.mp h
  split_ifs at hc with h₁ h₂ h₃ h₄
  · exact .inr ((show ∀ e ∈ "&lt;".toList, e ∈ "&lt;gamposquo".toList from
      forall_mem_of_all (by decide)) c hc)
  · exact .inr ((show ∀ e ∈ "&gt;".toList, e ∈ "&lt;gamposquo".toList from
      forall_mem_of_all (by decide)) c hc)
  · exact .inr ((show ∀ e ∈ "&amp;".toList, e ∈ "&lt;gamposquo".toList from
      forall_mem_of_all (by decide)) c hc)
  · exact .inr ((show ∀ e ∈ "&apos;".toList, e ∈ "&lt;gamposquo".toList from
      forall_mem_of_all (by decide)) c hc)
  · rw [List.mem_singleton.mp hc]
    exact .inl ⟨hd, h₁, h₂⟩

theorem lt_not_mem_escaped (v : CString) : '<' ∉ copy_with_escape v := by
  intro h
  rcases mem_escaped h with ⟨-, h, -⟩ | h
  · exact h rfl
  · exact absurd h (by decide)

theorem gt_not_mem_escaped (v : CString) : '>' ∉ copy_with_escape v := by
  intro h
  rcases mem_escaped h with ⟨-, -, h⟩ | h
  · exact h rfl
  · exact absurd h (by decide)

theorem quote_not_mem_escaped (h : '"' ∉ v) : '"' ∉ copy_with_escape v := by
  intro hmem
  rcases mem_escaped hmem with ⟨hv, -⟩ | hmem
  · exact h hv
  · exact absurd hmem (by decide)

theorem escaped_ne_nil (h : v ≠ []) : copy_with_escape v ≠ [] := by
  intro hnil
  have hlength := (length_escaped v).1
  rw [hnil] at hlength
  exact h (List.eq_nil_of_length_eq_zero (Nat.le_zero.mp hlength))

/-! ## Runs of the parser -/

/-- The loop over the nodes ends with the document. -/
def Reads (s : Parser) (current : Current) (doc : List Content) : Prop :=
  ∃ fuel, readLoop fuel s .reset current = .ok doc

variable {s s' : Parser} {n : NextNode} {current current' : Current} {doc : List Content}
  {ws : CString} {fuel : Nat}

/-- A node that is found goes in front of a run. -/
theorem Reads.step (hnode : s.getNextNode fuel .reset = .ok (s', n))
    (hadd : current.add n = .ok current') (hne : n.nodeType ≠ .INVALID_NODE)
    (h : Reads s' current' doc) : Reads s current doc := by
  obtain ⟨more, h⟩ := h
  have hmore (k : Nat) : readLoop (more + k) s' .reset current' = .ok doc := by
    induction k with
    | zero => exact h
    | succ k ih => exact readLoop_mono ih
  refine ⟨fuel + more + 1, ?_⟩
  rw [readLoop_step (Parser.getNextNode_more hnode more) hadd hne, Nat.add_comm fuel]
  exact hmore fuel

/-- A pass that finds no node goes in front of a run. -/
theorem Reads.pass (hcurr : s.currPtr ≠ []) (hpass : s.nodePass .reset = .ok (s', .reset, false))
    (h : Reads s' current doc) : Reads s current doc := by
  obtain ⟨fuel, h⟩ := h
  cases fuel with
  | zero => cases h
  | succ fuel =>
    refine ⟨fuel + 2, ?_⟩
    have hnode := @Parser.getNextNode_pass s fuel .reset _ _ hcurr hpass
    have hmore := readLoop_mono h
    rw [readLoop] at hmore ⊢
    rw [hnode]
    cases hfound : s'.getNextNode fuel .reset with
    | error fault =>
      rw [readLoop, hfound] at h
      cases h
    | ok found => rwa [Parser.getNextNode_mono hfound] at hmore

/-- The attributes that are found go to the innermost node. -/
theorem Reads.append_attributes {as : List Attribute} {o : OpenNode} {os : List OpenNode}
    (hyields : s.Yields (as.map Attribute.node) s')
    (h : Reads s' ({ o with attributes := o.attributes ++ as.map fun a ↦ (a.key, a.value) }, os)
      doc) : Reads s (o, os) doc := by
  induction as generalizing s o with
  | nil =>
    cases hyields
    rwa [List.map_nil, List.append_nil] at h
  | cons a as ih =>
    cases hyields with
    | cons hnode hyields =>
      refine .step hnode rfl (fun h : Xml.NodeType.ATTRIBUTE_NODE = .INVALID_NODE ↦ by cases h) ?_
      refine ih hyields ?_
      rw [List.map_cons, List.append_cons] at h
      exact h

/-- Nodes that have the same first pass. -/
theorem Reads.congr (hcurr : s.currPtr ≠ []) (hcurr' : s'.currPtr ≠ [])
    (hpass : s.nodePass .reset = s'.nodePass .reset) (h : Reads s' current doc) :
    Reads s current doc := by
  have hnode (fuel : Nat) : s.getNextNode fuel .reset = s'.getNextNode fuel .reset := by
    cases fuel with
    | zero => rw [Parser.getNextNode, Parser.getNextNode, if_neg hcurr, if_neg hcurr']
    | succ fuel => rw [Parser.getNextNode, Parser.getNextNode, if_neg hcurr, if_neg hcurr', hpass]
  obtain ⟨fuel, h⟩ := h
  cases fuel with
  | zero => cases h
  | succ fuel => exact ⟨fuel + 1, (readLoop_congr (hnode fuel) rfl).trans h⟩

theorem yields_held {ns : List NextNode} (h : s.Yields ns s') (hs : s.Held) : s'.Held := by
  induction h with
  | nil => exact hs
  | cons hnode _ ih => exact ih (hs.getNextNode (fun heq ↦ by cases heq) hnode).1

/-- Between two nodes, in front of `p`. -/
structure Ready (s : Parser) (p : CString) : Prop where
  held : s.Held
  atLeastOneAttrFound : s.atLeastOneAttrFound = false
  currPtr : s.currPtr = p

/-- In front of the content of an element. -/
structure AtContent (s : Parser) (content : CString) : Prop where
  held : s.Held
  inContent : s.InContent content

theorem AtContent.ready (h : AtContent s content) : Ready s content :=
  ⟨h.held, h.inContent.atLeastOneAttrFound, h.inContent.currPtr⟩

/-- White space in front of a tag is passed over. -/
theorem Ready.skip_white (h : Ready s (ws ++ '<' :: rest)) (hws : ∀ c ∈ ws, c ∈ WHITESPACE) :
    ∃ s', Ready s' ('<' :: rest) ∧ ∀ current doc, Reads s' current doc → Reads s current doc := by
  have htoken := Parser.nextToken_eq h.held.inAttrib hws (fun c hc ↦ by cases hc; decide) h.currPtr
  have htoken' : Parser.nextToken { s with currPtr := '<' :: rest } =
      Parser.getNextToken { s with currPtr := '<' :: rest } :=
    Parser.nextToken_here h.held.inAttrib (by decide) rfl
  have hsuffix : '<' :: rest <:+ s.parseBuff :=
    (List.suffix_append ws _).trans (h.currPtr ▸ h.held.inside.currPtr)
  refine ⟨{ s with currPtr := '<' :: rest },
    ⟨⟨h.held.inAttrib, hsuffix, h.held.inside.savePtr⟩, h.atLeastOneAttrFound, rfl⟩, ?_⟩
  intro current doc hreads
  refine hreads.congr ?_ (List.cons_ne_nil _ _) ?_
  · rw [h.currPtr]
    exact List.append_ne_nil_of_right_ne_nil ws (List.cons_ne_nil _ _)
  · rw [Parser.nodePass, Parser.nodePass, htoken, htoken']

/-! ## Tags -/

theorem blanks_white : ∀ c ∈ "  ".toList, c ∈ WHITESPACE := forall_mem_of_all (by decide)

theorem blanks_ne_nil : "  ".toList ≠ [] := by decide

/-- The attributes of an element, each behind the same white space. -/
def writtenAttributes (ws : CString) (attributes : List (CString × CString)) : CString :=
  attributes.flatMap fun a ↦ ws ++ a.1 ++ "=\"".toList ++ copy_with_escape a.2 ++ ['"']

/-- An attribute, as it is written. -/
def writtenAttribute (ws : CString) (hne : ws ≠ []) (hws : ∀ c ∈ ws, c ∈ WHITESPACE)
    (a : CString × CString) (hname : IsName a.1) (hvalue : ReadableValue a.2) : Attribute where
  ws := ws
  key := a.1
  ws₁ := []
  ws₂ := []
  text := copy_with_escape a.2
  value := a.2
  ws_ne_nil := hne
  ws_white := hws
  ws₁_white := fun c hc ↦ by cases hc
  ws₂_white := fun c hc ↦ by cases hc
  isName := hname
  quote_not_mem := quote_not_mem_escaped hvalue.quote_not_mem
  unescapes := hvalue.isText.unescapes

theorem writtenAttributes_cons (hne : ws ≠ []) (hws : ∀ c ∈ ws, c ∈ WHITESPACE)
    {a : CString × CString} (hname : IsName a.1) (hvalue : ReadableValue a.2) (rest : CString) :
    writtenAttributes ws (a :: attributes) ++ rest =
      (writtenAttribute ws hne hws a hname hvalue).write (writtenAttributes ws attributes ++ rest) := by
  rw [writtenAttributes, List.flatMap_cons, ← writtenAttributes, Attribute.write]
  simp only [List.append_assoc]
  rfl

/-- The attributes of an element, as they are written. -/
theorem exists_attributes (hne : ws ≠ []) (hws : ∀ c ∈ ws, c ∈ WHITESPACE)
    (h : ∀ a ∈ attributes, IsName a.1 ∧ ReadableValue a.2) :
    ∃ as : List Attribute,
      (∀ rest, as.foldr Attribute.write rest = writtenAttributes ws attributes ++ rest) ∧
      (as.map fun a ↦ (a.key, a.value)) = attributes ∧ ∀ a ∈ as, a.text ≠ [] := by
  induction attributes with
  | nil => exact ⟨[], fun rest ↦ rfl, rfl, fun a ha ↦ by cases ha⟩
  | cons a attributes ih =>
    obtain ⟨as, hwrite, hmap, hnonempty⟩ := ih fun b hb ↦ h b (List.mem_cons_of_mem _ hb)
    obtain ⟨hname, hvalue⟩ := h a (List.mem_cons_self ..)
    refine ⟨writtenAttribute ws hne hws a hname hvalue :: as, fun rest ↦ ?_, ?_, ?_⟩
    · rw [List.foldr_cons, hwrite, writtenAttributes_cons hne hws hname hvalue]
    · rw [List.map_cons, hmap]
      rfl
    · intro b hb
      rcases List.mem_cons.mp hb with rfl | hb
      · exact escaped_ne_nil hvalue.ne_nil
      · exact hnonempty b hb

/-- A tag with attributes is read up to its end. -/
theorem Ready.inTag {t : Tag} (h : Ready s (t.write rest)) (hattributes : t.attributes ≠ [])
    (hne : ∀ a ∈ t.attributes, a.text ≠ []) :
    ∃ s', s'.Held ∧ s'.InTag s.savePtr t.name (t.writeEnd rest) ∧
      s'.atLeastOneAttrFound = true ∧ ∀ o os doc,
        Reads s' (⟨t.name, t.attributes.map fun a ↦ (a.key, a.value), []⟩, o :: os) doc →
          Reads s (o, os) doc := by
  obtain ⟨a, as, has⟩ := List.exists_cons_of_ne_nil hattributes
  obtain ⟨s₁, c, hnode, hc, hin⟩ := h.held.element has h.currPtr
  rw [has] at hne
  let first : Attribute :=
    { a with ws := [c], ws_ne_nil := List.cons_ne_nil c [],
             ws_white := fun e he ↦ List.mem_singleton.mp he ▸ hc }
  have hfirst : ∀ b ∈ first :: as, b.text ≠ [] := by
    intro b hb
    rcases List.mem_cons.mp hb with rfl | hb
    · exact hne a (List.mem_cons_self ..)
    · exact hne b (List.mem_cons_of_mem _ hb)
  obtain ⟨s₂, hyields, hin₂, hone⟩ := Parser.InTag.attributes (first :: as) hin hfirst
  have hheld := (h.held.getNextNode (fun heq ↦ by cases heq) hnode).1
  refine ⟨s₂, yields_held hyields hheld, hin₂, hone (List.cons_ne_nil first as), ?_⟩
  intro o os doc hreads
  rw [has] at hreads
  exact .step hnode rfl (fun h : Xml.NodeType.ELEMENT_NODE = .INVALID_NODE ↦ by cases h)
    (.append_attributes hyields hreads)

/-- The tag of an element. -/
theorem exists_tag (hne : ws ≠ []) (hws : ∀ c ∈ ws, c ∈ WHITESPACE)
    (htag : ReadableTag name attributes) (complete : Bool) : ∃ t : Tag,
    t.name = name ∧ (t.attributes.map fun a ↦ (a.key, a.value)) = attributes ∧
      t.complete = complete ∧ (∀ a ∈ t.attributes, a.text ≠ []) ∧ ∀ rest, t.write rest =
        '<' :: (name ++ (writtenAttributes ws attributes ++
          if complete then '/' :: '>' :: rest else '>' :: rest)) ∧
        t.writeEnd rest = if complete then '/' :: '>' :: rest else '>' :: rest := by
  obtain ⟨as, hwrite, hmap, hnonempty⟩ := exists_attributes hne hws htag.attributes
  refine ⟨⟨name, as, [], complete, htag.isName, fun c hc ↦ by cases hc⟩, rfl, hmap, rfl, hnonempty,
    fun rest ↦ ⟨?_, rfl⟩⟩
  rw [Tag.write, hwrite]
  rfl

/-- A start tag opens its element. -/
theorem Ready.startTag (hne : ws ≠ []) (hws : ∀ c ∈ ws, c ∈ WHITESPACE)
    (htag : ReadableTag name attributes)
    (h : Ready s ('<' :: (name ++ (writtenAttributes ws attributes ++ '>' :: content)))) :
    ∃ s', AtContent s' content ∧ ∀ o os doc,
      Reads s' (⟨name, attributes, []⟩, o :: os) doc → Reads s (o, os) doc := by
  obtain ⟨t, rfl, rfl, -, hnonempty, hwrite⟩ := exists_tag hne hws htag false
  obtain ⟨hwrite, hend⟩ := hwrite content
  by_cases hattributes : t.attributes = []
  · have hcurr := h.currPtr
    rw [hattributes] at hcurr ⊢
    have hnode := @Parser.getNextNode_startTag s [] _ _ h.held.inAttrib (fun c hc ↦ by cases hc)
      t.isName hcurr .reset 0
    refine ⟨_, ⟨(h.held.getNextNode (fun heq ↦ by cases heq) hnode).1, ?_⟩, fun o os doc hreads ↦
      .step hnode rfl (fun h : Xml.NodeType.ELEMENT_NODE = .INVALID_NODE ↦ by cases h) hreads⟩
    exact ⟨h.held.inAttrib, rfl, rfl, rfl, rfl, rfl⟩
  · have hready : Ready s (t.write content) := by
      rw [hwrite]
      exact h
    obtain ⟨s', hheld, hin, hone, hrun⟩ := hready.inTag hattributes hnonempty
    have hcurr : s'.currPtr = '>' :: content := hin.currPtr.trans hend
    have hpass := Parser.nodePass_gt_attributes hin.inAttrib hone hcurr .reset
    refine ⟨_, ⟨(hheld.nodePass (fun heq ↦ by cases heq) hpass).1, ?_⟩, fun o os doc hreads ↦
      hrun o os doc (.pass (hcurr ▸ List.cons_ne_nil _ _) hpass hreads)⟩
    exact ⟨hin.inAttrib, rfl, rfl, rfl, rfl, rfl⟩

/-- An empty element is closed when its end is read. -/
theorem Reads.close_empty {o : OpenNode} {os : List OpenNode} (hattr : s.inAttrib = false)
    (hlast : s.lastElem = name) (hcurr : s.currPtr = '/' :: '>' :: rest)
    (h : Reads { s with
      tokBuf := "/>".toList, currPtr := rest, tagVal := true, attrFound := true
      atLeastOneAttrFound := false } (o.appendChild (.element name attributes []), os) doc) :
    Reads s (⟨name, attributes, []⟩, o :: os) doc := by
  have hnode := Parser.getNextNode_completeTag hattr (fun c hc ↦ by cases hc)
    (show s.currPtr = [] ++ '/' :: '>' :: rest from hcurr) 0
  have hadd : Current.add (⟨name, attributes, []⟩, o :: os)
      ⟨.ELEMENT_NODE, some s.lastElem, none, true⟩ =
      .ok (o.appendChild (.element name attributes []), os) := by
    rw [Current.add]
    simp only [Bool.not_true, Bool.false_eq_true, if_false, if_pos hlast]
    rfl
  exact .step hnode hadd (fun h : Xml.NodeType.ELEMENT_NODE = .INVALID_NODE ↦ by cases h) h

/-- An empty-element tag. -/
theorem Ready.emptyTag (htag : ReadableTag name attributes)
    (h : Ready s ('<' :: (name ++ (dumpAttributes attributes ++ '/' :: '>' :: rest)))) :
    ∃ s', Ready s' rest ∧ ∀ o os doc,
      Reads s' (o.appendChild (.element name attributes []), os) doc → Reads s (o, os) doc := by
  obtain ⟨t, rfl, rfl, hcomplete, hne, hwrite⟩ := exists_tag blanks_ne_nil blanks_white htag true
  obtain ⟨hwrite, hend⟩ := hwrite rest
  by_cases hattributes : t.attributes = []
  · have hcurr := h.currPtr
    rw [hattributes] at hcurr ⊢
    have hstart := @Parser.nodePass_startTag s [] t.name ('>' :: rest) h.held.inAttrib
      (fun c hc ↦ by cases hc) t.isName '/' (by decide) (by decide +kernel) hcurr .reset
    have hsuffix : '/' :: '>' :: rest <:+ s.parseBuff := by
      have hs := h.held.inside.currPtr
      rw [hcurr] at hs
      exact (List.suffix_append ('<' :: t.name) _).trans hs
    have hrewind := @Parser.nodePass_completeTag_rewind { s with
      currPtr := '/' :: '>' :: rest, tagVal := false, attrFound := true
      atLeastOneAttrFound := false, tokBuf := t.name, lastElem := t.name } [] rest
      ⟨.ELEMENT_NODE, some t.name, none, false⟩ h.held.inAttrib (fun c hc ↦ by cases hc) rfl hsuffix
      rfl
    have hnode := (@Parser.getNextNode_pass s 1 _ _ _ (hcurr ▸ List.cons_ne_nil _ _) hstart).trans
      (Parser.getNextNode_return (List.cons_ne_nil _ _) hrewind)
    have hheld := (h.held.getNextNode (fun heq ↦ by cases heq) hnode).1
    have hclose := Parser.getNextNode_completeTag hheld.inAttrib (fun c hc ↦ by cases hc)
      (show _ = [] ++ '/' :: '>' :: rest from rfl) 0
    refine ⟨_, ⟨(hheld.getNextNode (fun heq ↦ by cases heq) hclose).1, rfl, rfl⟩, ?_⟩
    intro o os doc hreads
    exact .step hnode rfl (fun h : Xml.NodeType.ELEMENT_NODE = .INVALID_NODE ↦ by cases h)
      (.close_empty hheld.inAttrib rfl rfl hreads)
  · have hready : Ready s (t.write rest) := by
      rw [hwrite]
      exact h
    obtain ⟨s', hheld, hin, hone, hrun⟩ := hready.inTag hattributes hne
    have hcurr : s'.currPtr = '/' :: '>' :: rest := hin.currPtr.trans hend
    have hclose := Parser.getNextNode_completeTag hheld.inAttrib (fun c hc ↦ by cases hc)
      (show s'.currPtr = [] ++ '/' :: '>' :: rest from hcurr) 0
    refine ⟨_, ⟨(hheld.getNextNode (fun heq ↦ by cases heq) hclose).1, rfl, rfl⟩, ?_⟩
    intro o os doc hreads
    exact hrun o os doc (.close_empty hheld.inAttrib hin.lastElem hcurr hreads)

/-- An end tag closes its element. -/
theorem Ready.endTag (hname : IsName name) (hws : ∀ c ∈ ws, c ∈ WHITESPACE)
    (h : Ready s (ws ++ '<' :: '/' :: (name ++ '>' :: rest))) :
    ∃ s', Ready s' rest ∧ ∀ parent os attributes children doc,
      Reads s' (parent.appendChild (.element name attributes children), os) doc →
        Reads s (⟨name, attributes, children⟩, parent :: os) doc := by
  have hnode := Parser.getNextNode_endTag h.held.inAttrib h.atLeastOneAttrFound hws hname h.currPtr
    .reset 0
  have hheld := (h.held.getNextNode (fun heq ↦ by cases heq) hnode).1
  refine ⟨_, ⟨hheld, h.atLeastOneAttrFound, rfl⟩, fun parent os attributes children doc hreads ↦ ?_⟩
  have hadd : Current.add (⟨name, attributes, children⟩, parent :: os)
      ⟨.ELEMENT_NODE, some name, none, true⟩ =
      .ok (parent.appendChild (.element name attributes children), os) := by
    rw [Current.add]
    simp only [Bool.not_true, Bool.false_eq_true, if_false, if_true]
    rfl
  exact .step hnode hadd (fun h : Xml.NodeType.ELEMENT_NODE = .INVALID_NODE ↦ by cases h) hreads

/-! ## Texts -/

theorem split_white {t : CString} (h : ∃ c ∈ t, c ∉ WHITESPACE) :
    ∃ ws c more, t = ws ++ c :: more ∧ (∀ e ∈ ws, e ∈ WHITESPACE) ∧ c ∉ WHITESPACE := by
  induction t with
  | nil =>
    obtain ⟨c, hc, -⟩ := h
    cases hc
  | cons e t ih =>
    by_cases he : e ∈ WHITESPACE
    · obtain ⟨c, hc, hnot⟩ := h
      have hmem : c ∈ t := (List.mem_cons.mp hc).resolve_left fun heq ↦ hnot (heq ▸ he)
      obtain ⟨ws, d, more, ht, hws, hd⟩ := ih ⟨c, hmem, hnot⟩
      refine ⟨e :: ws, d, more, ?_, ?_, hd⟩
      · rw [ht, List.cons_append]
      · intro x hx
        rcases List.mem_cons.mp hx with rfl | hx
        · exact he
        · exact hws x hx
    · exact ⟨[], e, t, rfl, (fun x hx ↦ by cases hx), he⟩

theorem nonblank_escaped (h : ∃ c ∈ v, c ∉ WHITESPACE) :
    ∃ c ∈ copy_with_escape v, c ∉ WHITESPACE := by
  obtain ⟨c, hc, hnot⟩ := h
  have hamp : '&' ∉ WHITESPACE := by decide
  by_cases hescaped : c = '<' ∨ c = '>' ∨ c = '&' ∨ c = '\''
  · refine ⟨'&', List.mem_flatMap.mpr ⟨c, hc, ?_⟩, hamp⟩
    rcases hescaped with rfl | rfl | rfl | rfl <;> decide
  · simp only [not_or] at hescaped
    obtain ⟨h₁, h₂, h₃, h₄⟩ := hescaped
    refine ⟨c, List.mem_flatMap.mpr ⟨c, hc, ?_⟩, hnot⟩
    rw [if_neg h₁, if_neg h₂, if_neg h₃, if_neg h₄]
    exact List.mem_singleton_self c

/-- The text of an element is read up to the next tag. -/
theorem AtContent.text (h : AtContent s (copy_with_escape v ++ '<' :: rest))
    (hv : ReadableText v) (hrest : rest.head? ≠ some '!') :
    ∃ s', Ready s' ('<' :: rest) ∧ ∀ o os doc,
      Reads s' (o.appendChild (.text v), os) doc → Reads s (o, os) doc := by
  have hne : v ≠ [] := by
    rintro rfl
    obtain ⟨c, hc, -⟩ := hv.nonblank
    cases hc
  obtain ⟨ws, c, more, hsplit, hws, hc⟩ := split_white (nonblank_escaped hv.nonblank)
  have hmem : c ∈ copy_with_escape v := by
    rw [hsplit]
    exact List.mem_append_right _ (List.mem_cons_self ..)
  have hslash : (more ++ '<' :: rest).head? ≠ some '>' := by
    cases more with
    | nil =>
      intro heq
      cases heq
    | cons d more =>
      intro heq
      cases heq
      refine gt_not_mem_escaped v ?_
      rw [hsplit]
      exact List.mem_append_right _ (List.mem_cons_of_mem _ (List.mem_cons_self ..))
  have hin := h.inContent
  have hfirst : s.nextToken =
      Parser.getNextToken { s with currPtr := c :: (more ++ '<' :: rest) } := by
    rw [hsplit, List.append_assoc] at hin
    exact hin.nextToken_eq hws hc
  have htoken := @Parser.getNextToken_content { s with currPtr := c :: (more ++ '<' :: rest) } _ _ _
    hin.inAttrib hin.tagVal hin.savePtr _ _ rfl hc
    (fun heq ↦ lt_not_mem_escaped v (heq ▸ hmem)) (fun heq ↦ gt_not_mem_escaped v (heq ▸ hmem))
    (fun _ ↦ hslash) (lt_not_mem_escaped v) hrest hv.isText.unescapes (escaped_ne_nil hne)
  have hcurr : s.currPtr ≠ [] := by
    rw [hin.currPtr]
    exact List.append_ne_nil_of_right_ne_nil _ (List.cons_ne_nil _ _)
  have hnode := @Parser.getNextNode_return s 0 _ _ _ hcurr
    (Parser.nodePass_text (hfirst.trans htoken) hin.attrFound hne hv.not_markup .reset)
  refine ⟨_, ⟨(h.held.getNextNode (fun heq ↦ by cases heq) hnode).1, hin.atLeastOneAttrFound, rfl⟩,
    fun o os doc hreads ↦ ?_⟩
  exact .step hnode rfl (fun h : Xml.NodeType.TEXT_NODE = .INVALID_NODE ↦ by cases h) hreads

/-! ## Trees -/

/-- What is behind the `<` of a tag begins no declaration. -/
theorem head_siblings {children : List Content} (h : ReadableElements children) (rest : CString) :
    ∃ more, dumpSiblings children ++ '<' :: '/' :: rest = '<' :: more ∧ more.head? ≠ some '!' := by
  cases children with
  | nil => exact ⟨'/' :: rest, rfl, fun heq ↦ by cases heq⟩
  | cons child children =>
    cases child with
    | text => exact h.1.elim
    | element name attributes grandchildren =>
      obtain ⟨-, ⟨htag, -⟩, -⟩ := h
      obtain ⟨b, bs, hhead, hb⟩ := htag.isName.head
      refine ⟨name ++ dumpAttributes attributes ++ dumpChildren name grandchildren ++
        dumpSiblings children ++ '<' :: '/' :: rest, ?_, ?_⟩
      · rw [dumpSiblings, dump_doc, List.cons_append, List.cons_append]
      · rw [hhead]
        intro heq
        cases heq
        exact hb (by decide)

mutual

/-- An element is read up to the end of its line. -/
theorem Ready.element {s : Parser} {ws rest : CString} (child : Content)
    (helement : IsElement child) (hchild : Readable child)
    (hws : ∀ c ∈ ws, c ∈ WHITESPACE) (h : Ready s (ws ++ (dump_doc child ++ rest))) :
    ∃ s', Ready s' ('\n' :: rest) ∧ ∀ o os doc,
      Reads s' (o.appendChild child, os) doc → Reads s (o, os) doc := by
  match child with
  | .text _ => exact helement.elim
  | .element name attributes [] =>
    have hdump : dump_doc (.element name attributes []) ++ rest =
        '<' :: (name ++ (dumpAttributes attributes ++ '/' :: '>' :: '\n' :: rest)) := by
      rw [dump_doc, dumpChildren, List.cons_append, List.append_assoc, List.append_assoc]
      rfl
    rw [hdump] at h
    obtain ⟨s₁, hready₁, hrun₁⟩ := h.skip_white hws
    obtain ⟨s₂, hready₂, hrun₂⟩ := hready₁.emptyTag hchild.1
    exact ⟨s₂, hready₂, fun o os doc hreads ↦ hrun₁ _ _ (hrun₂ o os doc hreads)⟩
  | .element name attributes (first :: children) =>
    obtain ⟨htag, hfirst, hchildren⟩ := hchild
    have hdump : dump_doc (.element name attributes (first :: children)) ++ rest =
        '<' :: (name ++ (dumpAttributes attributes ++ (closeStart first ++ (dump_doc first ++
          (dumpSiblings children ++ '<' :: '/' :: (name ++ '>' :: '\n' :: rest)))))) := by
      rw [dump_doc, dumpChildren]
      simp only [List.append_assoc, List.cons_append]
      rfl
    rw [hdump] at h
    obtain ⟨s₁, hready₁, hrun₁⟩ := h.skip_white hws
    match first with
    | .text v =>
      obtain ⟨s₂, hcontent, hrun₂⟩ := hready₁.startTag blanks_ne_nil blanks_white htag
      obtain ⟨more, hmore, hhead⟩ := head_siblings hchildren (name ++ '>' :: '\n' :: rest)
      rw [dump_doc, hmore] at hcontent
      obtain ⟨s₃, hready₃, hrun₃⟩ := hcontent.text hfirst hhead
      rw [← hmore] at hready₃
      obtain ⟨s₄, ws₄, hws₄, hready₄, hrun₄⟩ := Ready.elements children hchildren
        (show ∀ c ∈ [], c ∈ WHITESPACE from fun c hc ↦ by cases hc) hready₃
      obtain ⟨s₅, hready₅, hrun₅⟩ := hready₄.endTag htag.isName hws₄
      exact ⟨s₅, hready₅, fun o os doc hreads ↦
        hrun₁ _ _ (hrun₂ _ _ _ (hrun₃ _ _ _ (hrun₄ _ _ _ (hrun₅ _ _ _ _ _ hreads))))⟩
    | .element name' attributes' children' =>
      obtain ⟨s₂, hcontent, hrun₂⟩ := hready₁.startTag blanks_ne_nil blanks_white htag
      obtain ⟨s₃, hready₃, hrun₃⟩ := Ready.element (.element name' attributes' children')
        trivial hfirst (show ∀ c ∈ ['\n'], c ∈ WHITESPACE from forall_mem_of_all (by decide))
        hcontent.ready
      obtain ⟨s₄, ws₄, hws₄, hready₄, hrun₄⟩ := Ready.elements children hchildren
        (show ∀ c ∈ ['\n'], c ∈ WHITESPACE from forall_mem_of_all (by decide)) hready₃
      obtain ⟨s₅, hready₅, hrun₅⟩ := hready₄.endTag htag.isName hws₄
      exact ⟨s₅, hready₅, fun o os doc hreads ↦
        hrun₁ _ _ (hrun₂ _ _ _ (hrun₃ _ _ _ (hrun₄ _ _ _ (hrun₅ _ _ _ _ _ hreads))))⟩

/-- Elements one behind the other. -/
theorem Ready.elements {s : Parser} {ws rest : CString} (children : List Content)
    (hchildren : ReadableElements children)
    (hws : ∀ c ∈ ws, c ∈ WHITESPACE) (h : Ready s (ws ++ (dumpSiblings children ++ rest))) :
    ∃ s' ws', (∀ c ∈ ws', c ∈ WHITESPACE) ∧ Ready s' (ws' ++ rest) ∧ ∀ o os doc,
      Reads s' ({ o with children := o.children ++ children }, os) doc → Reads s (o, os) doc := by
  match children with
  | [] => exact ⟨s, ws, hws, h, fun o os doc hreads ↦ by rwa [List.append_nil] at hreads⟩
  | child :: children =>
    obtain ⟨helement, hchild, hchildren⟩ := hchildren
    rw [dumpSiblings, List.append_assoc] at h
    obtain ⟨s₁, hready₁, hrun₁⟩ := Ready.element child helement hchild hws h
    obtain ⟨s₂, ws₂, hws₂, hready₂, hrun₂⟩ := Ready.elements children hchildren
      (show ∀ c ∈ ['\n'], c ∈ WHITESPACE from forall_mem_of_all (by decide)) hready₁
    refine ⟨s₂, ws₂, hws₂, hready₂, fun o os doc hreads ↦ hrun₁ _ _ _ (hrun₂ _ _ _ ?_)⟩
    rw [List.append_cons] at hreads
    exact hreads

end

/-! ## Texts and their nodes -/

/-- What is read of the text is the nodes, whatever is around it. -/
def Shows (t : CString) (cs : List Content) : Prop :=
  ∀ (s : Parser) (ws rest : CString), (∀ c ∈ ws, c ∈ WHITESPACE) → Ready s (ws ++ (t ++ rest)) →
    ∃ s' ws', (∀ c ∈ ws', c ∈ WHITESPACE) ∧ Ready s' (ws' ++ rest) ∧ ∀ o os doc,
      Reads s' ({ o with children := o.children ++ cs }, os) doc → Reads s (o, os) doc

/-- A start tag with one blank in front of each attribute. -/
def openingTag (name : CString) (attributes : List (CString × CString)) : CString :=
  '<' :: (name ++ writtenAttributes [' '] attributes ++ ['>'])

def closingTag (name : CString) : CString := '<' :: '/' :: (name ++ ['>'])

/-- An element that is written by hand. -/
def elementText (name : CString) (attributes : List (CString × CString)) (inner : CString) :
    CString :=
  openingTag name attributes ++ inner ++ closingTag name

/-- A text that is its own escape. -/
structure Verbatim (v : CString) : Prop where
  isText : IsText v
  nonblank : ∃ c ∈ v, c ∉ WHITESPACE
  escaped : copy_with_escape v = v

variable {t t' inner : CString} {cs cs' : List Content}

theorem shows_white (ht : ∀ c ∈ t, c ∈ WHITESPACE) : Shows t [] := by
  intro s ws rest hws hready
  refine ⟨s, ws ++ t, ?_, ?_, fun o os doc hreads ↦ ?_⟩
  · intro c hc
    rcases List.mem_append.mp hc with hc | hc
    · exact hws c hc
    · exact ht c hc
  · rwa [List.append_assoc]
  · rwa [List.append_nil] at hreads

theorem Shows.append (h : Shows t cs) (h' : Shows t' cs') : Shows (t ++ t') (cs ++ cs') := by
  intro s ws rest hws hready
  rw [List.append_assoc] at hready
  obtain ⟨s₁, ws₁, hws₁, hready₁, hrun₁⟩ := h s ws (t' ++ rest) hws hready
  obtain ⟨s₂, ws₂, hws₂, hready₂, hrun₂⟩ := h' s₁ ws₁ rest hws₁ hready₁
  refine ⟨s₂, ws₂, hws₂, hready₂, fun o os doc hreads ↦ hrun₁ o os doc (hrun₂ _ os doc ?_)⟩
  rwa [List.append_assoc]

/-- White space around a text shows nothing. -/
theorem Shows.between {before behind : CString} (h : Shows t cs)
    (hbefore : ∀ c ∈ before, c ∈ WHITESPACE) (hbehind : ∀ c ∈ behind, c ∈ WHITESPACE) :
    Shows (before ++ t ++ behind) cs := by
  have hall := ((shows_white hbefore).append h).append (shows_white hbehind)
  rwa [List.nil_append, List.append_nil] at hall

/-- A printed list of elements shows them. -/
theorem shows_siblings (h : ReadableElements cs) : Shows (dumpSiblings cs) cs :=
  fun _ _ _ hws hready ↦ Ready.elements cs h hws hready

theorem elementText_append (name inner rest : CString) :
    elementText name attributes inner ++ rest = '<' :: (name ++ (writtenAttributes [' '] attributes ++
      '>' :: (inner ++ '<' :: '/' :: (name ++ '>' :: rest)))) := by
  rw [elementText, openingTag, closingTag]
  simp only [List.cons_append, List.append_assoc, List.nil_append]

/-- An element shows itself with what its content shows. -/
theorem Shows.element (htag : ReadableTag name attributes) (h : Shows inner cs) :
    Shows (elementText name attributes inner) [.element name attributes cs] := by
  intro s ws rest hws hready
  rw [elementText_append] at hready
  obtain ⟨s₁, hready₁, hrun₁⟩ := hready.skip_white hws
  obtain ⟨s₂, hcontent, hrun₂⟩ := hready₁.startTag Parser.blank_ne_nil Parser.blank_white htag
  obtain ⟨s₃, ws₃, hws₃, hready₃, hrun₃⟩ := h s₂ [] _ Parser.nil_white hcontent.ready
  obtain ⟨s₄, hready₄, hrun₄⟩ := hready₃.endTag htag.isName hws₃
  exact ⟨s₄, [], Parser.nil_white, hready₄, fun o os doc hreads ↦
    hrun₁ _ _ (hrun₂ _ _ _ (hrun₃ _ _ _ (hrun₄ _ _ _ _ _ hreads)))⟩

theorem Verbatim.readable (h : Verbatim v) : ReadableText v := by
  refine ⟨h.isText, h.nonblank, fun hmem ↦ ?_⟩
  have hmarkup : ∀ t ∈ Parser.markup, '<' ∈ t ∨ '>' ∈ t := by decide
  rcases hmarkup v hmem with hlt | hgt
  · exact lt_not_mem_escaped v (h.escaped.symm ▸ hlt)
  · exact gt_not_mem_escaped v (h.escaped.symm ▸ hgt)

/-- An element with a text shows that text. -/
theorem shows_text (htag : ReadableTag name attributes) (hv : Verbatim v) :
    Shows (elementText name attributes v) [.element name attributes [.text v]] := by
  intro s ws rest hws hready
  rw [elementText_append] at hready
  obtain ⟨s₁, hready₁, hrun₁⟩ := hready.skip_white hws
  obtain ⟨s₂, hcontent, hrun₂⟩ := hready₁.startTag Parser.blank_ne_nil Parser.blank_white htag
  rw [← hv.escaped] at hcontent
  obtain ⟨s₃, hready₃, hrun₃⟩ := hcontent.text hv.readable (fun heq ↦ by cases heq)
  obtain ⟨s₄, hready₄, hrun₄⟩ := Ready.endTag htag.isName Parser.nil_white hready₃
  exact ⟨s₄, [], Parser.nil_white, hready₄, fun o os doc hreads ↦
    hrun₁ _ _ (hrun₂ _ _ _ (hrun₃ _ _ _ (hrun₄ _ _ _ _ _ hreads)))⟩

/-! ## Plain texts -/

/-- A printable character that is neither markup nor a quote. -/
def isPlain (c : Char) : Bool :=
  32 ≤ c.toNat && c.toNat < 127 && c != '<' && c != '>' && c != '&' && c != '\'' && c != '"'

theorem isPlain_spec (h : isPlain c = true) : 32 ≤ c.toNat ∧ c.toNat < 127 ∧
    c ≠ '<' ∧ c ≠ '>' ∧ c ≠ '&' ∧ c ≠ '\'' ∧ c ≠ '"' := by
  simpa [isPlain, and_assoc] using h

/-- A text of ASCII characters is written with one byte for each. -/
theorem flatMap_toutf8 (h : ∀ c ∈ v, c.toNat ≤ 127) : v = (v.map Char.toNat).flatMap toutf8 := by
  induction v with
  | nil => rfl
  | cons c v ih =>
    rw [List.map_cons, List.flatMap_cons, toutf8_ascii (h c List.mem_cons_self),
      Char.ofNat_toNat, ← ih fun d hd ↦ h d (List.mem_cons_of_mem c hd)]
    rfl

theorem isText_of_plain (h : ∀ c ∈ v, isPlain c = true) : IsText v := by
  refine ⟨v.map Char.toNat, fun d hd ↦ ?_, flatMap_toutf8 fun c hc ↦ ?_⟩
  · obtain ⟨c, hc, rfl⟩ := List.mem_map.mp hd
    obtain ⟨hl, hu, -⟩ := isPlain_spec (h c hc)
    simp only [isxmlch, Bool.or_eq_true, Bool.and_eq_true, decide_eq_true_eq]
    omega
  · have hu := (isPlain_spec (h c hc)).2.1
    omega

theorem escaped_of_plain (h : ∀ c ∈ v, isPlain c = true) : copy_with_escape v = v := by
  induction v with
  | nil => rfl
  | cons c v ih =>
    obtain ⟨-, -, hlt, hgt, hamp, hapos, -⟩ := isPlain_spec (h c List.mem_cons_self)
    rw [copy_with_escape, List.flatMap_cons, if_neg hlt, if_neg hgt, if_neg hamp, if_neg hapos,
      ← copy_with_escape, ih fun d hd ↦ h d (List.mem_cons_of_mem c hd)]
    rfl

theorem verbatim_of_plain (h : ∀ c ∈ v, isPlain c = true) (hnonblank : ∃ c ∈ v, c ∉ WHITESPACE) :
    Verbatim v :=
  ⟨isText_of_plain h, hnonblank, escaped_of_plain h⟩

theorem readableValue_of_plain (h : ∀ c ∈ v, isPlain c = true) (hne : v ≠ []) : ReadableValue v :=
  ⟨isText_of_plain h, hne, fun hmem ↦ (isPlain_spec (h '"' hmem)).2.2.2.2.2.2 rfl⟩

theorem IsText.nul_not_mem (h : IsText v) : '\x00' ∉ v := by
  obtain ⟨cs, hcs, rfl⟩ := h
  intro hmem
  obtain ⟨d, hd, hnul⟩ := List.mem_flatMap.mp hmem
  rcases Nat.lt_or_ge 127 d with hlt | hge
  · exact absurd (toutf8_ge hlt (by have := (isxmlch_bounds (hcs d hd)).2; omega) _ hnul) (by decide)
  · rw [toutf8_ascii hge] at hnul
    have hzero : d = 0 := by
      rw [← toNat_ofNat_byte d (by omega), ← List.mem_singleton.mp hnul]
      rfl
    exact absurd (hcs d hd) (by rw [hzero]; decide)

/-- Letters and colons are a name. -/
theorem isName_of_letters (hne : v ≠ []) (h : ∀ c ∈ v, c.isAlpha = true ∨ c = ':') : IsName v := by
  have hname : ∀ n ≤ 127, (Char.ofNat n).isAlpha = true ∨ n = 58 → isnamech n false = true := by
    decide +kernel
  have hletter : ∀ c ∈ v, c.toNat ≤ 127 ∧ isnamech c.toNat false = true := by
    intro c hc
    have hascii : c.toNat ≤ 127 := by
      rcases h c hc with halpha | rfl
      · rcases (Bool.or_eq_true _ _).mp halpha with hcase | hcase
        · have hle : c.val ≤ 'Z'.val := (of_decide_eq_true hcase).2
          exact (UInt32.le_iff_toNat_le.mp hle).trans (by decide)
        · have hle : c.val ≤ 'z'.val := of_decide_eq_true ((Bool.and_eq_true _ _).mp hcase).2
          exact (UInt32.le_iff_toNat_le.mp hle).trans (by decide)
      · decide
    refine ⟨hascii, hname _ hascii ?_⟩
    rw [Char.ofNat_toNat]
    rcases h c hc with halpha | rfl
    · exact .inl halpha
    · exact .inr rfl
  obtain ⟨c, cs, rfl⟩ := List.exists_cons_of_ne_nil hne
  refine ⟨c.toNat, cs.map Char.toNat, (hletter c List.mem_cons_self).2, fun d hd ↦ ?_, ?_⟩
  · obtain ⟨e, he, rfl⟩ := List.mem_map.mp hd
    exact isnamech_true (hletter e (List.mem_cons_of_mem c he)).2
  · rw [← List.map_cons]
    exact flatMap_toutf8 fun e he ↦ (hletter e he).1

/-! ## Documents -/

/-- With what is left behind the document, the loop ends. -/
theorem Ready.end (h : Ready s ws) (hws : ∀ c ∈ ws, c ∈ WHITESPACE) (current : Current) :
    Reads s current (current.1.root current.2) := by
  by_cases hnil : ws = []
  · exact ⟨1, readLoop_end (Parser.getNextNode_nil (h.currPtr.trans hnil) .reset 0)⟩
  · obtain ⟨s', hnode⟩ := Parser.getNextNode_blank h.held.inAttrib hws hnil h.currPtr .reset
    exact ⟨2, readLoop_end (hnode 0)⟩

/-- What the variables of the loop hold at first does not matter in front of an element. -/
theorem readLoop_first (hattr : s.inAttrib = false) (hname : IsName name) {d : Char}
    (hd : d.toNat ≤ 127) (hend : isnamech d.toNat true = false)
    (hcurr : s.currPtr = '<' :: (name ++ d :: rest)) (n : NextNode) (fuel : Nat) :
    readLoop fuel s n current = readLoop fuel s .reset current := by
  have hpass (n : NextNode) := @Parser.nodePass_startTag s [] name rest hattr
    (fun c hc ↦ by cases hc) hname d hd hend hcurr n
  have hne : s.currPtr ≠ [] := hcurr ▸ List.cons_ne_nil _ _
  cases fuel with
  | zero => rfl
  | succ fuel =>
    rw [readLoop, readLoop]
    cases fuel with
    | zero => rw [Parser.getNextNode, Parser.getNextNode, if_neg hne, if_neg hne]
    | succ fuel =>
      rw [Parser.getNextNode_pass hne (hpass n), Parser.getNextNode_pass hne (hpass .reset)]

/-- The name of an element ends where it is printed. -/
theorem dump_name (name : CString) (attributes : List (CString × CString))
    (children : List Content) : ∃ c rest,
      dump_doc (.element name attributes children) = '<' :: (name ++ c :: rest) ∧
        c.toNat ≤ 127 ∧ isnamech c.toNat true = false := by
  obtain ⟨c, rest, hdump, hblank, hend⟩ := dump_element name attributes children
  refine ⟨c, rest, hdump, Parser.nameEnds_spec c ?_⟩
  by_cases hattributes : attributes = []
  · rcases hend hattributes with rfl | rfl <;> decide
  · rw [hblank hattributes]
    decide

/-- A text that begins with a tag. -/
def StartsTag (t : CString) : Prop :=
  ∃ name c rest, IsName name ∧ c.toNat ≤ 127 ∧ isnamech c.toNat true = false ∧
    t = '<' :: (name ++ c :: rest)

theorem startsTag_elementText (hname : IsName name) :
    StartsTag (elementText name attributes inner) := by
  have htext := @elementText_append attributes name inner []
  rw [List.append_nil] at htext
  rw [htext]
  cases attributes with
  | nil =>
    obtain ⟨hascii, hend⟩ := Parser.nameEnds_spec '>' (by decide)
    exact ⟨name, '>', _, hname, hascii, hend, rfl⟩
  | cons a attributes =>
    obtain ⟨hascii, hend⟩ := Parser.nameEnds_spec ' ' (by decide)
    exact ⟨name, ' ', _, hname, hascii, hend, rfl⟩

theorem startsTag_siblings {attributes : List (CString × CString)} {children : List Content}
    (hname : IsName name) : StartsTag (dumpSiblings (.element name attributes children :: cs)) := by
  obtain ⟨c, rest, hdump, hascii, hend⟩ := dump_name name attributes children
  refine ⟨name, c, rest ++ dumpSiblings cs, hname, hascii, hend, ?_⟩
  rw [dumpSiblings, hdump, List.cons_append, List.append_assoc, List.cons_append]

theorem StartsTag.ne_nil (h : StartsTag t) : t ≠ [] := by
  obtain ⟨name, c, rest, -, -, -, rfl⟩ := h
  exact List.cons_ne_nil _ _

/-- The nodes of a text are its document, whatever the variables of the loop hold at first. -/
theorem Shows.read (h : Shows t cs) (hstart : StartsTag t) (n : NextNode) :
    ∃ fuel, ∀ more, readDocument (fuel + more) n t = .ok cs := by
  have hnonempty := hstart.ne_nil
  obtain ⟨name, c, rest, hname, hascii, hend, htext⟩ := hstart
  obtain ⟨s, hs⟩ : ∃ s, Parser.new t = .ok s := ⟨_, if_neg hnonempty⟩
  have hcurr : s.currPtr = t ∧ s.atLeastOneAttrFound = false := by
    rw [Parser.new, if_neg hnonempty] at hs
    cases hs
    exact ⟨rfl, rfl⟩
  have hready : Ready s ([] ++ (t ++ [])) := by
    rw [List.append_nil]
    exact ⟨(Parser.Reached.new hs).held, hcurr.2, hcurr.1⟩
  obtain ⟨s', ws, hws, hready', hrun⟩ := h s [] [] Parser.nil_white hready
  rw [List.append_nil] at hready'
  obtain ⟨fuel, hread⟩ := hrun ⟨"#document".toList, [], []⟩ [] _ (hready'.end hws _)
  refine ⟨fuel, fun more ↦ readDocument_mono ?_ more⟩
  rw [readDocument, hs]
  exact (readLoop_first (Parser.Reached.new hs).held.inAttrib hname hascii hend
    (hcurr.1.trans htext) n fuel).trans hread

/-- **What `UpnpNewPrintDocument` prints of a document, `UpnpParse_Buffer` reads back**: the same
elements with the same attributes and the same texts, whatever the variables of the loop hold at
first. -/
theorem print_parse {doc : List Content} (hdoc : ReadableElements doc) (hne : doc ≠ [])
    (n : NextNode) : ∃ text, DumpDocument (.document doc) = some text ∧
      ∃ fuel, ∀ more, readDocument (fuel + more) n text = .ok doc := by
  obtain ⟨first, children, rfl⟩ := List.exists_cons_of_ne_nil hne
  match first with
  | .text _ => exact hdoc.1.elim
  | .element name attributes grandchildren =>
    obtain ⟨-, ⟨htag, -⟩, -⟩ := id hdoc
    have hstart := @startsTag_siblings _ children attributes grandchildren htag.isName
    refine ⟨_, ?_, (shows_siblings hdoc).read hstart n⟩
    rw [DumpDocument, membuffer_detach, if_neg hstart.ne_nil]

/-- An attribute that needs escapes, a text and an empty element. -/
theorem print_parse_example : ∃ text,
    DumpDocument (.document [.element ['a'] [(['e'], "<'".toList)]
      [.text "a&b".toList, .element ['e'] [] []]]) = some text ∧
    ∃ fuel, ∀ more, readDocument (fuel + more) .reset text = .ok [.element ['a']
      [(['e'], "<'".toList)] [.text "a&b".toList, .element ['e'] [] []]] := by
  have hvalue : ReadableValue "<'".toList :=
    ⟨⟨[0x3C, 0x27], by decide, by decide⟩, by decide, by decide⟩
  have htext : ReadableText "a&b".toList :=
    ⟨⟨[0x61, 0x26, 0x62], by decide, by decide⟩, ⟨'a', by decide, by decide⟩, by decide⟩
  have hempty : Readable (.element ['e'] [] []) :=
    ⟨⟨Parser.isName_e, fun a ha ↦ by cases ha⟩, trivial⟩
  have htag : ReadableTag ['a'] [(['e'], "<'".toList)] := by
    refine ⟨Parser.isName_a, fun a ha ↦ ?_⟩
    rw [List.mem_singleton.mp ha]
    exact ⟨Parser.isName_e, hvalue⟩
  have hdoc : ReadableElements [.element ['a'] [(['e'], "<'".toList)]
      [.text "a&b".toList, .element ['e'] [] []]] :=
    ⟨trivial, ⟨htag, htext, trivial, hempty, trivial⟩, trivial⟩
  exact print_parse hdoc (List.cons_ne_nil _ _) .reset

end Upnp.Dom
