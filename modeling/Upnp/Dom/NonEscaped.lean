import Mathlib.Data.List.Find
import Upnp.Dom.Dump

/-!
# The two printers

`DumpNonEscapedDocument` of `domCif.cpp` beside `DumpDocument`.  The first prints the children of a
node by the second, which escapes, and starts its text anew with each child.
-/

namespace Upnp.Dom

open Upnp.Lib Upnp.Xml

/-- `membuffer_detach`: without a text there is no buffer. -/
def membuffer_detach (text : CString) : Option CString := if text = [] then none else some text

/-- `copyToTarget`. -/
def copyToTarget (target : Option CString) (p : CString) : Option CString :=
  some (target.getD [] ++ p)

/-- The node that is printed: a document with its children, or a node below one. -/
inductive Printed where
  | document (children : List Content)
  | node (n : Content)

/-- `DumpDocument`: what was in the target is given up. -/
def DumpDocument : Printed → Option CString
  | .document children => membuffer_detach (dumpSiblings children)
  | .node n => membuffer_detach (dump_doc n)

/-- The attributes of an element in `DumpNonEscapedDocument`. -/
def copyAttributes (target : Option CString) (attributes : List (CString × CString)) :
    Option CString :=
  attributes.foldl (fun target a ↦ copyToTarget (copyToTarget (copyToTarget (copyToTarget
    (copyToTarget target "  ".toList) a.1) "=\"".toList) a.2) ['"']) target

/-- The loops of `DumpNonEscapedDocument` over children. -/
def dumpEach (target : Option CString) (children : List Content) : Option CString :=
  children.foldl (fun _ child ↦ DumpDocument (.node child)) target

/-- `DumpNonEscapedDocument`. -/
def DumpNonEscapedDocument (target : Option CString) : Printed → Option CString
  | .document children => dumpEach target children
  | .node (.text nodeValue) => copyToTarget target nodeValue
  | .node (.element nodeName attributes children) =>
    let target := copyAttributes (copyToTarget (copyToTarget target ['<']) nodeName) attributes
    match children with
    | [] => copyToTarget target "/>\n".toList
    | child :: children =>
      let target := dumpEach (copyToTarget target (closeStart child)) (child :: children)
      copyToTarget (copyToTarget (copyToTarget target "</".toList) nodeName) ">\n".toList

/-- A text with its character entities replaced by their characters, behind the first `skip`
characters. -/
def unescapeFrom : Nat → CString → CString
  | _, [] => []
  | skip + 1, _ :: s => unescapeFrom skip s
  | 0, c :: s =>
    match entities.find? fun e ↦ e.1.isPrefixOf (c :: s) with
    | some e => Char.ofNat e.2 :: unescapeFrom (e.1.length - 1) s
    | none => c :: unescapeFrom 0 s

def unescape (s : CString) : CString := unescapeFrom 0 s

/-- Both printers make the same text of a document, but for the entities. -/
def PrintersAgree (children : List Content) : Prop :=
  DumpNonEscapedDocument none (.document children) =
    (DumpDocument (.document children)).map unescape

mutual

/-- Nothing in a tree is escaped, and no name has an entity. -/
def Plain : Content → Prop
  | .text nodeValue => copy_with_escape nodeValue = nodeValue
  | .element nodeName attributes children => unescape nodeName = nodeName ∧
      (∀ a ∈ attributes, unescape a.1 = a.1 ∧ copy_with_escape a.2 = a.2) ∧ PlainAll children

def PlainAll : List Content → Prop
  | [] => True
  | child :: children => Plain child ∧ PlainAll children

end

/-- The last child is plain, and there is nothing but empty texts before it. -/
def OnlyPlain (children : List Content) : Prop :=
  (∀ child ∈ children.dropLast, child = .text []) ∧ ∀ child, children.getLast? = some child → Plain child

variable {c : Char} {s t e name v : CString} {n : Nat}

/-! ## Entities -/

theorem entity_ne_nil (h : (e, n) ∈ entities) : ∃ s, e = '&' :: s := by
  simp only [entities, List.mem_cons, Prod.mk.injEq, List.not_mem_nil, or_false] at h
  rcases h with ⟨rfl, -⟩ | ⟨rfl, -⟩ | ⟨rfl, -⟩ | ⟨rfl, -⟩ | ⟨rfl, -⟩ <;> exact ⟨_, rfl⟩

theorem unescapeFrom_eq (skip : Nat) (s : CString) : unescapeFrom skip s = unescape (s.drop skip) := by
  induction s generalizing skip with
  | nil =>
    rw [List.drop_nil]
    cases skip <;> rfl
  | cons c s ih =>
    cases skip with
    | zero => rfl
    | succ skip => rw [unescapeFrom, ih, List.drop_succ_cons]

@[simp] theorem unescape_nil : unescape [] = [] := rfl

/-- A character that starts no entity stays. -/
theorem unescape_none (h : (entities.find? fun e ↦ e.1.isPrefixOf (c :: s)) = none) :
    unescape (c :: s) = c :: unescape s := by
  rw [unescape, unescapeFrom, h]
  rfl

/-- An entity becomes its character. -/
theorem unescape_some (h : (entities.find? fun e ↦ e.1.isPrefixOf s) = some (e, n)) :
    ∃ t, s = e ++ t ∧ unescape s = Char.ofNat n :: unescape t := by
  have hmem := List.mem_of_find?_eq_some h
  have hprefix := List.find?_some h
  obtain ⟨t, rfl⟩ := List.isPrefixOf_iff_prefix.mp hprefix
  obtain ⟨e', rfl⟩ := entity_ne_nil hmem
  refine ⟨t, rfl, ?_⟩
  rw [List.cons_append] at h ⊢
  rw [unescape, unescapeFrom, h]
  dsimp only
  rw [unescapeFrom_eq, List.length_cons, Nat.add_sub_cancel, List.drop_left]

theorem unescape_char (hc : c ≠ '&') (s : CString) : unescape (c :: s) = c :: unescape s := by
  apply unescape_none
  rw [List.find?_eq_none]
  rintro ⟨e, n⟩ he hprefix
  obtain ⟨e', rfl⟩ := entity_ne_nil he
  exact hc (List.cons_prefix_cons.mp (List.isPrefixOf_iff_prefix.mp hprefix)).1.symm

theorem unescape_literal (hs : '&' ∉ s) (t : CString) : unescape (s ++ t) = s ++ unescape t := by
  induction s with
  | nil => rfl
  | cons c s ih =>
    rw [List.mem_cons, not_or] at hs
    rw [List.cons_append, unescape_char (Ne.symm hs.1), ih hs.2, List.cons_append]

theorem unescape_entity (h : (e, n) ∈ entities) (t : CString) :
    unescape (e ++ t) = Char.ofNat n :: unescape t := by
  simp only [entities, List.mem_cons, Prod.mk.injEq, List.not_mem_nil, or_false] at h
  rcases h with ⟨rfl, rfl⟩ | ⟨rfl, rfl⟩ | ⟨rfl, rfl⟩ | ⟨rfl, rfl⟩ | ⟨rfl, rfl⟩ <;> rfl

/-- What was escaped comes back. -/
theorem unescape_escaped (v t : CString) :
    unescape (copy_with_escape v ++ t) = v ++ unescape t := by
  induction v with
  | nil => rfl
  | cons c v ih =>
    rw [copy_with_escape, List.flatMap_cons, ← copy_with_escape, List.append_assoc]
    split_ifs with hlt hgt hamp hapos
    · rw [@unescape_entity _ 0x3C (by decide), ih, hlt]
      rfl
    · rw [@unescape_entity _ 0x3E (by decide), ih, hgt]
      rfl
    · rw [@unescape_entity _ 0x26 (by decide), ih, hamp]
      rfl
    · rw [@unescape_entity _ 0x27 (by decide), ih, hapos]
      rfl
    · rw [List.singleton_append, unescape_char hamp, ih, List.cons_append]

/-- A text that starts with a character of no entity. -/
def Apart (t : CString) : Prop := ∃ c r, t = c :: r ∧ ∀ e ∈ entities, c ∉ e.1

theorem Apart.append (h : Apart t) (s : CString) : Apart (t ++ s) := by
  obtain ⟨c, r, rfl, hc⟩ := h
  exact ⟨c, r ++ s, rfl, hc⟩

/-- An entity in front of a text that stands apart is in what is before it. -/
theorem prefix_apart (ht : Apart t) (h : (e, n) ∈ entities) : e <+: s ++ t ↔ e <+: s := by
  obtain ⟨c, r, rfl, hc⟩ := ht
  refine ⟨fun hprefix ↦ ?_, fun hprefix ↦ hprefix.trans (List.prefix_append _ _)⟩
  rw [List.append_cons] at hprefix
  rcases List.prefix_or_prefix_of_prefix hprefix (List.prefix_append _ _) with hle | hle
  · rcases List.prefix_concat_iff.mp hle with rfl | hle
    · exact absurd (List.mem_append_right s (List.mem_singleton_self c)) (hc _ h)
    · exact hle
  · exact absurd (hle.subset (List.mem_append_right s (List.mem_singleton_self c))) (hc _ h)

/-- A text in front of one that stands apart is unescaped by itself. -/
theorem unescape_append (ht : Apart t) (s : CString) :
    unescape (s ++ t) = unescape s ++ unescape t := by
  induction hlen : s.length using Nat.strong_induction_on generalizing s with
  | _ len ih =>
    cases s with
    | nil => rfl
    | cons c s =>
      have hfind : (entities.find? fun e ↦ e.1.isPrefixOf (c :: s ++ t)) =
          entities.find? fun e ↦ e.1.isPrefixOf (c :: s) := by
        refine List.find?_congr fun e he ↦ ?_
        rw [Bool.eq_iff_iff, List.isPrefixOf_iff_prefix, List.isPrefixOf_iff_prefix]
        exact prefix_apart ht he
      cases hsome : entities.find? fun e ↦ e.1.isPrefixOf (c :: s) with
      | none =>
        rw [hsome] at hfind
        have hshort : s.length < len := by
          rw [← hlen]
          exact Nat.lt_succ_self _
        rw [unescape_none hsome]
        exact (unescape_none hfind).trans (congrArg (c :: ·) (ih s.length hshort s rfl))
      | some e =>
        obtain ⟨e, n⟩ := e
        obtain ⟨r, hr, hunescape⟩ := unescape_some hsome
        have hshort : r.length < len := by
          obtain ⟨e', rfl⟩ := entity_ne_nil (List.mem_of_find?_eq_some hsome)
          rw [← hlen, hr, List.length_append, List.length_cons]
          omega
        rw [hunescape, hr, List.append_assoc, unescape_entity (List.mem_of_find?_eq_some hsome),
          ih r.length hshort r rfl, List.cons_append]

/-- Replacing entities leaves each `<`, and makes a text shorter if it does anything. -/
theorem unescape_le (s : CString) : s.count '<' ≤ (unescape s).count '<' ∧
    (unescape s).length ≤ s.length ∧ ((unescape s).length = s.length → unescape s = s) := by
  induction hlen : s.length using Nat.strong_induction_on generalizing s with
  | _ len ih =>
    cases s with
    | nil => exact ⟨le_rfl, Nat.zero_le _, fun _ ↦ rfl⟩
    | cons c s =>
      cases hsome : entities.find? fun e ↦ e.1.isPrefixOf (c :: s) with
      | none =>
        rw [List.length_cons] at hlen
        obtain ⟨hcount, hle, heq⟩ := ih s.length (by omega) s rfl
        rw [unescape_none hsome, List.length_cons, ← hlen]
        refine ⟨?_, Nat.succ_le_succ hle, fun h ↦ by rw [heq (Nat.succ_injective h)]⟩
        rw [List.count_cons, List.count_cons]
        exact Nat.add_le_add_right hcount _
      | some e =>
        obtain ⟨e, n⟩ := e
        obtain ⟨r, hr, hunescape⟩ := unescape_some hsome
        have hmem := List.mem_of_find?_eq_some hsome
        have hfour : ∀ e ∈ entities, 4 ≤ e.1.length ∧ e.1.count '<' = 0 := by decide
        obtain ⟨hlong, hnone⟩ := hfour _ hmem
        dsimp only at hlong hnone
        rw [hr, List.length_append] at hlen
        obtain ⟨hcount, hle, -⟩ := ih r.length (by omega) r rfl
        rw [hunescape, hr, List.count_append, hnone, List.length_cons]
        refine ⟨?_, by omega, fun h ↦ by omega⟩
        rw [List.count_cons]
        omega

/-! ## What the entities of a printed tree become -/

/-- The attributes without entities. -/
def rawAttributes (attributes : List (CString × CString)) : CString :=
  attributes.flatMap fun a ↦ "  ".toList ++ unescape a.1 ++ "=\"".toList ++ a.2 ++ ['"']

mutual

/-- A printed tree without entities. -/
def rawDoc : Content → CString
  | .text nodeValue => nodeValue
  | .element nodeName attributes children =>
    '<' :: (unescape nodeName ++ rawAttributes attributes ++ rawChildren nodeName children)

def rawChildren (nodeName : CString) : List Content → CString
  | [] => "/>\n".toList
  | child :: children =>
    closeStart child ++ rawDoc child ++ rawSiblings children ++ "</".toList ++ unescape nodeName ++
      ">\n".toList

def rawSiblings : List Content → CString
  | [] => []
  | child :: children => rawDoc child ++ rawSiblings children

end

/-- The characters behind names. -/
theorem apart_delimiter (hc : c ∈ " =/>".toList) (r : CString) : Apart (c :: r) := by
  have hall : (entities.all fun e ↦ " =/>".toList.all fun c ↦ !e.1.elem c) = true := by decide
  refine ⟨c, r, rfl, fun e he hmem ↦ ?_⟩
  have hnot := List.all_eq_true.mp (List.all_eq_true.mp hall e he) c hc
  rw [List.elem_eq_mem, decide_eq_true hmem] at hnot
  cases hnot

theorem apart_equals (t : CString) : Apart ("=\"".toList ++ t) :=
  @apart_delimiter '=' (by decide) _

theorem apart_close (t : CString) : Apart (">\n".toList ++ t) :=
  @apart_delimiter '>' (by decide) _

theorem apart_attributes (attributes : List (CString × CString)) (hs : Apart s) :
    Apart (dumpAttributes attributes ++ s) := by
  cases attributes with
  | nil => exact hs
  | cons a attributes =>
    rw [dumpAttributes, List.flatMap_cons]
    exact apart_delimiter (by decide) _

theorem closeStart_literal (child : Content) : ∃ r, closeStart child = '>' :: r ∧ '&' ∉ closeStart child := by
  cases child with
  | text =>
    rw [closeStart]
    exact ⟨_, rfl, by decide⟩
  | element =>
    rw [closeStart]
    exact ⟨_, rfl, by decide⟩

theorem apart_children (nodeName : CString) (children : List Content) :
    Apart (dumpChildren nodeName children) := by
  cases children with
  | nil => exact apart_delimiter (by decide) _
  | cons child children =>
    obtain ⟨r, hr, -⟩ := closeStart_literal child
    rw [dumpChildren, hr]
    exact apart_delimiter (by decide) _

theorem unescape_attributes (attributes : List (CString × CString)) (t : CString) :
    unescape (dumpAttributes attributes ++ t) = rawAttributes attributes ++ unescape t := by
  induction attributes with
  | nil => rfl
  | cons a attributes ih =>
    rw [dumpAttributes, List.flatMap_cons, ← dumpAttributes, rawAttributes, List.flatMap_cons,
      ← rawAttributes]
    simp only [List.append_assoc]
    rw [unescape_literal (by decide), unescape_append (apart_equals _),
      unescape_literal (by decide), unescape_escaped, unescape_literal (by decide), ih]

mutual

/-- The entities of a printed tree stand for themselves. -/
theorem unescape_dump (n : Content) (t : CString) :
    unescape (dump_doc n ++ t) = rawDoc n ++ unescape t :=
  match n with
  | .text nodeValue => by
    rw [dump_doc, rawDoc]
    exact unescape_escaped nodeValue t
  | .element nodeName attributes children => by
    have hapart : Apart (dumpAttributes attributes ++ (dumpChildren nodeName children ++ t)) :=
      apart_attributes attributes ((apart_children nodeName children).append t)
    rw [dump_doc, rawDoc]
    simp only [List.cons_append, List.append_assoc]
    rw [unescape_char (by decide), unescape_append hapart, unescape_attributes,
      unescape_children nodeName children t]

theorem unescape_children (nodeName : CString) (children : List Content) (t : CString) :
    unescape (dumpChildren nodeName children ++ t) = rawChildren nodeName children ++ unescape t :=
  match children with
  | [] => by
    rw [dumpChildren, rawChildren]
    exact unescape_literal (by decide) t
  | child :: children => by
    obtain ⟨r, -, hclose⟩ := closeStart_literal child
    rw [dumpChildren, rawChildren]
    simp only [List.append_assoc]
    rw [unescape_literal hclose, unescape_dump child, unescape_siblings children,
      unescape_literal (by decide), unescape_append (apart_close t), unescape_literal (by decide)]

theorem unescape_siblings (children : List Content) (t : CString) :
    unescape (dumpSiblings children ++ t) = rawSiblings children ++ unescape t :=
  match children with
  | [] => rfl
  | child :: children => by
    rw [dumpSiblings, rawSiblings]
    simp only [List.append_assoc]
    rw [unescape_dump child, unescape_siblings children]

end

theorem unescape_copy (v : CString) : unescape (copy_with_escape v) = v := by
  have h := unescape_escaped v []
  rw [List.append_nil, unescape_nil, List.append_nil] at h
  exact h

theorem unescape_dump_doc (n : Content) : unescape (dump_doc n) = rawDoc n := by
  have h := unescape_dump n []
  rw [List.append_nil, unescape_nil, List.append_nil] at h
  exact h

theorem unescape_dumpSiblings (children : List Content) :
    unescape (dumpSiblings children) = rawSiblings children := by
  have h := unescape_siblings children []
  rw [List.append_nil, unescape_nil, List.append_nil] at h
  exact h

/-! ## Plain trees -/

/-- No text is shorter than its entities make it. -/
theorem length_escaped (v : CString) : v.length ≤ (copy_with_escape v).length ∧
    (v.length = (copy_with_escape v).length → copy_with_escape v = v) := by
  obtain ⟨-, hle, heq⟩ := unescape_le (copy_with_escape v)
  rw [unescape_copy] at hle heq
  exact ⟨hle, fun h ↦ (heq h).symm⟩

theorem plain_attributes {attributes : List (CString × CString)} :
    (rawAttributes attributes).length ≤ (dumpAttributes attributes).length ∧
    ((rawAttributes attributes).length = (dumpAttributes attributes).length →
      ∀ a ∈ attributes, unescape a.1 = a.1 ∧ copy_with_escape a.2 = a.2) := by
  induction attributes with
  | nil => exact ⟨le_rfl, fun _ a ha ↦ by cases ha⟩
  | cons a attributes ih =>
    obtain ⟨hle, heq⟩ := ih
    obtain ⟨-, hname, hname'⟩ := unescape_le a.1
    obtain ⟨hvalue, hvalue'⟩ := length_escaped a.2
    rw [dumpAttributes, List.flatMap_cons, ← dumpAttributes, rawAttributes, List.flatMap_cons,
      ← rawAttributes]
    simp only [List.length_append]
    refine ⟨by omega, fun h ↦ List.forall_mem_cons.mpr ⟨⟨hname' (by omega), hvalue' (by omega)⟩, ?_⟩⟩
    exact heq (by omega)

theorem length_raw (n : Content) : (rawDoc n).length ≤ (dump_doc n).length := by
  rw [← unescape_dump_doc]
  exact (unescape_le _).2.1

theorem length_rawSiblings (children : List Content) :
    (rawSiblings children).length ≤ (dumpSiblings children).length := by
  rw [← unescape_dumpSiblings]
  exact (unescape_le _).2.1

mutual

/-- A printed tree that has no entities is plain. -/
theorem plain_of_length (n : Content) (h : (rawDoc n).length = (dump_doc n).length) : Plain n :=
  match n with
  | .text nodeValue => by
    rw [rawDoc, dump_doc] at h
    rw [Plain]
    exact (length_escaped nodeValue).2 h
  | .element nodeName attributes children => by
    obtain ⟨-, hname, hname'⟩ := unescape_le nodeName
    obtain ⟨hattr, hattr'⟩ := @plain_attributes attributes
    obtain ⟨hchildren, hchildren'⟩ := plain_children nodeName children
    rw [rawDoc, dump_doc] at h
    simp only [List.length_cons, List.length_append] at h
    rw [Plain]
    exact ⟨hname' (by omega), hattr' (by omega), hchildren' (by omega)⟩

theorem plain_children (nodeName : CString) (children : List Content) :
    (rawChildren nodeName children).length ≤ (dumpChildren nodeName children).length ∧
    ((rawChildren nodeName children).length = (dumpChildren nodeName children).length →
      PlainAll children) :=
  match children with
  | [] => by
    rw [PlainAll]
    exact ⟨le_rfl, fun _ ↦ trivial⟩
  | child :: children => by
    obtain ⟨-, hname, -⟩ := unescape_le nodeName
    have hchild := length_raw child
    have hrest := length_rawSiblings children
    rw [rawChildren, dumpChildren, PlainAll]
    simp only [List.length_append]
    exact ⟨by omega, fun h ↦ ⟨plain_of_length child (by omega),
      plain_siblings children (by omega)⟩⟩

theorem plain_siblings (children : List Content)
    (h : (rawSiblings children).length = (dumpSiblings children).length) : PlainAll children :=
  match children with
  | [] => by
    rw [PlainAll]
    trivial
  | child :: children => by
    have hchild := length_raw child
    have hrest := length_rawSiblings children
    rw [rawSiblings, dumpSiblings, List.length_append, List.length_append] at h
    rw [PlainAll]
    exact ⟨plain_of_length child (by omega), plain_siblings children (by omega)⟩

end

theorem raw_attributes {attributes : List (CString × CString)}
    (h : ∀ a ∈ attributes, unescape a.1 = a.1 ∧ copy_with_escape a.2 = a.2) :
    rawAttributes attributes = dumpAttributes attributes := by
  rw [rawAttributes, dumpAttributes]
  refine List.flatMap_congr fun a ha ↦ ?_
  obtain ⟨hname, hvalue⟩ := h a ha
  rw [hname, hvalue]

mutual

theorem raw_of_plain (n : Content) (h : Plain n) : rawDoc n = dump_doc n :=
  match n with
  | .text nodeValue => by
    rw [Plain] at h
    rw [rawDoc, dump_doc, h]
  | .element nodeName attributes children => by
    rw [Plain] at h
    obtain ⟨hname, hattr, hchildren⟩ := h
    rw [rawDoc, dump_doc, hname, raw_attributes hattr, raw_children nodeName children hname hchildren]

theorem raw_children (nodeName : CString) (children : List Content)
    (hname : unescape nodeName = nodeName) (h : PlainAll children) :
    rawChildren nodeName children = dumpChildren nodeName children :=
  match children with
  | [] => by rw [rawChildren, dumpChildren]
  | child :: children => by
    rw [PlainAll] at h
    rw [rawChildren, dumpChildren, hname, raw_of_plain child h.1, raw_siblings children h.2]

theorem raw_siblings (children : List Content) (h : PlainAll children) :
    rawSiblings children = dumpSiblings children :=
  match children with
  | [] => by rw [rawSiblings, dumpSiblings]
  | child :: children => by
    rw [PlainAll] at h
    rw [rawSiblings, dumpSiblings, raw_of_plain child h.1, raw_siblings children h.2]

end

theorem dump_eq_raw_iff (n : Content) : dump_doc n = rawDoc n ↔ Plain n :=
  ⟨fun h ↦ plain_of_length n (by rw [h]), fun h ↦ (raw_of_plain n h).symm⟩

/-! ## Documents -/

theorem dumpEach_concat (target : Option CString) (children : List Content) (last : Content) :
    dumpEach target (children ++ [last]) = membuffer_detach (dump_doc last) := by
  rw [dumpEach, List.foldl_concat, DumpDocument]

theorem dumpSiblings_concat (children : List Content) (last : Content) :
    dumpSiblings (children ++ [last]) = dumpSiblings children ++ dump_doc last := by
  induction children with
  | nil => simp only [List.nil_append, dumpSiblings, List.append_nil]
  | cons child children ih =>
    rw [List.cons_append, dumpSiblings, dumpSiblings, ih, List.append_assoc]

theorem unescape_eq_nil (h : unescape s = []) : s = [] := by
  cases s with
  | nil => rfl
  | cons c s =>
    cases hsome : entities.find? fun e ↦ e.1.isPrefixOf (c :: s) with
    | none =>
      rw [unescape_none hsome] at h
      cases h
    | some e =>
      obtain ⟨r, -, hunescape⟩ := unescape_some hsome
      rw [hunescape] at h
      cases h

/-- A text is not its own end when it is escaped. -/
theorem escaped_suffix (h : copy_with_escape v = t ++ v) : t = [] := by
  induction v using List.reverseRecOn generalizing t with
  | nil =>
    rw [List.append_nil] at h
    exact h.symm
  | append_singleton v c ih =>
    have hsplit : copy_with_escape (v ++ [c]) = copy_with_escape v ++ copy_with_escape [c] :=
      List.flatMap_append
    rw [hsplit, ← List.append_assoc] at h
    rw [copy_with_escape, copy_with_escape, List.flatMap_singleton, ← copy_with_escape] at h
    -- an entity does not end like its character
    have hlast : ∀ l : CString, l.getLast? = some ';' → c ≠ ';' →
        copy_with_escape v ++ l ≠ t ++ v ++ [c] := by
      rintro l hl hc heq
      have hend := congrArg List.getLast? heq
      rw [List.getLast?_append, hl, List.getLast?_concat, Option.some_or] at hend
      exact hc (Option.some.inj hend).symm
    split_ifs at h with hlt hgt hamp hapos
    · exact absurd h (hlast _ rfl (by rw [hlt]; decide))
    · exact absurd h (hlast _ rfl (by rw [hgt]; decide))
    · exact absurd h (hlast _ rfl (by rw [hamp]; decide))
    · exact absurd h (hlast _ rfl (by rw [hapos]; decide))
    · exact ih (List.append_inj_left' h rfl)

/-- Nothing can stand before the last child. -/
theorem front_eq_nil {front : CString} {last : Content} (h : dump_doc last = front ++ rawDoc last) :
    front = [] := by
  cases last with
  | text nodeValue =>
    rw [dump_doc, rawDoc] at h
    exact escaped_suffix h
  | element nodeName attributes children =>
    have hcount := (unescape_le (dump_doc (.element nodeName attributes children))).1
    rw [unescape_dump_doc] at hcount
    have hfront := congrArg (List.count '<') h
    rw [List.count_append] at hfront
    cases front with
    | nil => rfl
    | cons c front =>
      have hhead := congrArg List.head? h
      rw [dump_doc, List.head?_cons, List.cons_append, List.head?_cons] at hhead
      obtain rfl := Option.some.inj hhead
      rw [List.count_cons_self] at hfront
      omega

theorem rawSiblings_eq_nil (children : List Content) :
    rawSiblings children = [] ↔ ∀ child ∈ children, child = .text [] := by
  induction children with
  | nil => exact iff_of_true (by rw [rawSiblings]) fun child h ↦ by cases h
  | cons child children ih =>
    rw [rawSiblings, List.append_eq_nil_iff, ih, List.forall_mem_cons]
    refine and_congr_left' ?_
    cases child with
    | text nodeValue => rw [rawDoc, Content.text.injEq]
    | element nodeName attributes children =>
      rw [rawDoc]
      exact iff_of_false (List.cons_ne_nil _ _) (by rintro ⟨⟩)

theorem printersAgree_concat (front : List Content) (last : Content) :
    PrintersAgree (front ++ [last]) ↔
      dump_doc last = rawSiblings front ++ rawDoc last := by
  have hraw : unescape (dumpSiblings front ++ dump_doc last) = rawSiblings front ++ rawDoc last := by
    rw [unescape_siblings, unescape_dump_doc]
  rw [PrintersAgree, DumpNonEscapedDocument, dumpEach_concat, DumpDocument, dumpSiblings_concat,
    ← hraw]
  by_cases hall : dumpSiblings front ++ dump_doc last = []
  · have hlast := (List.append_eq_nil_iff.mp hall).2
    rw [hall, hlast]
    exact iff_of_true rfl rfl
  · rw [membuffer_detach, membuffer_detach, if_neg hall, Option.map_some]
    split_ifs with hlast
    · refine iff_of_false (by rintro ⟨⟩) fun h ↦ hall ?_
      rw [hlast] at h
      rw [hlast]
      exact unescape_eq_nil h.symm
    · exact Option.some_inj

/-- The printers make the same text of a document, but for entities, if and only if its last child is
plain and has nothing before it. -/
theorem printersAgree_iff (children : List Content) : PrintersAgree children ↔ OnlyPlain children := by
  rcases List.eq_nil_or_concat children with rfl | ⟨front, last, rfl⟩
  · refine iff_of_true rfl ⟨fun child h ↦ ?_, fun child h ↦ ?_⟩
    · cases h
    · cases h
  · rw [List.concat_eq_append, printersAgree_concat, OnlyPlain, List.dropLast_concat,
      List.getLast?_concat, ← rawSiblings_eq_nil]
    constructor
    · intro h
      have hnil := front_eq_nil h
      refine ⟨hnil, ?_⟩
      rintro child ⟨⟩
      rw [hnil, List.nil_append] at h
      exact (dump_eq_raw_iff last).mp h
    · rintro ⟨hnil, hlast⟩
      rw [hnil, List.nil_append]
      exact (dump_eq_raw_iff last).mpr (hlast last rfl)

/-- The text of an element is escaped by both printers. -/
theorem printers_differ : ¬ PrintersAgree [.element "e".toList [] [.text "a<b".toList]] := by
  rw [PrintersAgree]
  decide

end Upnp.Dom
