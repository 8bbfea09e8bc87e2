import Upnp.Xml.Parser

/-!
# Printed documents

`dump_doc` of `domCif.cpp`: the text that `UpnpNewPrintDocument` makes of a node.
-/

namespace Upnp.Dom

open Upnp.Lib Upnp.Xml

/-- `copy_with_escape`. -/
def copy_with_escape (p : CString) : CString :=
  p.flatMap fun c ↦
    if c = '<' then "&lt;".toList
    else if c = '>' then "&gt;".toList
    else if c = '&' then "&amp;".toList
    else if c = '\'' then "&apos;".toList
    else [c]

/-- The attributes of an element, each behind two blanks. -/
def dumpAttributes (attributes : List (CString × CString)) : CString :=
  attributes.flatMap fun a ↦
    "  ".toList ++ a.1 ++ "=\"".toList ++ copy_with_escape a.2 ++ ['"']

/-- The end of a start tag in front of the first child. -/
def closeStart : Content → CString
  | .text _ => ['>']
  | .element .. => ['>', '\n']

mutual

/-- `dump_doc`, for a text or an element. -/
def dump_doc : Content → CString
  | .text nodeValue => copy_with_escape nodeValue
  | .element nodeName attributes children =>
    '<' :: (nodeName ++ dumpAttributes attributes ++ dumpChildren nodeName children)

/-- The children of an element and its end tag, or the end of an element without children. -/
def dumpChildren (nodeName : CString) : List Content → CString
  | [] => "/>\n".toList
  | child :: children =>
    closeStart child ++ dump_doc child ++ dumpSiblings children ++ "</".toList ++ nodeName ++
      ">\n".toList

/-- Nodes one behind the other. -/
def dumpSiblings : List Content → CString
  | [] => []
  | child :: children => dump_doc child ++ dumpSiblings children

end

/-- Behind its name an element goes on with a blank, or with the end of its start tag when it has
no attributes. -/
theorem dump_element (nodeName : CString) (attributes : List (CString × CString))
    (children : List Content) : ∃ c rest,
      dump_doc (.element nodeName attributes children) = '<' :: (nodeName ++ c :: rest) ∧
        (attributes ≠ [] → c = ' ') ∧ (attributes = [] → c = '/' ∨ c = '>') := by
  cases attributes with
  | cons a attributes =>
    refine ⟨' ', ' ' :: (a.1 ++ "=\"".toList ++ copy_with_escape a.2 ++ ['"'] ++
      dumpAttributes attributes ++ dumpChildren nodeName children), ?_, fun _ ↦ rfl, ?_⟩
    · rw [dump_doc, dumpAttributes, List.flatMap_cons, ← dumpAttributes]
      simp only [List.append_assoc]
      rfl
    · intro h
      cases h
  | nil =>
    cases children with
    | nil =>
      refine ⟨'/', ['>', '\n'], ?_, fun h ↦ absurd rfl h, fun _ ↦ .inl rfl⟩
      rw [dump_doc, dumpChildren, dumpAttributes, List.flatMap_nil, List.append_nil]
      rfl
    | cons child children =>
      have hclose : ∃ rest, closeStart child = '>' :: rest := by
        cases child with
        | text => exact ⟨_, rfl⟩
        | element => exact ⟨_, rfl⟩
      obtain ⟨rest, hrest⟩ := hclose
      refine ⟨'>', rest ++ dump_doc child ++ dumpSiblings children ++ "</".toList ++ nodeName ++
        ">\n".toList, ?_, fun h ↦ absurd rfl h, fun _ ↦ .inr rfl⟩
      rw [dump_doc, dumpChildren, dumpAttributes, List.flatMap_nil, List.append_nil, hrest]
      simp only [List.cons_append]

end Upnp.Dom
