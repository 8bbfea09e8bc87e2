import Upnp.Dom.Dump

/-!
# Searching a document

The reading side of the DOM interface: children, names and values of nodes, and
`getElementsByTagName` with its walk over the tree.
-/

namespace Upnp.Dom

open Upnp.Lib Upnp.Xml

/-- `getNodeName`. -/
def nodeName : Content → CString
  | .element name _ _ => name
  | .text _ => "#text".toList

/-- `getNodeValue`: an element has none. -/
def nodeValue : Content → Option CString
  | .element .. => none
  | .text value => some value

def childNodes : Content → List Content
  | .element _ _ children => children
  | .text _ => []

/-- `getFirstChild`. -/
def firstChild (node : Content) : Option Content := (childNodes node).head?

def isElement : Content → Bool
  | .element .. => true
  | .text _ => false

/-- A name without its prefix. -/
def localName (name : CString) : CString :=
  match strchr name ':' with
  | none => name
  | some r => r.tail

/-- Whether `SearchList` takes an element of the name; the prefix counts when the tag name has
one. -/
def isTagged (tagname name : CString) : Bool :=
  tagname = (if strchr tagname ':' = none then localName name else name) || tagname = ['*']

mutual

/-- The elements of a tree, in document order. -/
def searchNode (tagname : CString) : Content → List Content
  | .text _ => []
  | .element name attributes children =>
    (if isTagged tagname name then [.element name attributes children] else []) ++
      searchList tagname children

/-- `SearchList`. -/
def searchList (tagname : CString) : List Content → List Content
  | [] => []
  | child :: children => searchNode tagname child ++ searchList tagname children

end

end Upnp.Dom
