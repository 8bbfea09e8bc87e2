import Upnp.Xml.Characters

/-!
# The parser

`Parser` of `Parser.cpp`: the tokenizer `getNextToken` and `getNextNode`, and
`Document::ReadDocumentFileOrBuffer`, which builds the tree.  A pointer into the buffer is the
text from there to the NUL.
-/

namespace Upnp.Xml

open Upnp.Lib

/-- Why a call does not return a result. -/
inductive Fault where
  /-- `DOMException`, or an error that its caller turns into one. -/
  | FATAL_ERROR_DURING_PARSING
  /-- A pointer that is not set, or that leaves the buffer. -/
  | outside
  | fuel
deriving DecidableEq

/-- `Parser`. -/
structure Parser where
  parseBuff : CString
  currPtr : CString
  savePtr : Option CString
  tagVal : Bool
  inAttrib : Bool
  attrFound : Bool
  atLeastOneAttrFound : Bool
  tokBuf : CString
  lastElem : CString
deriving DecidableEq

/-- `NODE_TYPE`, of the nodes that are parsed. -/
inductive NodeType where
  | INVALID_NODE
  | ELEMENT_NODE
  | ATTRIBUTE_NODE
  | TEXT_NODE
deriving DecidableEq

/-- What `getNextNode` writes for its caller. -/
structure NextNode where
  nodeType : NodeType
  nodeName : Option CString
  nodeValue : Option CString
  isEnd : Bool
deriving DecidableEq

/-- What the loop over the nodes leaves for the next. -/
def NextNode.reset : NextNode := ⟨.INVALID_NODE, none, none, false⟩

/-- `WHITESPACE`. -/
def WHITESPACE : CString := "\n\t\r\x0c ".toList

def BEGIN_COMMENT : CString := "<!--".toList

def BEGIN_PROCESSING : CString := "<?".toList

def BEGIN_DOCTYPE : CString := "<!".toList

/-! ## Pointers -/

/-- `skipUntilString`. -/
def skipUntilString (strSkipKey : CString) : CString → Except Fault CString
  | [] => throw .outside
  | c :: rest =>
    if strSkipKey.isPrefixOf (c :: rest) then return (c :: rest).drop strSkipKey.length
    else skipUntilString strSkipKey rest

/-- Skips comments, processing instructions and declarations, each with the white space after it,
and whether there was one. -/
def skipMarkup : Nat → CString → Except Fault (CString × Bool)
  | 0, _ => throw .fuel
  | fuel + 1, p => do
    if BEGIN_COMMENT.isPrefixOf p || BEGIN_PROCESSING.isPrefixOf p || BEGIN_DOCTYPE.isPrefixOf p then
      let key :=
        if BEGIN_COMMENT.isPrefixOf p then "-->".toList
        else if BEGIN_PROCESSING.isPrefixOf p then "?>".toList
        else ">".toList
      let p ← skipUntilString key p
      let (p, _) ← skipMarkup fuel (p.dropWhile (· ∈ WHITESPACE))
      return (p, true)
    else return (p, false)

/-- `pEndContent`: the next `<` that does not begin a comment, or the end. -/
def endContent : Nat → CString → Except Fault CString
  | 0, _ => throw .fuel
  | fuel + 1, p => do
    let p := p.dropWhile (· ≠ '<')
    if BEGIN_COMMENT.isPrefixOf p then
      let p ← skipUntilString "-->".toList p
      if p = [] then return p else endContent fuel p
    else return p

/-- The length of a name, after its first character. -/
def nameLength : Nat → CString → Nat
  | 0, _ => 0
  | fuel + 1, p =>
    match toint p with
    | none => 0
    | some (c, len) => if isnamech c true then len + nameLength fuel (p.drop len) else 0

namespace Parser

/-- `Parser::Parser`. -/
def new (parseStr : CString) : Except Fault Parser :=
  if parseStr = [] then throw .FATAL_ERROR_DURING_PARSING
  else return {
    parseBuff := parseStr, currPtr := parseStr, savePtr := none, tagVal := false
    inAttrib := false, attrFound := true, atLeastOneAttrFound := false, tokBuf := []
    lastElem := [] }

/-! ## `getNextToken` -/

/-- The end of `getNextToken`: the token is copied and the pointer moved behind it. -/
def take (s : Parser) (tokenLength : Nat) : Except Fault Parser :=
  match copyToken s.currPtr tokenLength with
  | none => throw .FATAL_ERROR_DURING_PARSING
  | some token => return { s with tokBuf := token, currPtr := s.currPtr.drop tokenLength }

/-- The content from behind the last `>` on, with its leading white space. -/
def takeContent (s : Parser) : Except Fault Parser :=
  match s.savePtr with
  | none => throw .outside
  | some savePtr => do
    let s := { s with tagVal := false, currPtr := savePtr.drop 1 }
    let pEndContent ← endContent (s.currPtr.length + 1) s.currPtr
    match s.currPtr.length - pEndContent.length with
    | 0 => if s.currPtr = [] then return s else throw .FATAL_ERROR_DURING_PARSING
    | tokenLength + 1 => s.take (tokenLength + 1)

/-- `getNextToken`, from a character that is no white space and begins no comment. -/
def tokenAt (s : Parser) : Except Fault Parser :=
  match s.currPtr with
  | [] => return s
  | c :: rest =>
    if c = '<' then
      match toint rest with
      | none => throw .FATAL_ERROR_DURING_PARSING
      | some (temp, _) =>
        if temp = '/'.toNat then { s with tagVal := false }.take 2
        else if isnamech temp false then { s with tagVal := false }.take 1
        else throw .FATAL_ERROR_DURING_PARSING
    else if c = '/' then
      if rest.head? = some '>' then { s with tagVal := true }.take 2
      -- content may begin with a `/`
      else if s.tagVal then s.takeContent
      else throw .FATAL_ERROR_DURING_PARSING
    else if c = '>' then { s with savePtr := some s.currPtr, tagVal := true }.take 1
    else if s.tagVal then s.takeContent
    else if c = '"' ∨ c = '=' then s.take 1
    else
      match toint s.currPtr with
      | none => throw .FATAL_ERROR_DURING_PARSING
      | some (temp, tlen) =>
        if isnamech temp false then s.take (tlen + nameLength s.currPtr.length (s.currPtr.drop tlen))
        else throw .FATAL_ERROR_DURING_PARSING

/-- `getNextToken`; an error where it returns `1`. -/
def getNextToken (s : Parser) : Except Fault Parser :=
  let s := { s with tokBuf := [] }
  match s.currPtr with
  | [] => return s
  | c :: rest =>
    if s.inAttrib ∧ c ≠ '"' then s.take (s.currPtr.takeWhile (· ≠ '"')).length
    else if c ∈ WHITESPACE then return { s with tokBuf := " ".toList, currPtr := rest }
    else do
      let (p, skipped) ← skipMarkup (s.currPtr.length + 1) s.currPtr
      { s with currPtr := p, tagVal := s.tagVal && !skipped }.tokenAt

/-- `IgnoreWhiteSpaces`. -/
def ignoreWhiteSpaces : Nat → Parser → Except Fault Parser
  | 0, _ => throw .fuel
  | fuel + 1, s =>
    match s.currPtr with
    | [] => return s
    | c :: _ =>
      if c ∈ WHITESPACE then do
        let s ← s.getNextToken
        ignoreWhiteSpaces fuel s
      else return s

/-- `IgnoreWhiteSpaces`, with enough fuel, and `getNextToken`. -/
def nextToken (s : Parser) : Except Fault Parser := do
  let s ← s.ignoreWhiteSpaces (s.currPtr.length + 1)
  s.getNextToken

/-! ## `getNextNode` -/

/-- `rewindCurrentPtr`. -/
def rewindCurrentPtr (s : Parser) (n : Nat) : Except Fault Parser :=
  if s.currPtr.length + n ≤ s.parseBuff.length then
    return { s with currPtr := s.parseBuff.drop (s.parseBuff.length - (s.currPtr.length + n)) }
  else throw .outside

/-- The value of an attribute whose name was read. -/
def readAttribute (s : Parser) (name : CString) : Except Fault (Parser × NextNode) := do
  let s ← s.nextToken
  let s ← s.nextToken
  let s ← { s with inAttrib := true }.getNextToken
  let s := { s with inAttrib := false }
  if s.tokBuf = [] then throw .FATAL_ERROR_DURING_PARSING
  let value := s.tokBuf
  let s ← s.getNextToken
  return ({ s with atLeastOneAttrFound := true }, ⟨.ATTRIBUTE_NODE, some name, some value, false⟩)

/-- One pass of the loop in `getNextNode`, with `IgnoreWhiteSpace`; whether it returns. -/
def nodePass (s : Parser) (n : NextNode) : Except Fault (Parser × NextNode × Bool) := do
  let s ← s.nextToken
  if s.tokBuf = "<".toList then
    let s ← s.nextToken
    if s.tokBuf = [] then throw .FATAL_ERROR_DURING_PARSING
    return ({ s with lastElem := s.tokBuf, attrFound := true, atLeastOneAttrFound := false },
      ⟨.ELEMENT_NODE, some s.tokBuf, none, false⟩, false)
  else if s.tokBuf = ">".toList then
    let s := { s with attrFound := false }
    if s.atLeastOneAttrFound then return ({ s with atLeastOneAttrFound := false }, n, false)
    else return (s, n, true)
  else if s.tokBuf = "</".toList then
    let s ← s.nextToken
    if s.tokBuf = [] then throw .FATAL_ERROR_DURING_PARSING
    return (s, ⟨.ELEMENT_NODE, some s.tokBuf, none, true⟩, false)
  else if s.tokBuf = "/>".toList then
    if n.nodeType = .ELEMENT_NODE ∨ n.nodeType = .ATTRIBUTE_NODE then
      let s ← s.rewindCurrentPtr s.tokBuf.length
      return (s, { n with isEnd := false }, true)
    else
      return ({ s with attrFound := true, atLeastOneAttrFound := false },
        ⟨.ELEMENT_NODE, some s.lastElem, none, true⟩, true)
  else if s.tokBuf = [] then return (s, { n with isEnd := false }, false)
  else if !s.attrFound then
    return (s, ⟨.TEXT_NODE, some "#text".toList, some s.tokBuf, false⟩, true)
  else if n.nodeType = .ELEMENT_NODE then
    let s ← s.rewindCurrentPtr (s.tokBuf.length + 1)
    return (s, n, true)
  else
    let (s, n) ← s.readAttribute s.tokBuf
    return (s, n, true)

/-- `getNextNode`. -/
def getNextNode : Nat → Parser → NextNode → Except Fault (Parser × NextNode)
  | 0, s, n => if s.currPtr = [] then return (s, n) else throw .fuel
  | fuel + 1, s, n =>
    if s.currPtr = [] then return (s, n)
    else do
      let (s, n, returns) ← s.nodePass n
      if returns then return (s, n) else getNextNode fuel s n

end Parser

/-! ## `ReadDocumentFileOrBuffer` -/

/-- A node of a document that was read. -/
inductive Content where
  | element (name : CString) (attributes : List (CString × CString)) (children : List Content)
  | text (value : CString)

/-- An element that was not closed, or the document. -/
structure OpenNode where
  nodeName : CString
  attributes : List (CString × CString)
  children : List Content

namespace OpenNode

def close (o : OpenNode) : Content := .element o.nodeName o.attributes o.children

def appendChild (o : OpenNode) (child : Content) : OpenNode :=
  { o with children := o.children ++ [child] }

/-- The children of the document, when `o` is the innermost of the nodes that are open. -/
def root : OpenNode → List OpenNode → List Content
  | o, [] => o.children
  | o, parent :: os => root (parent.appendChild o.close) os

end OpenNode

/-- `CurrentNodePtr`, with the nodes around it, innermost first. -/
abbrev Current := OpenNode × List OpenNode

/-- What the loop does with a node; `appendChild` is given a new node. -/
def Current.add (current : Current) (n : NextNode) : Except Fault Current :=
  let (o, os) := current
  if !n.isEnd then
    match n.nodeType, n.nodeName, n.nodeValue with
    | .ELEMENT_NODE, some nodeName, _ => return (⟨nodeName, [], []⟩, o :: os)
    | .TEXT_NODE, _, some nodeValue => return (o.appendChild (.text nodeValue), os)
    | .ATTRIBUTE_NODE, some nodeName, some nodeValue =>
      return ({ o with attributes := o.attributes ++ [(nodeName, nodeValue)] }, os)
    | .INVALID_NODE, _, _ => return current
    | _, _, _ => throw .outside
  else
    match n.nodeName with
    | none => throw .outside
    | some nodeName =>
      if nodeName = o.nodeName then
        match os with
        | [] => throw .outside
        | parent :: os => return (parent.appendChild o.close, os)
      else throw .FATAL_ERROR_DURING_PARSING

/-- The loop of `ReadDocumentFileOrBuffer`, with `IgnoreWhiteSpace`: the children of the
document. -/
def readLoop : Nat → Parser → NextNode → Current → Except Fault (List Content)
  | 0, _, _, _ => throw .fuel
  | fuel + 1, s, n, current => do
    let (s, n) ← s.getNextNode fuel n
    let current ← current.add n
    if n.nodeType = .INVALID_NODE then return current.1.root current.2
    else readLoop fuel s .reset current

/-- `ReadDocumentFileOrBuffer` on a buffer; `n` is what its variables hold at first. -/
def readDocument (fuel : Nat) (n : NextNode) (xmlFile : CString) : Except Fault (List Content) := do
  let myparser ← Parser.new xmlFile
  readLoop fuel myparser n (⟨"#document".toList, [], []⟩, [])

end Upnp.Xml
