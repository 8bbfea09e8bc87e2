import Upnp.Dom.Search
import Upnp.Soap.Request

/-!
# Replies to control requests

What `SoapSendAction` and `SoapGetServiceVarStatus` do with the reply of a device: its first line is
looked at, its body parsed, and nodes are looked up in the document.  A look-up of a node that is
not there gives a null pointer, which not every caller tests.
-/

namespace Upnp.Soap

open Upnp.Lib Upnp.Dom Upnp.Xml

def MIN_LEN : Nat := 25
def UPNP_E_SUCCESS : Int := 0
def UPNP_E_INVALID_DESC : Int := -107

/-- A document: the nodes below its root. -/
abbrev Document := List Content

/-- What is given back when a reply was handled. -/
inductive Resource where
  | RecvBuff
  | XmlDoc
deriving DecidableEq

/-- The line in front of the first line end. -/
def firstLine (text : CString) : CString :=
  text.take (text.length - ((strstr text "\r\n".toList).getD []).length)

/-- `GetBufferErrorCode`: `none` without a line end, and for a line that does not fit `Header`. -/
def GetBufferErrorCode (text : CString) : Option Int :=
  if strstr text "\r\n".toList = none then none
  else if (firstLine text).length < LINE_SIZE then
    some (if strstr (firstLine text) "200".toList = none then -1 else 1)
  else none

/-- `GetNodeValue`: `none` when the node has no child, whose value is asked for nevertheless. -/
def GetNodeValue (doc : Document) (NodeName : CString) : Option (Option CString) :=
  match (searchList NodeName doc).head? with
  | none => some none
  | some RespNode => (firstChild RespNode).map nodeValue

/-- The node that `GetActionNode` takes for the action: the first child of the first child of the
first child. -/
def actNode (doc : Document) : Option Content :=
  doc.head?.bind fun EnvpNode ↦ (firstChild EnvpNode).bind firstChild

section

-- `UpnpParse_Buffer`
variable (parse : CString → Option Document)

/-- `GetActionNode`: whether it succeeds, and what it leaves in `RespNode`. -/
def GetActionNode (doc : Document) (NodeName : CString) : Bool × Option Document :=
  match actNode doc with
  | none => (false, none)
  | some ActNode =>
    if strstr (nodeName ActNode) NodeName = none then (false, none)
    else (true, parse (dump_doc ActNode))

/-- `GetNode`: whether it succeeds, and what is in `RespNode` behind it. -/
def GetNode (doc : Document) (NodeName : CString) (RespNode : Option Document) :
    Bool × Option Document :=
  match (searchList NodeName doc).head? with
  | none => (false, RespNode)
  | some TmpNode => (true, parse (dump_doc TmpNode))

/-- The document behind the header of a reply. -/
def replyDocument (RecvBuff : CString) : Option Document :=
  (strstr RecvBuff "\r\n\r\n".toList).bind fun Xml ↦ parse (Xml.drop 4)

/-! ## `SoapSendAction` -/

/-- What comes out of `SoapSendAction`. -/
structure ActionResult where
  retCode : Int
  RespNode : Option Document
  freed : List Resource

/-- The part for the document: the return code and the node. -/
def actionCode (ActName RecvBuff : CString) (doc : Document) (RespNode : Option Document) :
    Option (Int × Option Document) :=
  match GetBufferErrorCode RecvBuff with
  | none => none
  | some code =>
    if 0 < code then
      match GetActionNode parse doc ActName with
      | (false, RespNode) => some (UPNP_E_INVALID_ACTION, RespNode)
      | (true, some node) => some (UPNP_E_SUCCESS, some node)
      | (true, none) => some (UPNP_E_INVALID_ACTION, none)
    else
      match GetNode parse doc "UPnPError".toList RespNode with
      | (false, RespNode) => some (code, RespNode)
      | (true, RespNode) =>
        match GetNodeValue doc "errorCode".toList with
        | some (some NodeVal) => some (atoi NodeVal, RespNode)
        | _ => none

/-- `SoapSendAction` from the reply on: `none` when a null pointer is used, or a line does not fit
its array. -/
def actionReply (ActName : CString) (RecvBuff : Option CString) (RespNode : Option Document) :
    Option ActionResult :=
  match RecvBuff with
  | none => some ⟨UPNP_E_INVALID_URL, none, []⟩
  | some RecvBuff =>
    if MIN_LEN < RecvBuff.length then
      match replyDocument parse RecvBuff with
      | none => some ⟨UPNP_E_INVALID_ACTION, RespNode, [.RecvBuff]⟩
      | some doc => (actionCode parse ActName RecvBuff doc RespNode).map fun r ↦
          ⟨r.1, r.2, [.XmlDoc, .RecvBuff]⟩
    else some ⟨UPNP_E_INVALID_URL, none, []⟩

/-! ## `SoapGetServiceVarStatus` -/

/-- What comes out of `SoapGetServiceVarStatus`. -/
structure QueryResult where
  RetVal : Int
  VarVal : Option CString
  freed : List Resource

/-- The part for the document: the return code and the value. -/
def queryCode (RecvBuff : CString) (doc : Document) : Option (Int × Option CString) :=
  match GetBufferErrorCode RecvBuff with
  | none => none
  | some code =>
    if 0 < code then
      (GetNodeValue doc "return".toList).map fun Val ↦ (UPNP_E_SUCCESS, Val)
    else
      match GetNodeValue doc "errorCode".toList with
      | some (some Val) =>
        (GetNodeValue doc "errorDescription".toList).map fun Val' ↦ (atoi Val, Val')
      | _ => none

/-- `SoapGetServiceVarStatus` from the reply on. -/
def queryReply (RecvBuff VarVal : Option CString) : Option QueryResult :=
  match RecvBuff with
  | none => some ⟨UPNP_E_INVALID_URL, none, []⟩
  | some RecvBuff =>
    if MIN_LEN < RecvBuff.length then
      match replyDocument parse RecvBuff with
      | none => some ⟨UPNP_E_INVALID_DESC, VarVal, [.RecvBuff]⟩
      | some doc => (queryCode RecvBuff doc).map fun r ↦ ⟨r.1, r.2, [.RecvBuff, .XmlDoc]⟩
    else some ⟨UPNP_E_INVALID_URL, none, [.RecvBuff]⟩

/-! ## What is to hold of a reply -/

/-- The status code: the second word of the first line. -/
def statusCode (text : CString) : CString :=
  ((firstLine text).dropWhile (· ≠ ' ')).tail.takeWhile (· ≠ ' ')

/-- The `Body` of an envelope. -/
def body (doc : Document) : Option Content :=
  doc.head?.bind fun envelope ↦
    (childNodes envelope).find? fun node ↦
      isElement node && localName (nodeName node) = "Body".toList

/-- A node is the response to the action: a copy of the first child of the `Body`, which is an
element of the name. -/
def IsResponse (ActName : CString) (doc node : Document) : Prop :=
  ∃ response, (body doc).bind firstChild = some response ∧ isElement response ∧
    localName (nodeName response) = ActName ++ "Response".toList ∧
    parse (dump_doc response) = some node

/-- The reply buffer and the document, where there are any, are given back once. -/
def FreedOnce (RecvBuff : Option CString) (freed : List Resource) : Prop :=
  freed.count .RecvBuff = (if RecvBuff.isSome then 1 else 0) ∧
    freed.count .XmlDoc = (if ((RecvBuff.filter (MIN_LEN < ·.length)).bind
      (replyDocument parse)).isSome then 1 else 0)

/-- Who waits for the reply. -/
inductive Asking where
  | action (ActName : CString) (RespNode : Option Document)
  | query (VarVal : Option CString)

namespace Asking

/-- What is to hold when a reply was handled: no null pointer was used, everything is given back, and
an action succeeds only with its response. -/
def ReplyRight (RecvBuff : Option CString) : Asking → Prop
  | action ActName RespNode => ∃ r, actionReply parse ActName RecvBuff RespNode = some r ∧
      FreedOnce parse RecvBuff r.freed ∧
      (r.retCode = UPNP_E_SUCCESS → ∃ text doc node, RecvBuff = some text ∧
        statusCode text = "200".toList ∧ replyDocument parse text = some doc ∧
        r.RespNode = some node ∧ IsResponse parse ActName doc node)
  | query VarVal => ∃ r, queryReply parse RecvBuff VarVal = some r ∧
      FreedOnce parse RecvBuff r.freed

/-- A first line that fits and, as `200` occurs in it or not, the nodes that are used then. -/
def Answers (text : CString) (doc : Document) : Asking → Prop
  | action ActName _ => (firstLine text).length < LINE_SIZE ∧
      if strstr (firstLine text) "200".toList ≠ none then
        ∀ ActNode node, actNode doc = some ActNode → strstr (nodeName ActNode) ActName ≠ none →
          parse (dump_doc ActNode) = some node →
          statusCode text = "200".toList ∧ IsResponse parse ActName doc node
      else
        searchList "UPnPError".toList doc ≠ [] →
          ∃ NodeVal, (searchList "errorCode".toList doc).head?.bind firstChild =
            some (.text NodeVal) ∧ atoi NodeVal ≠ 0
  | query _ => (firstLine text).length < LINE_SIZE ∧
      if strstr (firstLine text) "200".toList ≠ none then
        ∀ node, (searchList "return".toList doc).head? = some node → firstChild node ≠ none
      else
        (∃ Val, (searchList "errorCode".toList doc).head?.bind firstChild = some (.text Val)) ∧
          ∀ node, (searchList "errorDescription".toList doc).head? = some node →
            firstChild node ≠ none

/-- No reply, or one that has a document only with what is used of it; that for an action is not
a short one. -/
def ReplyFits (RecvBuff : Option CString) (asking : Asking) : Prop :=
  ∀ text, RecvBuff = some text →
    (text.length ≤ MIN_LEN → ∃ VarVal, asking = query VarVal) ∧
    ∀ doc, MIN_LEN < text.length → replyDocument parse text = some doc →
      asking.Answers parse text doc

end Asking

/-! ## Lines and values -/

variable {parse} {text ActName NodeName Val : CString} {doc node : Document}
  {RespNode : Option Document}

/-- A reply with a document has a first line. -/
theorem strstr_of_replyDocument (h : replyDocument parse text = some doc) :
    strstr text "\r\n".toList ≠ none := by
  obtain ⟨Xml, hXml, -⟩ := Option.bind_eq_some_iff.mp h
  obtain ⟨hsuffix, hprefix⟩ := strstr_spec hXml
  have hline : "\r\n".toList <+: Xml := List.IsPrefix.trans (by decide) hprefix
  obtain ⟨t, ht, -⟩ := strstr_of_suffix hsuffix hline (by decide)
  rw [ht]
  exact Option.some_ne_none t

/-- The error code of a reply with a document. -/
theorem GetBufferErrorCode_eq (h : replyDocument parse text = some doc) :
    GetBufferErrorCode text = if (firstLine text).length < LINE_SIZE then
      some (if strstr (firstLine text) "200".toList = none then -1 else 1) else none := by
  rw [GetBufferErrorCode, if_neg (strstr_of_replyDocument h)]

/-- Where the status code is 200, the line has a 200. -/
theorem strstr_of_statusCode (h : statusCode text = "200".toList) :
    strstr (firstLine text) "200".toList ≠ none := by
  have hsuffix : ((firstLine text).dropWhile (· ≠ ' ')).tail <:+ firstLine text :=
    (List.tail_suffix _).trans (List.dropWhile_suffix _)
  have hprefix : "200".toList <+: ((firstLine text).dropWhile (· ≠ ' ')).tail := by
    rw [← h]
    exact List.takeWhile_prefix _
  obtain ⟨t, ht, -⟩ := strstr_of_suffix hsuffix hprefix (by decide)
  rw [ht]
  exact Option.some_ne_none t

/-- A value is there when the first child of the node is a text. -/
theorem GetNodeValue_eq_some_iff : GetNodeValue doc NodeName = some (some Val) ↔
    (searchList NodeName doc).head?.bind firstChild = some (.text Val) := by
  rw [GetNodeValue]
  cases (searchList NodeName doc).head? with
  | none => simp
  | some node =>
    dsimp only [Option.bind_some]
    cases firstChild node with
    | none => simp
    | some child =>
      cases child with
      | element => simp [nodeValue]
      | text => simp [nodeValue]

/-- No null pointer is used when the node, if there is one, has a child. -/
theorem GetNodeValue_isSome_iff : (GetNodeValue doc NodeName).isSome ↔
    ∀ node, (searchList NodeName doc).head? = some node → firstChild node ≠ none := by
  rw [GetNodeValue]
  cases (searchList NodeName doc).head? with
  | none => simp
  | some node =>
    dsimp only
    rw [Option.isSome_map]
    constructor
    · rintro h node' heq
      cases heq
      exact Option.isSome_iff_ne_none.mp h
    · intro h
      exact Option.isSome_iff_ne_none.mpr (h node rfl)

/-! ## Actions -/

/-- What is to hold of the return code and the node. -/
def CodeRight (parse : CString → Option Document) (text ActName : CString) (doc : Document)
    (r : Int × Option Document) : Prop :=
  r.1 = UPNP_E_SUCCESS → ∃ node, statusCode text = "200".toList ∧ r.2 = some node ∧
    IsResponse parse ActName doc node

/-- A reply with `200` in its first line. -/
theorem actionNode_iff : CodeRight parse text ActName doc
      (match GetActionNode parse doc ActName with
        | (false, RespNode) => (UPNP_E_INVALID_ACTION, RespNode)
        | (true, some node) => (UPNP_E_SUCCESS, some node)
        | (true, none) => (UPNP_E_INVALID_ACTION, none)) ↔
    ∀ ActNode node, actNode doc = some ActNode → strstr (nodeName ActNode) ActName ≠ none →
      parse (dump_doc ActNode) = some node →
      statusCode text = "200".toList ∧ IsResponse parse ActName doc node := by
  have hinvalid : UPNP_E_INVALID_ACTION ≠ UPNP_E_SUCCESS := by decide
  rw [GetActionNode]
  cases hact : actNode doc with
  | none =>
    refine iff_of_true (fun h ↦ absurd h hinvalid) ?_
    rintro ActNode node ⟨⟩
  | some ActNode =>
    by_cases hname : strstr (nodeName ActNode) ActName = none
    · simp only [hname, if_true]
      refine iff_of_true (fun h ↦ absurd h hinvalid) ?_
      rintro ActNode' node ⟨⟩ hne
      exact absurd hname hne
    · simp only [hname, if_false]
      cases hparse : parse (dump_doc ActNode) with
      | none =>
        refine iff_of_true (fun h ↦ absurd h hinvalid) ?_
        rintro ActNode' node ⟨⟩ - hnode
        rw [hparse] at hnode
        cases hnode
      | some node =>
        constructor
        · rintro h ActNode' node' ⟨⟩ - hnode
          obtain ⟨node'', hstatus, hsame, hresponse⟩ := h rfl
          rw [hparse] at hnode
          cases hnode
          cases hsame
          exact ⟨hstatus, hresponse⟩
        · intro h _
          obtain ⟨hstatus, hresponse⟩ := h ActNode node rfl hname hparse
          exact ⟨node, hstatus, rfl, hresponse⟩

/-- A reply without a `200` in its first line. -/
theorem errorNode_iff (hline : strstr (firstLine text) "200".toList = none) :
    (∃ r, (match GetNode parse doc "UPnPError".toList RespNode with
        | (false, RespNode) => some (-1, RespNode)
        | (true, RespNode) =>
          match GetNodeValue doc "errorCode".toList with
          | some (some NodeVal) => some (atoi NodeVal, RespNode)
          | _ => none) = some r ∧ CodeRight parse text ActName doc r) ↔
    (searchList "UPnPError".toList doc ≠ [] →
      ∃ NodeVal, (searchList "errorCode".toList doc).head?.bind firstChild =
        some (.text NodeVal) ∧ atoi NodeVal ≠ 0) := by
  have hstatus : ∀ r : Int × Option Document, CodeRight parse text ActName doc r ↔
      r.1 ≠ UPNP_E_SUCCESS := by
    intro r
    refine ⟨?_, fun hne heq ↦ absurd heq hne⟩
    intro h heq
    obtain ⟨node, hstatus, -⟩ := h heq
    exact strstr_of_statusCode hstatus hline
  simp only [hstatus, ← GetNodeValue_eq_some_iff]
  rw [GetNode]
  cases hnodes : searchList "UPnPError".toList doc with
  | nil =>
    have hne : (-1 : Int) ≠ UPNP_E_SUCCESS := by decide
    exact iff_of_true ⟨(-1, RespNode), rfl, hne⟩ fun h ↦ absurd rfl h
  | cons TmpNode nodes =>
    rw [List.head?_cons, forall_prop_of_true (List.cons_ne_nil _ _)]
    dsimp only
    cases hvalue : GetNodeValue doc "errorCode".toList with
    | none => simp
    | some value =>
      cases value with
      | none => simp
      | some NodeVal =>
        constructor
        · rintro ⟨r, ⟨⟩, hne⟩
          exact ⟨NodeVal, rfl, hne⟩
        · rintro ⟨NodeVal', heq, hne⟩
          cases heq
          exact ⟨_, rfl, hne⟩

theorem actionCode_iff (hdoc : replyDocument parse text = some doc) :
    (∃ r, actionCode parse ActName text doc RespNode = some r ∧
      CodeRight parse text ActName doc r) ↔
    (Asking.action ActName RespNode).Answers parse text doc := by
  rw [actionCode, GetBufferErrorCode_eq hdoc, Asking.Answers]
  by_cases hfits : (firstLine text).length < LINE_SIZE
  · rw [if_pos hfits, and_iff_right hfits]
    by_cases hline : strstr (firstLine text) "200".toList = none
    · rw [if_pos hline, if_neg (not_not_intro hline), ← errorNode_iff hline]
      rfl
    · rw [if_neg hline, if_pos hline, ← actionNode_iff]
      dsimp only
      rw [if_pos Int.one_pos]
      cases GetActionNode parse doc ActName with
      | mk found RespNode' =>
        cases found with
        | false => simp
        | true =>
          cases RespNode' with
          | none => simp
          | some node => simp
  · rw [if_neg hfits]
    refine iff_of_false ?_ fun h ↦ hfits h.1
    rintro ⟨r, ⟨⟩, -⟩

/-! ## Queries -/

theorem queryCode_iff {VarVal : Option CString} (hdoc : replyDocument parse text = some doc) :
    (queryCode text doc).isSome ↔ (Asking.query VarVal).Answers parse text doc := by
  rw [queryCode, GetBufferErrorCode_eq hdoc, Asking.Answers]
  by_cases hfits : (firstLine text).length < LINE_SIZE
  · rw [if_pos hfits, and_iff_right hfits]
    simp only [← GetNodeValue_eq_some_iff, ← GetNodeValue_isSome_iff]
    by_cases hline : strstr (firstLine text) "200".toList = none
    · have hneg : ¬ (0 : Int) < -1 := by decide
      simp only [hline, if_true, ne_eq, not_true_eq_false, if_false, hneg]
      cases hvalue : GetNodeValue doc "errorCode".toList with
      | none => simp
      | some value =>
        cases value with
        | none => simp
        | some Val => simp
    · simp only [hline, if_false, ne_eq, not_false_eq_true, if_true, Int.one_pos,
        Option.isSome_map]
  · rw [if_neg hfits]
    exact iff_of_false Bool.false_ne_true fun h ↦ hfits h.1

/-! ## Replies -/

/-- Which resources there are to be given back. -/
theorem freedOnce_iff_of_lt (hlong : MIN_LEN < text.length) (freed : List Resource) :
    FreedOnce parse (some text) freed ↔ freed.count .RecvBuff = 1 ∧
      freed.count .XmlDoc = (if (replyDocument parse text).isSome then 1 else 0) := by
  have hfilter : (some text).filter (MIN_LEN < ·.length) = some text := by
    rw [Option.filter_some, if_pos (decide_eq_true hlong)]
  rw [FreedOnce, hfilter]
  rfl

theorem freedOnce_iff_of_le (hshort : ¬ MIN_LEN < text.length) (freed : List Resource) :
    FreedOnce parse (some text) freed ↔ freed.count .RecvBuff = 1 ∧ freed.count .XmlDoc = 0 := by
  have hfilter : (some text).filter (MIN_LEN < ·.length) = none := by
    rw [Option.filter_some, if_neg]
    rw [decide_eq_true_eq]
    exact hshort
  rw [FreedOnce, hfilter]
  rfl

/-- A reply that is not a short one. -/
theorem replyRight_iff_of_lt (asking : Asking) (hlong : MIN_LEN < text.length) :
    asking.ReplyRight parse (some text) ↔
      ∀ doc, replyDocument parse text = some doc → asking.Answers parse text doc := by
  have hinvalid : UPNP_E_INVALID_ACTION ≠ UPNP_E_SUCCESS := by decide
  cases asking with
  | action ActName RespNode =>
    simp only [Asking.ReplyRight, actionReply, if_pos hlong, freedOnce_iff_of_lt hlong]
    cases hdoc : replyDocument parse text with
    | none =>
      refine iff_of_true ⟨_, rfl, ⟨rfl, rfl⟩, fun h ↦ absurd h hinvalid⟩ ?_
      rintro doc ⟨⟩
    | some doc =>
      rw [forall_some_iff, ← actionCode_iff hdoc]
      constructor
      · rintro ⟨r, hr, -, hright⟩
        obtain ⟨code, hcode, rfl⟩ := Option.map_eq_some_iff.mp hr
        refine ⟨code, hcode, ?_⟩
        intro hsuccess
        obtain ⟨text', doc', node, htext, hstatus, hdoc', hnode, hresponse⟩ := hright hsuccess
        cases htext
        rw [hdoc] at hdoc'
        cases hdoc'
        exact ⟨node, hstatus, hnode, hresponse⟩
      · rintro ⟨code, hcode, hright⟩
        dsimp only
        rw [hcode]
        refine ⟨_, rfl, ⟨rfl, rfl⟩, ?_⟩
        intro hsuccess
        obtain ⟨node, hstatus, hnode, hresponse⟩ := hright hsuccess
        exact ⟨text, doc, node, rfl, hstatus, hdoc, hnode, hresponse⟩
  | query VarVal =>
    simp only [Asking.ReplyRight, queryReply, if_pos hlong, freedOnce_iff_of_lt hlong]
    cases hdoc : replyDocument parse text with
    | none =>
      refine iff_of_true ⟨_, rfl, rfl, rfl⟩ ?_
      rintro doc ⟨⟩
    | some doc =>
      rw [forall_some_iff, ← queryCode_iff hdoc]
      dsimp only
      cases queryCode text doc with
      | none => simp
      | some code => exact iff_of_true ⟨_, rfl, rfl, rfl⟩ rfl

/-- A short reply is given back for a query only. -/
theorem replyRight_iff_of_le (asking : Asking) (hshort : ¬ MIN_LEN < text.length) :
    asking.ReplyRight parse (some text) ↔ ∃ VarVal, asking = .query VarVal := by
  cases asking with
  | action ActName RespNode =>
    simp only [Asking.ReplyRight, actionReply, if_neg hshort, freedOnce_iff_of_le hshort]
    refine iff_of_false ?_ ?_
    · rintro ⟨r, ⟨⟩, ⟨hfreed, -⟩, -⟩
      cases hfreed
    · rintro ⟨VarVal, heq⟩
      cases heq
  | query VarVal =>
    simp only [Asking.ReplyRight, queryReply, if_neg hshort, freedOnce_iff_of_le hshort]
    exact iff_of_true ⟨_, rfl, rfl, rfl⟩ ⟨VarVal, rfl⟩

theorem Asking.replyRight_iff (parse : CString → Option Document) (RecvBuff : Option CString)
    (asking : Asking) :
    asking.ReplyRight parse RecvBuff ↔ asking.ReplyFits parse RecvBuff := by
  cases RecvBuff with
  | none =>
    refine iff_of_true ?_ (by rintro text ⟨⟩)
    cases asking with
    | action ActName RespNode =>
      refine ⟨_, rfl, ⟨rfl, rfl⟩, ?_⟩
      intro h
      cases h
    | query VarVal => exact ⟨_, rfl, rfl, rfl⟩
  | some text =>
    have honly : asking.ReplyFits parse (some text) ↔
        (text.length ≤ MIN_LEN → ∃ VarVal, asking = query VarVal) ∧
        ∀ doc, MIN_LEN < text.length → replyDocument parse text = some doc →
          asking.Answers parse text doc := forall_some_iff
    rw [honly]
    by_cases hlong : MIN_LEN < text.length
    · rw [replyRight_iff_of_lt asking hlong]
      refine ⟨fun h ↦ ⟨fun hle ↦ absurd hlong (not_lt.mpr hle), fun doc _ ↦ h doc⟩, ?_⟩
      rintro ⟨-, h⟩ doc
      exact h doc hlong
    · rw [replyRight_iff_of_le asking hlong]
      refine ⟨fun h ↦ ⟨fun _ ↦ h, fun doc hlt ↦ absurd hlt hlong⟩, ?_⟩
      rintro ⟨h, -⟩
      exact h (not_lt.mp hlong)

/-- A device that refuses a request need not say why. -/
theorem not_replyRight : ¬ ∀ (parse : CString → Option Document) (RecvBuff : Option CString)
    (asking : Asking), asking.ReplyRight parse RecvBuff := by
  intro h
  obtain ⟨r, hr, -⟩ := h (fun text ↦ (readDocument 99 .reset text).toOption)
    (some "HTTP/1.0 500 Error\r\n\r\n<UPnPError/>".toList) (.action "Play".toList none)
  have hnone : actionReply (fun text ↦ (readDocument 99 .reset text).toOption) "Play".toList
      (some "HTTP/1.0 500 Error\r\n\r\n<UPnPError/>".toList) none = none := by decide +kernel
  rw [hnone] at hr
  cases hr

end

end Upnp.Soap
