import Upnp.ServiceTable.FindByPath
import Upnp.Soap.Reply

/-!
# Control requests at the device

`ProcessSoapEventPacket`: a request is taken apart, the application is called back, and a reply is
sent.  Every exit gives back by hand what was taken until then and closes the socket.
-/

namespace Upnp.Soap

open Upnp.Lib Upnp.Dom Upnp.Xml Upnp.ServiceTable

/-- What a request takes and gives back: its documents, the reply buffer, the parameters of the
callback and the result of the action. -/
inductive Held where
  | XmlDoc
  | RespNode
  | InStr
  | Param
  | ActionResult
deriving DecidableEq

/-- What happens while a request is served. -/
inductive Event where
  | UpnpCloseSocket
  | UPNP_CONTROL_ACTION_REQUEST (ActionRequest : Option Document)
  | UPNP_CONTROL_GET_VAR_REQUEST
  | acquire (r : Held)
  | free (r : Held)

namespace Event

def isClose : Event → Bool
  | UpnpCloseSocket => true
  | _ => false

def isCallback : Event → Bool
  | UPNP_CONTROL_ACTION_REQUEST _ => true
  | UPNP_CONTROL_GET_VAR_REQUEST => true
  | _ => false

/-- A callback for an action without its document. -/
def isNullRequest : Event → Bool
  | UPNP_CONTROL_ACTION_REQUEST none => true
  | _ => false

end Event

/-- Whether a resource is held behind the events; `none` when it is given back without being held,
or taken while it is. -/
def holds (r : Held) : Bool → List Event → Option Bool
  | held, [] => some held
  | held, .acquire r' :: events =>
    if r' = r then if held then none else holds r true events else holds r held events
  | held, .free r' :: events =>
    if r' = r then if held then holds r false events else none else holds r held events
  | held, _ :: events => holds r held events

/-- The device: the parser, its systems for the look-up of URLs, and the service table of the
device handle, where there is one. -/
structure Device where
  parse : CString → Option Document
  env : Envs
  ServiceTable : Option (Option (List ServiceInfo))

/-- What the application leaves in the parameters. -/
structure Answer where
  ErrCode : Int
  ActionResult : Option Document
  CurrentVal : Option CString

/-- `strcpy` of a text to an array. -/
def fitsArray (size : Nat) (text : Option CString) : Bool := text.any (·.length < size)

/-- `GetDeviceInfo`: whether a service is found; `none` when a name is copied that is not there or
does not fit. -/
def GetDeviceInfo (dev : Device) (CtrlUrl : CString) : Option Bool :=
  match dev.ServiceTable with
  | none => some false
  | some table =>
    match findServiceControlURLPath dev.env table CtrlUrl with
    | none => none
    | some l =>
      match l.found.bind ((table.getD [])[·]?) with
      | none => some false
      | some SInfo =>
        if fitsArray NAME_SIZE SInfo.serviceId && fitsArray NAME_SIZE SInfo.UDN then some true
        else none

/-- `GetVarName`: `none` for a fault, `some none` when it fails. -/
def GetVarName (TempDoc : Document) : Option (Option CString) :=
  match actNode TempDoc with
  | none => some none
  | some StNode =>
    if strstr (nodeName StNode) "QueryStateVariable".toList = none then some none
    else
      match firstChild StNode with
      | none => some none
      | some VarNameNode => ((firstChild VarNameNode).bind nodeValue).map some

/-- `UpnpNewPrintDocument` of a document. -/
def printDocument (doc : Document) : Option CString :=
  if dumpSiblings doc = [] then none else some (dumpSiblings doc)

/-- What may be null is given back. -/
def freeSome {α : Type} (r : Held) (p : Option α) : List Event :=
  if p.isSome then [.free r] else []

def acquireSome {α : Type} (r : Held) (p : Option α) : List Event :=
  if p.isSome then [.acquire r] else []

/-- A new reply buffer for a text that is too long for the one there is. -/
def growReply (InData text : CString) : List Event :=
  if wrap32 text.length > |BuffLen InData - HEADER_LENGTH| then [.free .InStr, .acquire .InStr]
  else []

/-- The result of an action that succeeds is printed, sent and given back. -/
def sendResult (answer : Answer) (InData : CString) : List Event :=
  match answer.ActionResult with
  | none => []
  | some ActionResult =>
    if answer.ErrCode = UPNP_E_SUCCESS then
      match printDocument ActionResult with
      | none => []
      | some RespStr => growReply InData RespStr ++ [.free .ActionResult]
    else []

/-- The part for an action. -/
def serveAction (dev : Device) (answer : Answer) (InData CtrlUrl : CString) (XmlDoc : Document) :
    Option (List Event) :=
  match GetActionName InData (Buffer.alloc NAME_SIZE) with
  | none => none
  | some (ret, Name) =>
    if ret < 0 then some [.UpnpCloseSocket, .free .InStr, .free .XmlDoc]
    -- the array is not initialised, and a request without `SOAPACTION` and `<` leaves it so
    else if some '\x00' ∉ Name then none
    else
      match GetActionNode dev.parse XmlDoc Name.str with
      | (false, _) => some [.UpnpCloseSocket, .free .InStr, .free .XmlDoc]
      | (true, RespNode) =>
        match GetDeviceInfo dev CtrlUrl with
        | none => none
        | some false =>
          some (acquireSome .RespNode RespNode ++ [.acquire .Param, .free .XmlDoc] ++
            freeSome .RespNode RespNode ++ [.free .InStr, .free .Param, .UpnpCloseSocket])
        | some true =>
          some (acquireSome .RespNode RespNode ++
            [.acquire .Param, .UPNP_CONTROL_ACTION_REQUEST RespNode] ++
            acquireSome .ActionResult answer.ActionResult ++ sendResult answer InData ++
            [.free .XmlDoc] ++ freeSome .RespNode RespNode ++
            [.free .InStr, .free .Param, .UpnpCloseSocket])

/-- The value of a variable is sent. -/
def sendValue (answer : Answer) (InData : CString) : List Event :=
  match answer.CurrentVal with
  | none => []
  | some CurrentVal => if answer.ErrCode = UPNP_E_SUCCESS then growReply InData CurrentVal else []

/-- The part for a query; the name goes by `InStr` to `StateVarName`. -/
def serveQuery (dev : Device) (answer : Answer) (InData CtrlUrl : CString) (XmlDoc : Document) :
    Option (List Event) :=
  match GetVarName XmlDoc with
  | none => none
  | some none => some [.UpnpCloseSocket, .free .InStr, .free .XmlDoc]
  | some (some Temp) =>
    if fitsArray (BuffLen InData).toNat (some Temp) then
      match GetDeviceInfo dev CtrlUrl with
      | none => none
      | some false =>
        some [.acquire .Param, .free .InStr, .free .Param, .free .XmlDoc, .UpnpCloseSocket]
      | some true =>
        if fitsArray NAME_SIZE (some Temp) then
          some ([.acquire .Param, .UPNP_CONTROL_GET_VAR_REQUEST] ++ sendValue answer InData ++
            [.free .InStr, .free .Param, .free .XmlDoc, .UpnpCloseSocket])
        else none
    else none

/-- `ProcessSoapEventPacket`: `none` when a null pointer is used, or something is copied that does not
fit. -/
def ProcessSoapEventPacket (dev : Device) (answer : Answer) (InData : CString) :
    Option (List Event) :=
  match replyDocument dev.parse InData with
  | none => some [.UpnpCloseSocket]
  | some XmlDoc =>
    match GetCtrlUrl InData (Buffer.alloc LINE_SIZE) with
    | none => none
    | some (ret, Url) =>
      if 0 < ret then
        if strstrcase InData "QueryStateVariable".toList = none then
          (serveAction dev answer InData Url.str XmlDoc).map
            ([.acquire .XmlDoc, .acquire .InStr] ++ ·)
        else
          (serveQuery dev answer InData Url.str XmlDoc).map
            ([.acquire .XmlDoc, .acquire .InStr] ++ ·)
      else
        some [.acquire .XmlDoc, .acquire .InStr, .free .InStr, .free .XmlDoc, .UpnpCloseSocket]

/-! ## What is to hold -/

/-- The socket is closed once, the application is called back at most once, and with the document
of its action, and what is taken is given back once. -/
structure Served (events : List Event) : Prop where
  closed : events.countP Event.isClose = 1
  calledBack : events.countP Event.isCallback ≤ 1
  request : events.countP Event.isNullRequest = 0
  released : ∀ r, holds r false events = some false

/-- The names of the service that is found, if one is, fit their arrays. -/
def NamesFit (dev : Device) (CtrlUrl : CString) : Prop :=
  ∀ table, dev.ServiceTable = some table →
    ∃ l, findServiceControlURLPath dev.env table CtrlUrl = some l ∧
      ∀ SInfo, l.found.bind ((table.getD [])[·]?) = some SInfo →
        (∃ id, SInfo.serviceId = some id ∧ id.length < NAME_SIZE) ∧
          ∃ udn, SInfo.UDN = some udn ∧ udn.length < NAME_SIZE

/-- A service is found. -/
def Controls (dev : Device) (CtrlUrl : CString) : Prop :=
  ∃ table l SInfo, dev.ServiceTable = some table ∧
    findServiceControlURLPath dev.env table CtrlUrl = some l ∧
    l.found.bind ((table.getD [])[·]?) = some SInfo

/-- An action has a name that ends in the request and fits its array; when that is in the document,
the names of the service fit; and when a service is found as well, the action can be parsed again,
and a result comes with success only and is not empty. -/
def ActionServeable (dev : Device) (answer : Answer) (InData CtrlUrl : CString)
    (XmlDoc : Document) : Prop :=
  match namePart InData with
  | .refused => True
  | .untouched => False
  | .endless => False
  | .copied ActName => ActName.length < NAME_SIZE ∧
      ∀ ActNode, actNode XmlDoc = some ActNode → strstr (nodeName ActNode) ActName ≠ none →
        NamesFit dev CtrlUrl ∧ (Controls dev CtrlUrl → dev.parse (dump_doc ActNode) ≠ none ∧
          ∀ result, answer.ActionResult = some result →
            answer.ErrCode = UPNP_E_SUCCESS ∧ dumpSiblings result ≠ [])

/-- A query has a text as the name of its variable, if it has a child for it at all, and the names
fit. -/
def QueryServeable (dev : Device) (InData CtrlUrl : CString) (XmlDoc : Document) : Prop :=
  ∀ StNode VarNameNode, actNode XmlDoc = some StNode →
    strstr (nodeName StNode) "QueryStateVariable".toList ≠ none →
    firstChild StNode = some VarNameNode →
    ∃ Temp, firstChild VarNameNode = some (.text Temp) ∧ Temp.length < (BuffLen InData).toNat ∧
      NamesFit dev CtrlUrl ∧ (Controls dev CtrlUrl → Temp.length < NAME_SIZE)

/-- There is no document or no control URL, or that has fewer than 128 characters, and the action
or the query can be served. -/
def Serveable (dev : Device) (answer : Answer) (InData : CString) : Prop :=
  ∀ XmlDoc, replyDocument dev.parse InData = some XmlDoc →
    match urlPart InData with
    | none => True
    | some none => False
    | some (some CtrlUrl) => CtrlUrl.length < 128 ∧
        if strstrcase InData "QueryStateVariable".toList = none then
          ActionServeable dev answer InData CtrlUrl XmlDoc
        else QueryServeable dev InData CtrlUrl XmlDoc

/-! ## Look-ups -/

variable {dev : Device} {answer : Answer} {InData CtrlUrl : CString} {XmlDoc : Document}

theorem fitsArray_iff {size : Nat} {text : Option CString} :
    fitsArray size text = true ↔ ∃ s, text = some s ∧ s.length < size := by
  cases text with
  | none => simp [fitsArray]
  | some s => simp [fitsArray]

theorem fitsArray_some_iff {size : Nat} {s : CString} :
    fitsArray size (some s) = true ↔ s.length < size := decide_eq_true_iff

/-- `GetDeviceInfo` copies what fits, and finds what there is. -/
theorem GetDeviceInfo_cases (dev : Device) (CtrlUrl : CString) :
    (GetDeviceInfo dev CtrlUrl = none ∧ ¬ NamesFit dev CtrlUrl) ∨
      (GetDeviceInfo dev CtrlUrl = some false ∧ NamesFit dev CtrlUrl ∧ ¬ Controls dev CtrlUrl) ∨
      (GetDeviceInfo dev CtrlUrl = some true ∧ NamesFit dev CtrlUrl ∧ Controls dev CtrlUrl) := by
  rw [GetDeviceInfo, NamesFit, Controls]
  cases dev.ServiceTable with
  | none => simp
  | some table =>
    cases hfound : findServiceControlURLPath dev.env table CtrlUrl with
    | none => simp [hfound]
    | some l =>
      cases hinfo : l.found.bind ((table.getD [])[·]?) with
      | none => simp [hfound, hinfo]
      | some SInfo =>
        by_cases hfits : fitsArray NAME_SIZE SInfo.serviceId && fitsArray NAME_SIZE SInfo.UDN
        · refine .inr (.inr ⟨?_, ?_, table, l, SInfo, rfl, hfound, hinfo⟩)
          · simp only [hfound, hinfo, hfits, if_true]
          rw [Bool.and_eq_true, fitsArray_iff, fitsArray_iff] at hfits
          rintro table' ⟨⟩
          refine ⟨l, hfound, ?_⟩
          intro SInfo' hinfo'
          rw [hinfo] at hinfo'
          cases hinfo'
          exact hfits
        · refine .inl ⟨?_, ?_⟩
          · simp only [hfound, hinfo, hfits, Bool.false_eq_true, if_false]
          intro h
          obtain ⟨l', hl', hall⟩ := h table rfl
          rw [hfound] at hl'
          cases hl'
          apply hfits
          rw [Bool.and_eq_true, fitsArray_iff, fitsArray_iff]
          exact hall SInfo hinfo

/-! ## Events -/

/-- A new reply buffer takes the place of the old one. -/
theorem growReply_cases (InData text : CString) :
    growReply InData text = [] ∨ growReply InData text = [.free .InStr, .acquire .InStr] := by
  rw [growReply]
  split
  · exact .inr rfl
  · exact .inl rfl

/-- An exit in front of the parameters. -/
theorem served_refused : Served [.acquire .XmlDoc, .acquire .InStr, .UpnpCloseSocket,
    .free .InStr, .free .XmlDoc] := by
  refine ⟨rfl, Nat.zero_le _, rfl, ?_⟩
  intro r
  cases r <;> rfl

/-- An action for which no service is found. -/
theorem served_unknown (RespNode : Option Document) :
    Served ([.acquire .XmlDoc, .acquire .InStr] ++ (acquireSome .RespNode RespNode ++
      [.acquire .Param, .free .XmlDoc] ++ freeSome .RespNode RespNode ++
        [.free .InStr, .free .Param, .UpnpCloseSocket])) := by
  cases RespNode with
  | none =>
    refine ⟨rfl, Nat.zero_le _, rfl, ?_⟩
    intro r
    cases r <;> rfl
  | some node =>
    refine ⟨rfl, Nat.zero_le _, rfl, ?_⟩
    intro r
    cases r <;> rfl

/-- What comes of the result: nothing where there is none; it is left when it is not sent; and it is
given back when it is. -/
theorem sendResult_cases (answer : Answer) (InData : CString) :
    (answer.ActionResult = none ∧ sendResult answer InData = []) ∨
      (∃ result, answer.ActionResult = some result ∧
        ¬ (answer.ErrCode = UPNP_E_SUCCESS ∧ dumpSiblings result ≠ []) ∧
        sendResult answer InData = []) ∨
      ∃ result text, answer.ActionResult = some result ∧
        (answer.ErrCode = UPNP_E_SUCCESS ∧ dumpSiblings result ≠ []) ∧
        sendResult answer InData = growReply InData text ++ [.free .ActionResult] := by
  rw [sendResult]
  cases answer.ActionResult with
  | none => exact .inl ⟨rfl, rfl⟩
  | some result =>
    refine .inr ?_
    dsimp only
    by_cases hcode : answer.ErrCode = UPNP_E_SUCCESS
    · rw [if_pos hcode, printDocument]
      by_cases hprint : dumpSiblings result = []
      · rw [if_pos hprint]
        exact .inl ⟨result, rfl, fun h ↦ h.2 hprint, rfl⟩
      · rw [if_neg hprint]
        exact .inr ⟨result, _, rfl, ⟨hcode, hprint⟩, rfl⟩
    · rw [if_neg hcode]
      exact .inl ⟨result, rfl, fun h ↦ hcode h.1, rfl⟩

/-- The events of an action for which the application is called back. -/
def actionEvents (answer : Answer) (InData : CString) (RespNode : Option Document) : List Event :=
  [.acquire .XmlDoc, .acquire .InStr] ++ (acquireSome .RespNode RespNode ++
    [.acquire .Param, .UPNP_CONTROL_ACTION_REQUEST RespNode] ++
    acquireSome .ActionResult answer.ActionResult ++ sendResult answer InData ++
    [.free .XmlDoc] ++ freeSome .RespNode RespNode ++
    [.free .InStr, .free .Param, .UpnpCloseSocket])

/-- They are right when there is a document of the action, and a result only when it is sent. -/
theorem served_actionEvents_iff {RespNode : Option Document} :
    Served (actionEvents answer InData RespNode) ↔ RespNode ≠ none ∧
      ∀ result, answer.ActionResult = some result →
        answer.ErrCode = UPNP_E_SUCCESS ∧ dumpSiblings result ≠ [] := by
  rw [actionEvents]
  cases RespNode with
  | none =>
    refine iff_of_false ?_ fun h ↦ h.1 rfl
    intro h
    have hnull := h.request
    rw [List.countP_eq_zero] at hnull
    refine hnull (.UPNP_CONTROL_ACTION_REQUEST none) ?_ rfl
    simp
  | some node =>
    rw [and_iff_right (Option.some_ne_none node)]
    rcases sendResult_cases answer InData with
      ⟨hnone, hsend⟩ | ⟨result, hresult, hnot, hsend⟩ | ⟨result, text, hresult, hsent, hsend⟩
    · rw [hnone, hsend]
      refine iff_of_true ⟨rfl, Nat.le_refl 1, rfl, ?_⟩ ?_
      · intro r
        cases r <;> rfl
      · rintro result ⟨⟩
    · rw [hresult, hsend]
      refine iff_of_false ?_ fun h ↦ hnot (h result rfl)
      intro h
      have hleft := h.released .ActionResult
      cases hleft
    · rw [hresult, hsend]
      refine iff_of_true ?_ ?_
      · rcases growReply_cases InData text with hgrow | hgrow
        · rw [hgrow]
          refine ⟨rfl, Nat.le_refl 1, rfl, ?_⟩
          intro r
          cases r <;> rfl
        · rw [hgrow]
          refine ⟨rfl, Nat.le_refl 1, rfl, ?_⟩
          intro r
          cases r <;> rfl
      · rintro result' ⟨⟩
        exact hsent

/-- A query for which no service is found. -/
theorem served_unknownQuery : Served ([.acquire .XmlDoc, .acquire .InStr] ++
    [.acquire .Param, .free .InStr, .free .Param, .free .XmlDoc, .UpnpCloseSocket]) := by
  refine ⟨rfl, Nat.zero_le _, rfl, ?_⟩
  intro r
  cases r <;> rfl

/-- A query for which the application is called back. -/
theorem served_query (answer : Answer) (InData : CString) :
    Served ([.acquire .XmlDoc, .acquire .InStr] ++ ([.acquire .Param,
      .UPNP_CONTROL_GET_VAR_REQUEST] ++ sendValue answer InData ++
        [.free .InStr, .free .Param, .free .XmlDoc, .UpnpCloseSocket])) := by
  have hsend : sendValue answer InData = [] ∨
      sendValue answer InData = [.free .InStr, .acquire .InStr] := by
    rw [sendValue]
    split
    · exact .inl rfl
    · split
      · exact growReply_cases InData _
      · exact .inl rfl
  rcases hsend with hsend | hsend
  · rw [hsend]
    refine ⟨rfl, Nat.le_refl 1, rfl, ?_⟩
    intro r
    cases r <;> rfl
  · rw [hsend]
    refine ⟨rfl, Nat.le_refl 1, rfl, ?_⟩
    intro r
    cases r <;> rfl

/-! ## Requests -/

/-- An action with its name: what happens is right exactly when the names of the service fit and
the result is sent. -/
theorem named_iff {Name : Buffer} {ActName : CString} (hnul : '\x00' ∉ ActName)
    (hholds : Name.Holds ActName) (hname : GetActionName InData (Buffer.alloc NAME_SIZE) =
      some (1, Name)) :
    (∃ events, (serveAction dev answer InData CtrlUrl XmlDoc).map
      ([.acquire .XmlDoc, .acquire .InStr] ++ ·) = some events ∧ Served events) ↔
    ∀ ActNode, actNode XmlDoc = some ActNode → strstr (nodeName ActNode) ActName ≠ none →
      NamesFit dev CtrlUrl ∧ (Controls dev CtrlUrl → dev.parse (dump_doc ActNode) ≠ none ∧
        ∀ result, answer.ActionResult = some result →
          answer.ErrCode = UPNP_E_SUCCESS ∧ dumpSiblings result ≠ []) := by
  have hpos : ¬ (1 : Int) < 0 := by decide
  have hmem : some '\x00' ∈ Name :=
    hholds.subset (List.mem_map_of_mem (List.mem_append_right _ List.mem_cons_self))
  rw [serveAction, hname]
  dsimp only
  rw [if_neg hpos, if_neg (not_not_intro hmem), Buffer.str_of_holds hnul hholds, GetActionNode]
  cases hact : actNode XmlDoc with
  | none =>
    refine iff_of_true ⟨_, rfl, served_refused⟩ ?_
    rintro ActNode ⟨⟩
  | some ActNode =>
    dsimp only
    by_cases hfound : strstr (nodeName ActNode) ActName = none
    · rw [if_pos hfound]
      refine iff_of_true ⟨_, rfl, served_refused⟩ ?_
      rintro ActNode' ⟨⟩ hne
      exact absurd hfound hne
    · rw [if_neg hfound, forall_some_iff, forall_prop_of_true hfound]
      dsimp only
      rcases GetDeviceInfo_cases dev CtrlUrl with
        ⟨hinfo, hfits⟩ | ⟨hinfo, hfits, hcontrols⟩ | ⟨hinfo, hfits, hcontrols⟩
      · rw [hinfo]
        refine iff_of_false ?_ fun h ↦ hfits h.1
        rintro ⟨events, ⟨⟩, -⟩
      · rw [hinfo]
        exact iff_of_true ⟨_, rfl, served_unknown _⟩ ⟨hfits, fun h ↦ absurd h hcontrols⟩
      · rw [hinfo, and_iff_right hfits, forall_prop_of_true hcontrols,
          ← @served_actionEvents_iff answer InData]
        constructor
        · rintro ⟨events, ⟨⟩, hserved⟩
          exact hserved
        · intro hserved
          exact ⟨_, rfl, hserved⟩

/-- Whatever the name of an action is. -/
theorem action_iff (hnul : '\x00' ∉ InData) :
    (∃ events, (serveAction dev answer InData CtrlUrl XmlDoc).map
      ([.acquire .XmlDoc, .acquire .InStr] ++ ·) = some events ∧ Served events) ↔
    ActionServeable dev answer InData CtrlUrl XmlDoc := by
  have hname := GetActionName_eq InData (Buffer.alloc NAME_SIZE)
  rw [ActionServeable]
  cases hpart : namePart InData with
  | refused =>
    rw [hpart] at hname
    have hneg : (-1 : Int) < 0 := by decide
    rw [serveAction, hname]
    dsimp only
    rw [if_pos hneg]
    exact iff_of_true ⟨_, rfl, served_refused⟩ trivial
  | untouched =>
    rw [hpart] at hname
    have hpos : ¬ (1 : Int) < 0 := by decide
    have hmem : some '\x00' ∉ Buffer.alloc NAME_SIZE := by
      intro h
      cases List.eq_of_mem_replicate h
    rw [serveAction, hname]
    dsimp only
    rw [if_neg hpos, if_pos hmem]
    refine iff_of_false ?_ id
    rintro ⟨events, ⟨⟩, -⟩
  | endless =>
    rw [hpart] at hname
    rw [serveAction, hname]
    refine iff_of_false ?_ id
    rintro ⟨events, ⟨⟩, -⟩
  | copied ActName =>
    rw [hpart] at hname
    dsimp only at hname ⊢
    by_cases hfits : ActName.length < NAME_SIZE
    · obtain ⟨Name, hName, hholds⟩ := @Buffer.terminate_eq_some ActName (Buffer.alloc NAME_SIZE)
        (by rwa [Buffer.length_alloc]) (Nat.lt_trans hfits (by decide))
      rw [hName] at hname
      rw [and_iff_right hfits]
      exact named_iff (nul_notMem_namePart hnul hpart) hholds hname
    · rw [Buffer.terminate_eq_none (.inl (by
        rw [Buffer.length_alloc]
        exact not_lt.mp hfits))] at hname
      rw [serveAction, hname]
      refine iff_of_false ?_ fun h ↦ hfits h.1
      rintro ⟨events, ⟨⟩, -⟩

/-- The name of a variable is a text. -/
theorem nodeValue_eq_some_iff {VarNameNode : Content} {Temp : CString} :
    (firstChild VarNameNode).bind nodeValue = some Temp ↔
      firstChild VarNameNode = some (.text Temp) := by
  cases firstChild VarNameNode with
  | none => simp
  | some VarNode =>
    cases VarNode with
    | element => simp [nodeValue]
    | text => simp [nodeValue]

/-- What `GetVarName` gives: a failure, a fault, or the name of the variable. -/
theorem GetVarName_cases (XmlDoc : Document) :
    (GetVarName XmlDoc = some none ∧ ∀ StNode VarNameNode, actNode XmlDoc = some StNode →
        strstr (nodeName StNode) "QueryStateVariable".toList ≠ none →
        firstChild StNode ≠ some VarNameNode) ∨
      ∃ StNode VarNameNode, actNode XmlDoc = some StNode ∧
        strstr (nodeName StNode) "QueryStateVariable".toList ≠ none ∧
        firstChild StNode = some VarNameNode ∧
        GetVarName XmlDoc = ((firstChild VarNameNode).bind nodeValue).map some := by
  rw [GetVarName]
  cases hact : actNode XmlDoc with
  | none =>
    refine .inl ⟨rfl, ?_⟩
    rintro StNode VarNameNode ⟨⟩
  | some StNode =>
    dsimp only
    by_cases hname : strstr (nodeName StNode) "QueryStateVariable".toList = none
    · rw [if_pos hname]
      refine .inl ⟨rfl, ?_⟩
      rintro StNode' VarNameNode ⟨⟩ hne
      exact absurd hname hne
    · rw [if_neg hname]
      cases hchild : firstChild StNode with
      | none =>
        refine .inl ⟨rfl, ?_⟩
        rintro StNode' VarNameNode ⟨⟩ -
        rw [hchild]
        exact (Option.some_ne_none _).symm
      | some VarNameNode => exact .inr ⟨StNode, VarNameNode, rfl, hname, hchild, rfl⟩

theorem query_iff : (∃ events, (serveQuery dev answer InData CtrlUrl XmlDoc).map
      ([.acquire .XmlDoc, .acquire .InStr] ++ ·) = some events ∧ Served events) ↔
    QueryServeable dev InData CtrlUrl XmlDoc := by
  rw [serveQuery, QueryServeable]
  rcases GetVarName_cases XmlDoc with
    ⟨hvar, hnot⟩ | ⟨StNode, VarNameNode, hact, hname, hchild, hvar⟩
  · rw [hvar]
    refine iff_of_true ⟨_, rfl, served_refused⟩ ?_
    intro StNode VarNameNode hact hname hchild
    exact absurd hchild (hnot StNode VarNameNode hact hname)
  · have honly : ∀ P : Content → Prop, (∀ StNode' VarNameNode', actNode XmlDoc = some StNode' →
        strstr (nodeName StNode') "QueryStateVariable".toList ≠ none →
        firstChild StNode' = some VarNameNode' → P VarNameNode') ↔ P VarNameNode := by
      intro P
      refine ⟨fun h ↦ h StNode VarNameNode hact hname hchild, ?_⟩
      rintro h StNode' VarNameNode' hact' - hchild'
      rw [hact] at hact'
      cases hact'
      rw [hchild] at hchild'
      cases hchild'
      exact h
    rw [honly, hvar]
    simp only [← nodeValue_eq_some_iff]
    cases (firstChild VarNameNode).bind nodeValue with
    | none => simp
    | some Temp =>
      rw [exists_some_iff, Option.map_some]
      dsimp only
      by_cases hfits : fitsArray (BuffLen InData).toNat (some Temp)
      · rw [if_pos hfits, and_iff_right (fitsArray_some_iff.mp hfits)]
        rcases GetDeviceInfo_cases dev CtrlUrl with
          ⟨hinfo, hnames⟩ | ⟨hinfo, hnames, hcontrols⟩ | ⟨hinfo, hnames, hcontrols⟩
        · rw [hinfo]
          refine iff_of_false ?_ fun h ↦ hnames h.1
          rintro ⟨events, ⟨⟩, -⟩
        · rw [hinfo]
          exact iff_of_true ⟨_, rfl, served_unknownQuery⟩ ⟨hnames, fun h ↦ absurd h hcontrols⟩
        · rw [hinfo, and_iff_right hnames, forall_prop_of_true hcontrols]
          dsimp only
          by_cases hname : fitsArray NAME_SIZE (some Temp)
          · rw [if_pos hname]
            exact iff_of_true ⟨_, rfl, served_query answer InData⟩ (fitsArray_some_iff.mp hname)
          · rw [if_neg hname]
            refine iff_of_false ?_ fun h ↦ hname (fitsArray_some_iff.mpr h)
            rintro ⟨events, ⟨⟩, -⟩
      · rw [if_neg hfits]
        refine iff_of_false ?_ fun h ↦ hfits (fitsArray_some_iff.mpr h.1)
        rintro ⟨events, ⟨⟩, -⟩

end Upnp.Soap
