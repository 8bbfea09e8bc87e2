import Upnp.Soap.EventPacket

/-!
# What a device is asked and what it answers

`ProcessSoapEventPacket` with the values that it hands over: the parameter of the callback, and the
reply that is made of what the application leaves in it.
-/

namespace Upnp.Soap

open Upnp.Lib Upnp.Dom Upnp.Xml Upnp.ServiceTable

/-- The parameter of a callback: `Upnp_Action_Request` or `Upnp_State_Var_Request`. -/
inductive Call where
  | action (DevUDN ServiceID ActionName : CString) (ActionRequest : Option Document)
  | query (DevUDN ServiceID StateVarName : CString)

/-- What the application leaves in the parameter: a code that is an `int`, a text in an array, and
the result. -/
structure Answered where
  ErrCode : { code : Int // -2147483648 ≤ code ∧ code ≤ 2147483647 }
  ErrStr : { text : CString // text.length < LINE_SIZE }
  ActionResult : Option Document
  CurrentVal : Option CString

/-- How a request is served: the callback, and the reply that is written to the socket. -/
structure Serving where
  call : Option Call
  reply : Option Reply

/-- `GetDeviceInfo`, the copies to `DevUDN` and `ServiceID`; `none` when a name is not there or does
not fit, `some none` when no service is found. -/
def deviceInfo (env : Envs) (ServiceTable : Option (Option (List ServiceInfo)))
    (CtrlUrl : CString) : Option (Option (CString × CString)) :=
  match ServiceTable with
  | none => some none
  | some table =>
    match findServiceControlURLPath env table CtrlUrl with
    | none => none
    | some l =>
      match l.found.bind ((table.getD [])[·]?) with
      | none => some none
      | some SInfo =>
        if fitsArray NAME_SIZE SInfo.serviceId && fitsArray NAME_SIZE SInfo.UDN then
          some (some (SInfo.UDN.getD [], SInfo.serviceId.getD []))
        else none

/-- `CreateControlFailure` with a code and a text of the device itself. -/
def refusal (code : { code : Int // -2147483648 ≤ code ∧ code ≤ 2147483647 })
    (text : { text : CString // text.length < LINE_SIZE }) : Serving :=
  ⟨none, some (.failure code text)⟩

def invalidAction : { code : Int // -2147483648 ≤ code ∧ code ≤ 2147483647 } :=
  ⟨UPNP_E_INVALID_ACTION, by decide⟩

def invalidURL : { code : Int // -2147483648 ≤ code ∧ code ≤ 2147483647 } :=
  ⟨UPNP_E_INVALID_URL, by decide⟩

def invalidActionName : { text : CString // text.length < LINE_SIZE } :=
  ⟨"Invalid action name!!!!!".toList, by decide⟩

def invalidControlURL : { text : CString // text.length < LINE_SIZE } :=
  ⟨"Invalid control URL!!!!!".toList, by decide⟩

def invalidXML : { text : CString // text.length < LINE_SIZE } :=
  ⟨"Invalid XML!!!!!".toList, by decide⟩

def noControlURL : { text : CString // text.length < LINE_SIZE } :=
  ⟨"Invalid control URL !!!!!".toList, by decide⟩

/-- The error string of the application, if it has more than one character. -/
def Answered.errorText (a : Answered) (text : { text : CString // text.length < LINE_SIZE }) :
    { text : CString // text.length < LINE_SIZE } :=
  if 1 < a.ErrStr.1.length then a.ErrStr else text

def invalidRequest : { text : CString // text.length < LINE_SIZE } :=
  ⟨"Invalid Request!!!!!".toList, by decide⟩

def unknownError : { text : CString // text.length < LINE_SIZE } :=
  ⟨"Unknown Error !!!!!!!!!!!".toList, by decide⟩

/-- The result of an action that succeeded. -/
def Answered.result (a : Answered) : Option Document :=
  if a.ErrCode.1 = UPNP_E_SUCCESS then a.ActionResult else none

/-- The reply to an action: a result that cannot be printed is not replied. -/
def Answered.actionReply (a : Answered) : Option Reply :=
  match a.result with
  | some ActionResult => (printDocument ActionResult).map .action
  | none => some (.failure a.ErrCode (a.errorText invalidRequest))

/-- The reply to a query. -/
def Answered.valueReply (a : Answered) : Reply :=
  if a.ErrCode.1 = UPNP_E_SUCCESS then .value a.CurrentVal
  else .failure a.ErrCode (a.errorText unknownError)

section

variable (dev : Device) (app : Call → Answered)

/-- The part for an action. -/
def answerAction (InData CtrlUrl : CString) (XmlDoc : Document) : Option Serving :=
  match GetActionName InData (Buffer.alloc NAME_SIZE) with
  | none => none
  | some (ret, Name) =>
    if ret < 0 then
      some (refusal invalidAction invalidActionName)
    -- as for the events, the array is not initialised
    else if Name.contains (some '\x00') = false then none
    else
      match GetActionNode dev.parse XmlDoc Name.str with
      | (false, _) => some (refusal invalidAction invalidControlURL)
      | (true, RespNode) =>
        match deviceInfo dev.env dev.ServiceTable CtrlUrl with
        | none => none
        | some none => some (refusal invalidAction invalidControlURL)
        | some (some (DevUDN, ServiceID)) =>
          let call := .action DevUDN ServiceID Name.str RespNode
          some ⟨some call, (app call).actionReply⟩

/-- The part for a query. -/
def answerQuery (InData CtrlUrl : CString) (XmlDoc : Document) : Option Serving :=
  match GetVarName XmlDoc with
  | none => none
  | some none => some (refusal invalidURL invalidXML)
  | some (some Temp) =>
    if fitsArray (BuffLen InData).toNat (some Temp) then
      match deviceInfo dev.env dev.ServiceTable CtrlUrl with
      | none => none
      | some none => some (refusal invalidURL invalidControlURL)
      | some (some (DevUDN, ServiceID)) =>
        if fitsArray NAME_SIZE (some Temp) then
          let call := .query DevUDN ServiceID Temp
          some ⟨some call, some (app call).valueReply⟩
        else none
    else none

/-- `ProcessSoapEventPacket`: whom it calls back, and what it writes. -/
def answerRequest (InData : CString) : Option Serving :=
  match replyDocument dev.parse InData with
  | none => some ⟨none, none⟩
  | some XmlDoc =>
    match GetCtrlUrl InData (Buffer.alloc LINE_SIZE) with
    | none => none
    | some (ret, Url) =>
      if 0 < ret then
        if strstrcase InData "QueryStateVariable".toList = none then
          answerAction dev app InData Url.str XmlDoc
        else answerQuery dev app InData Url.str XmlDoc
      else some (refusal invalidURL noControlURL)

end

/-! ## The callbacks among the events -/

/-- The event of a callback. -/
def Call.event : Call → Event
  | action _ _ _ ActionRequest => .UPNP_CONTROL_ACTION_REQUEST ActionRequest
  | query .. => .UPNP_CONTROL_GET_VAR_REQUEST

variable {dev : Device} {app : Call → Answered} {answer : Answer} {InData CtrlUrl : CString}
  {XmlDoc : Document}

/-- The callbacks of a run. -/
def calls (events : List Event) : List Event := events.filter Event.isCallback

theorem calls_append (events events' : List Event) :
    calls (events ++ events') = calls events ++ calls events' := List.filter_append ..

theorem deviceInfo_isSome (dev : Device) (CtrlUrl : CString) :
    (deviceInfo dev.env dev.ServiceTable CtrlUrl).map Option.isSome = GetDeviceInfo dev CtrlUrl := by
  unfold deviceInfo GetDeviceInfo
  cases dev.ServiceTable with
  | none => rfl
  | some table =>
    dsimp only
    cases findServiceControlURLPath dev.env table CtrlUrl with
    | none => rfl
    | some l =>
      dsimp only
      cases l.found.bind ((table.getD [])[·]?) with
      | none => rfl
      | some SInfo =>
        dsimp only
        cases fitsArray NAME_SIZE SInfo.serviceId && fitsArray NAME_SIZE SInfo.UDN <;> rfl

theorem calls_growReply (InData text : CString) : calls (growReply InData text) = [] := by
  rcases growReply_cases InData text with h | h <;> rw [h] <;> rfl

theorem calls_freeSome {α : Type} (r : Held) (p : Option α) : calls (freeSome r p) = [] := by
  cases p <;> rfl

theorem calls_acquireSome {α : Type} (r : Held) (p : Option α) : calls (acquireSome r p) = [] := by
  cases p <;> rfl

theorem calls_sendResult (answer : Answer) (InData : CString) :
    calls (sendResult answer InData) = [] := by
  rcases sendResult_cases answer InData with ⟨-, h⟩ | ⟨-, -, -, h⟩ | ⟨-, text, -, -, h⟩
  · rw [h]
    rfl
  · rw [h]
    rfl
  · rw [h, calls_append, calls_growReply]
    rfl

theorem calls_sendValue (answer : Answer) (InData : CString) :
    calls (sendValue answer InData) = [] := by
  rw [sendValue]
  cases answer.CurrentVal with
  | none => rfl
  | some CurrentVal =>
    dsimp only
    split
    · exact calls_growReply InData CurrentVal
    · rfl

theorem contains_eq_false_iff {Name : Buffer} :
    Name.contains (some '\x00') = false ↔ some '\x00' ∉ Name := by
  rw [← Bool.not_eq_true, List.contains_iff_mem]

theorem calls_serveAction : (serveAction dev answer InData CtrlUrl XmlDoc).map calls =
    (answerAction dev app InData CtrlUrl XmlDoc).map fun s ↦ (s.call.map Call.event).toList := by
  have hinfo := deviceInfo_isSome dev CtrlUrl
  rw [serveAction, answerAction]
  cases GetActionName InData (Buffer.alloc NAME_SIZE) with
  | none => rfl
  | some r =>
    dsimp only
    by_cases hneg : r.1 < 0
    · rw [if_pos hneg, if_pos hneg]
      rfl
    · rw [if_neg hneg, if_neg hneg]
      by_cases hname : some '\x00' ∉ r.2
      · rw [if_pos hname, if_pos (contains_eq_false_iff.mpr hname)]
        rfl
      · rw [if_neg hname, if_neg (mt contains_eq_false_iff.mp hname)]
        obtain ⟨found, RespNode⟩ := GetActionNode dev.parse XmlDoc r.2.str
        cases found with
        | false => rfl
        | true =>
          rw [← hinfo]
          dsimp only
          cases deviceInfo dev.env dev.ServiceTable CtrlUrl with
          | none => rfl
          | some names =>
            cases names with
            | none =>
              refine congrArg some ?_
              simp only [calls_append, calls_acquireSome, calls_freeSome]
              rfl
            | some names =>
              refine congrArg some ?_
              simp only [calls_append, calls_acquireSome, calls_freeSome, calls_sendResult]
              rfl

theorem calls_serveQuery : (serveQuery dev answer InData CtrlUrl XmlDoc).map calls =
    (answerQuery dev app InData CtrlUrl XmlDoc).map fun s ↦ (s.call.map Call.event).toList := by
  have hinfo := deviceInfo_isSome dev CtrlUrl
  rw [serveQuery, answerQuery]
  cases GetVarName XmlDoc with
  | none => rfl
  | some name =>
    cases name with
    | none => rfl
    | some Temp =>
      dsimp only
      split
      · rw [← hinfo]
        cases deviceInfo dev.env dev.ServiceTable CtrlUrl with
        | none => rfl
        | some names =>
          cases names with
          | none => rfl
          | some names =>
            dsimp only [Option.map_some, Option.isSome]
            split
            · refine congrArg some ?_
              simp only [calls_append, calls_sendValue]
              rfl
            · rfl
      · rfl

/-- Whatever the application leaves, the callbacks among the events are the one that is told here. -/
theorem calls_ProcessSoapEventPacket (dev : Device) (app : Call → Answered) (answer : Answer)
    (InData : CString) : (ProcessSoapEventPacket dev answer InData).map calls =
      (answerRequest dev app InData).map fun s ↦ (s.call.map Call.event).toList := by
  rw [ProcessSoapEventPacket, answerRequest]
  cases replyDocument dev.parse InData with
  | none => rfl
  | some XmlDoc =>
    dsimp only
    cases GetCtrlUrl InData (Buffer.alloc LINE_SIZE) with
    | none => rfl
    | some r =>
      dsimp only
      split
      · split
        · rw [← @calls_serveAction dev app answer, Option.map_map]
          rfl
        · rw [← @calls_serveQuery dev app answer, Option.map_map]
          rfl
      · rfl

end Upnp.Soap
