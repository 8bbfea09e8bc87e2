import Upnp.Gena.Event

/-!
# Subscription requests

`genaSubscriptionRequest`, `genaRenewRequest` and `genaUnsubscribeRequest` of
`gena_server.c`: what each checks, in its order, what it answers, and what it
does to the subscription list of the service that the request's path selects.
-/

namespace Upnp.Gena

open Upnp.Lib

/-- A header value: a token inside the buffer that holds the message, with the text behind it. -/
structure Token where
  text : CString
  rest : CString
deriving DecidableEq, Repr

/-- The text that starts at a token and runs to the end of the buffer. -/
def Token.buff (t : Token) : CString := t.text ++ t.rest

/-- What the handlers read of a parsed request. -/
structure HttpRequest where
  /-- `search_for_header`. -/
  header : CString → Option Token
  /-- The path and query of the request URI. -/
  pathquery : CString

/-- The answers to a subscription request. -/
inductive Response where
  /-- `412 Precondition Failed`, for a bad callback, type or SID. -/
  | BAD_CALLBACK
  /-- `400 Bad Request`. -/
  | BAD_REQUEST
  /-- `500 Internal Server Error`. -/
  | UNABLE_MEMORY
  /-- `404 Not Found`. -/
  | UNABLE_SERVICE_UNKNOWN
  /-- `200 OK` with nothing else. -/
  | HTTP_OK_CRLF
  /-- `respondOK`: `200 OK` with a SID and the granted time, negative for no limit. -/
  | respondOK (time_out : Int) (sid : CString)
deriving DecidableEq, Repr

/-- What the environment answers to a request. -/
structure RequestEnv where
  now : Int
  /-- The clock when a renewal computes the new time of expiry. -/
  later : Int
  /-- The allocation of the copy of the path. -/
  pathAllocOk : Bool
  /-- The allocation of the subscription. -/
  subAllocOk : Bool
  /-- `createURL_list` on the value of `CALLBACK`; `none` when memory runs out. -/
  createURLList : CString → Option (List CString)
  /-- `respondOK` succeeds. -/
  respondOk : Bool
  /-- The text of a generated UUID. -/
  uuid : CString

/-- The time-out a request asks for: `Second-` with a number, `Second-infinite`, or the default. -/
def requestedTimeout (timeout : Option Token) : Int :=
  match timeout with
  | none => DEFAULT_TIMEOUT
  | some t =>
    match if "Second-".toList.isPrefixOf t.buff then strtol 10 (t.buff.drop 7) else none with
    | some v => wrap32 v
    | none => if "Second-infinite".toList.isPrefixOf t.buff then -1 else DEFAULT_TIMEOUT

/-- The time-out a device grants, its limit applied when there is one. -/
def grantedTimeout (maxSubscriptionTimeOut : Int) (timeout : Option Token) : Int :=
  let time_out := requestedTimeout timeout
  if maxSubscriptionTimeOut ≠ -1 ∧ (time_out = -1 ∨ time_out > maxSubscriptionTimeOut) then
    maxSubscriptionTimeOut
  else time_out

/-- The time a subscription expires, `0` for never. -/
def expireTimeOf (now time_out : Int) : Int := if time_out > 0 then now + time_out else 0

/-- The value of a `NT` header that a subscription may carry. -/
def acceptedNT (callback : Token) : Bool :=
  strncaseEq callback.text "upnp:event".toList callback.text.length ||
    strncaseEq callback.text "upnp:propchange".toList callback.text.length

/-- The size of the SID in `genaUnsubscribeRequest` and `genaRenewRequest`. -/
def SID_SIZE : Nat := 41

variable (samePath : CString → CString → Bool)

/-- The service that the path of a request selects. -/
def requestedService (s : State) (request : HttpRequest) :
    Option (HandleInfo × Loc × ServiceInfo) :=
  match s.getDeviceHandleInfo with
  | none => none
  | some (h, info) =>
    (findServiceEventURLPath samePath info.serviceTable request.pathquery).bind fun i ↦
      info.serviceTable[i]?.map fun svc ↦ (info, (h, i), svc)

/-- `genaSubscriptionRequest`, up to the callback into the application. -/
def genaSubscriptionRequest (env : RequestEnv) (s : State) (request : HttpRequest) :
    State × Response :=
  match request.header "NT".toList with
  | none => (s, .BAD_CALLBACK)
  | some nt =>
    if !acceptedNT nt then (s, .BAD_CALLBACK)
    else if (request.header "SID".toList).isSome then (s, .BAD_REQUEST)
    else if !env.pathAllocOk then (s, .UNABLE_MEMORY)
    else
      match requestedService samePath s request with
      | none => (s, .UNABLE_SERVICE_UNKNOWN)
      | some (info, l, svc) =>
        if !svc.active then (s, .UNABLE_SERVICE_UNKNOWN)
        else if info.maxSubscriptions ≠ -1 ∧ svc.totalSubscriptions ≥ info.maxSubscriptions then
          (s, .UNABLE_MEMORY)
        else if !env.subAllocOk then (s, .UNABLE_MEMORY)
        else
          match (request.header "CALLBACK".toList).map fun t ↦ env.createURLList t.text with
          | none => (s, .BAD_CALLBACK)
          | some none => (s, .UNABLE_MEMORY)
          | some (some []) => (s, .BAD_CALLBACK)
          | some (some urls) =>
            let time_out :=
              grantedTimeout info.maxSubscriptionTimeOut (request.header "TIMEOUT".toList)
            let sub : Subscription :=
              { sid := "uuid:".toList ++ env.uuid, eventKey := 0, toSendEventKey := 0,
                expireTime := expireTimeOf env.now time_out, active := false,
                deliveryURLs := urls }
            let s := { s with sids := sub.sid :: s.sids }
            if !env.respondOk then (s, .respondOK time_out sub.sid)
            else
              (s.setService l { svc with
                subscriptionList := sub :: svc.subscriptionList
                totalSubscriptions := svc.totalSubscriptions + 1 }, .respondOK time_out sub.sid)

/-- The checks that renewals and cancellations share, with the SID they name: the text that the
local buffer holds after the value was copied to its start; `uninit` is what the buffer held
behind it, up to a NUL. -/
def requestedSID (env : RequestEnv) (request : HttpRequest) (uninit : CString) :
    Except Response CString :=
  if (request.header "CALLBACK".toList).isSome || (request.header "NT".toList).isSome then
    .error .BAD_REQUEST
  else
    match request.header "SID".toList with
    | none => .error .BAD_CALLBACK
    | some t =>
      if t.text.length > SID_SIZE then .error .BAD_CALLBACK
      else if !env.pathAllocOk then .error .UNABLE_MEMORY
      else .ok (t.text ++ uninit.take (SID_SIZE - t.text.length))

/-- `genaRenewRequest`. -/
def genaRenewRequest (env : RequestEnv) (s : State) (request : HttpRequest) (uninit : CString) :
    State × Response :=
  match requestedSID env request uninit with
  | .error r => (s, r)
  | .ok sid =>
    match requestedService samePath s request with
    | none => (s, .BAD_CALLBACK)
    | some (info, l, svc) =>
      if !svc.active then (s, .BAD_CALLBACK)
      else
        match getSubscriptionSID env.now sid svc with
        | (svc', none) => (s.setService l svc', .BAD_CALLBACK)
        | (svc', some _) =>
          if info.maxSubscriptions ≠ -1 ∧ svc'.totalSubscriptions > info.maxSubscriptions then
            (s.setService l (removeSubscriptionSID sid svc'), .UNABLE_MEMORY)
          else
            let time_out :=
              grantedTimeout info.maxSubscriptionTimeOut (request.header "TIMEOUT".toList)
            let svc' := svc'.modifySID sid fun sub ↦
              { sub with expireTime := expireTimeOf env.later time_out }
            let svc' := if !env.respondOk then removeSubscriptionSID sid svc' else svc'
            (s.setService l svc', .respondOK time_out sid)

/-- `genaUnsubscribeRequest`. -/
def genaUnsubscribeRequest (env : RequestEnv) (s : State) (request : HttpRequest)
    (uninit : CString) : State × Response :=
  match requestedSID env request uninit with
  | .error r => (s, r)
  | .ok sid =>
    match requestedService samePath s request with
    | none => (s, .BAD_CALLBACK)
    | some (_, l, svc) =>
      if !svc.active then (s, .BAD_CALLBACK)
      else
        match getSubscriptionSID env.now sid svc with
        | (svc', none) => (s.setService l svc', .BAD_CALLBACK)
        | (svc', some _) => (s.setService l (removeSubscriptionSID sid svc'), .HTTP_OK_CRLF)

end Upnp.Gena
