import Mathlib.Data.Multiset.AddSub
import Upnp.Lib.CString
import Upnp.Timer.TimerThread

/-!
# Auto-renewal of a control point's subscriptions

The locked sections of `gena_client.c` that touch `ClientSubList` and the
auto-renew events in the global timer: subscribing, the two halves of a renewal
around its network exchange, and unsubscribing.  The control point stays
registered, so every call finds its handle.  What a peer answers and what
allocations answer is part of a step's label.

A renewal that the timer started is a call of `genaRenewSubscription` like any
other.
-/

namespace Upnp.GenaClient

open Upnp.Lib Upnp.Timer

/-- `AUTO_RENEW_TIME` -/
def AUTO_RENEW_TIME : Int := 35

/-- `UPNP_INFINITE` -/
def UPNP_INFINITE : Int := -1

/-- `NAME_SIZE` -/
def NAME_SIZE : Nat := 100

/-- The callbacks that are scheduled on the global timer. -/
inductive Callback where
  | GenaAutoRenewSubscription
  | AutoAdvertise
  deriving DecidableEq

/-- The `Event` of an `upnp_timeout`. -/
inductive Timeout where
  /-- `Upnp_Event_Subscribe`, of `GenaAutoRenewSubscription`. -/
  | subscribe (Sid PublisherUrl : CString) (TimeOut : Int)
  /-- The duration, of `AutoAdvertise`. -/
  | advertise (mx : Int)
  deriving DecidableEq

/-- `client_subscription`. -/
structure ClientSubscription where
  sid : CString
  ActualSID : CString
  EventURL : CString
  RenewEventId : Int
  deriving DecidableEq

/-- The control point: its subscriptions, the global timer, and the renewals under way. -/
structure State where
  ClientSubList : List ClientSubscription
  timer : TimerThreadStruct Callback Timeout
  /-- The SIDs of renewals in their network exchange. -/
  renewing : Multiset CString
  /-- The SIDs generated so far. -/
  sids : List CString
  /-- How many events were scheduled. -/
  scheduled : Nat

/-- What the allocations of a call answer. -/
structure AllocEnv where
  /-- `ActualSID`. -/
  sidOk : Bool
  /-- `EventURL`, of `genaSubscribe`. -/
  urlOk : Bool
  /-- `newSubscription`, of `genaSubscribe`. -/
  subOk : Bool
  /-- `RenewEventStruct`. -/
  structOk : Bool
  /-- `RenewEvent`. -/
  eventOk : Bool
  /-- `new_event`, of `ScheduleTimerEvent`. -/
  timerOk : Bool

/-- The peer's response, as far as it is read. -/
structure Reply where
  /-- `transferHTTP` succeeded. -/
  transferOk : Bool
  /-- `parse_http_response` succeeded. -/
  parseOk : Bool
  /-- The status code starts with 200. -/
  status200 : Bool
  SID : Option CString
  /-- The `TIMEOUT` header, and in it the number behind `Second-`, or `-1` for `infinite`. -/
  TIMEOUT : Option (Option Int)

/-- The SID and duration of a response that grants the subscription. -/
def Reply.granted (r : Reply) : Option (CString × Int) :=
  if r.transferOk && r.parseOk && r.status200 then
    match r.SID, r.TIMEOUT with
    | some sid, some (some TimeOut) => some (sid, TimeOut)
    | _, _ => none
  else none

/-- What `ScheduleGenaAutoRenew` does. -/
inductive Scheduling where
  /-- Success without an event: the subscription does not expire. -/
  | infinite
  | failed
  | scheduled (eventId : Int)

/-- The allocations of `ScheduleGenaAutoRenew` and of the timer succeed. -/
def AllocEnv.renewOk (env : AllocEnv) : Bool := env.structOk && env.eventOk && env.timerOk

/-- `ScheduleGenaAutoRenew`, at the clock value given. -/
def ScheduleGenaAutoRenew (env : AllocEnv) (now TimeOut : Int) (sub : ClientSubscription)
    (serial : Nat) (timer : TimerThreadStruct Callback Timeout) :
    TimerThreadStruct Callback Timeout × Scheduling :=
  if TimeOut = UPNP_INFINITE then (timer, .infinite)
  else if !env.structOk then (timer, .failed)
  else if !env.eventOk then (timer, .failed)
  else
    let (timer, result) := ScheduleTimerEvent env.timerOk now (TimeOut - AUTO_RENEW_TIME)
      .GenaAutoRenewSubscription
      (.subscribe sub.sid (sub.EventURL.take (NAME_SIZE - 1)) TimeOut) serial timer
    match result with
    | .success eventId => (timer, .scheduled eventId)
    | _ => (timer, .failed)

/-- `GetClientSubClientSID`. -/
def GetClientSubClientSID (head : List ClientSubscription) (sid : CString) :
    Option ClientSubscription :=
  head.find? fun sub ↦ sub.sid = sid

/-- A write through the pointer `GetClientSubClientSID` returned. -/
def modifySub (sid : CString) (f : ClientSubscription → ClientSubscription) :
    List ClientSubscription → List ClientSubscription
  | [] => []
  | sub :: next => if sub.sid = sid then f sub :: next else sub :: modifySub sid f next

/-- `RemoveClientSubClientSID`, with `free_client_subscription`. -/
def State.removeClientSubClientSID (s : State) (sid : CString) : State :=
  match GetClientSubClientSID s.ClientSubList sid with
  | none => s
  | some finger =>
    { s with
      ClientSubList := s.ClientSubList.eraseP fun sub ↦ sub.sid = sid
      timer := (RemoveTimerEvent finger.RenewEventId s.timer).1 }

/-- The last section of `genaSubscribe`; `out_sid` is the SID generated. -/
def State.genaSubscribe (env : AllocEnv) (now : Int) (reply : Reply)
    (PublisherURL out_sid : CString) (s : State) : State :=
  let s := { s with sids := out_sid :: s.sids }
  match reply.granted with
  | none => s
  | some (ActualSID, TimeOut) =>
    if env.sidOk && env.urlOk && env.subOk then
      let newSubscription : ClientSubscription := ⟨out_sid, ActualSID, PublisherURL, -1⟩
      match ScheduleGenaAutoRenew env now TimeOut newSubscription s.scheduled s.timer with
      -- freed, but not taken out of the list again
      | (_, .failed) => { s with ClientSubList := newSubscription :: s.ClientSubList }
      | (timer, .infinite) =>
        { s with ClientSubList := newSubscription :: s.ClientSubList, timer := timer }
      | (timer, .scheduled eventId) =>
        { s with
          ClientSubList := { newSubscription with RenewEventId := eventId } :: s.ClientSubList
          timer := timer
          scheduled := s.scheduled + 1 }
    else s

/-- The first section of `genaRenewSubscription`: the old event is removed and the lock dropped
for the exchange, unless the copy fails. -/
def State.renewBegin (copyOk : Bool) (in_sid : CString) (s : State) : State :=
  match GetClientSubClientSID s.ClientSubList in_sid with
  | none => s
  | some sub =>
    { s with
      timer := (RemoveTimerEvent sub.RenewEventId s.timer).1
      ClientSubList := modifySub in_sid (fun sub ↦ { sub with RenewEventId := -1 }) s.ClientSubList
      renewing := if copyOk then in_sid ::ₘ s.renewing else s.renewing }

/-- The last section of `genaRenewSubscription`. -/
def State.renewEnd (env : AllocEnv) (now : Int) (reply : Reply) (in_sid : CString) (s : State) :
    State :=
  let s := { s with renewing := s.renewing.erase in_sid }
  if !reply.transferOk then s.removeClientSubClientSID in_sid
  else
    match GetClientSubClientSID s.ClientSubList in_sid, reply.granted with
    | none, _ => s
    | some _, none => s.removeClientSubClientSID in_sid
    | some sub, some (ActualSID, TimeOut) =>
      if env.sidOk then
        match ScheduleGenaAutoRenew env now TimeOut sub s.scheduled s.timer with
        | (_, .failed) => s.removeClientSubClientSID in_sid
        | (timer, .infinite) =>
          { s with
            timer := timer
            ClientSubList :=
              modifySub in_sid (fun sub ↦ { sub with ActualSID := ActualSID }) s.ClientSubList }
        | (timer, .scheduled eventId) =>
          { s with
            timer := timer
            ClientSubList := modifySub in_sid
              (fun sub ↦ { sub with ActualSID := ActualSID, RenewEventId := eventId })
              s.ClientSubList
            scheduled := s.scheduled + 1 }
      else s.removeClientSubClientSID in_sid

/-- The actions of the control point and its timer. -/
inductive Action where
  | subscribe (env : AllocEnv) (now : Int) (reply : Reply) (PublisherURL out_sid : CString)
  | renewBegin (copyOk : Bool) (in_sid : CString)
  | renewEnd (env : AllocEnv) (now : Int) (reply : Reply) (in_sid : CString)
  /-- `genaUnSubscribe`. -/
  | unsubscribe (in_sid : CString)
  /-- A pass of the timer thread. -/
  | expire (current_time : Int)
  /-- `UpnpSendAdvertisement` schedules its event. -/
  | advertise (mallocOk : Bool) (now TimeOut mx : Int)

/-- One action; `none` when it is not enabled.  A SID that is generated differs from all before. -/
def step (s : State) : Action → Option State
  | .subscribe env now reply PublisherURL out_sid =>
    if out_sid ∈ s.sids then none else some (s.genaSubscribe env now reply PublisherURL out_sid)
  | .renewBegin copyOk in_sid => some (s.renewBegin copyOk in_sid)
  | .renewEnd env now reply in_sid =>
    if in_sid ∈ s.renewing then some (s.renewEnd env now reply in_sid) else none
  | .unsubscribe in_sid => some (s.removeClientSubClientSID in_sid)
  | .expire current_time => some { s with timer := (Timer.pass current_time s.timer).1 }
  | .advertise mallocOk now TimeOut mx =>
    some { s with
      timer := (ScheduleTimerEvent mallocOk now TimeOut .AutoAdvertise (.advertise mx) s.scheduled
        s.timer).1
      scheduled := s.scheduled + 1 }

/-- A control point that was just registered. -/
def registered : State := ⟨[], InitTimerThread, 0, [], 0⟩

/-- The control point. -/
def machine : Machine State Action where
  init s := s = registered
  step := step

end Upnp.GenaClient
