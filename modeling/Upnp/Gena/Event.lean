import Mathlib.Data.Multiset.AddSub
import Upnp.Gena.ServiceTable
import Upnp.Lib.Machine

/-!
# The device side of eventing

`gena_server.c` as a machine.  A state holds the handle table, the thread pool's
jobs, the shared reference counts of the broadcasts and the history of the SIDs
handed out and of the sends begun.  A step is one section of code under
`HandleLock`, or the thread pool handing a queued job to a worker; its label
carries what the environment decides: the answers of the clock, of `malloc`, of
`tpool_Schedule`, of the network.
-/

namespace Upnp.Gena

open Upnp.Lib

/-! ## Data -/

def UPNP_E_SUCCESS : Int := 0
def UPNP_E_OUTOF_MEMORY : Int := -104
def UPNP_E_INVALID_PARAM : Int := -101
def GENA_SUCCESS : Int := UPNP_E_SUCCESS
def GENA_E_BAD_HANDLE : Int := -100
def GENA_E_BAD_SERVICE : Int := -111
def GENA_E_BAD_SID : Int := -109
def GENA_E_NOTIFY_UNACCEPTED_REMOVE_SUB : Int := -9
def DEFAULT_TIMEOUT : Int := 1801
def NUM_HANDLE : Int := 200

/-- `notify_thread_struct`: one event for one subscription. -/
structure NotifyThreadStruct where
  headers : CString
  propertySet : CString
  servId : CString
  udn : CString
  sid : CString
  eventKey : Int
  /-- The address of the counter that the jobs of one broadcast share. -/
  referenceCount : Nat
  deviceHandle : Int
deriving DecidableEq, Repr

/-- Where a job of `genaNotifyThread` stands. -/
inductive Phase where
  /-- In the queue of the thread pool. -/
  | queued
  /-- Taken by a worker that has not passed its first locked section. -/
  | running
  /-- Between the key check and the update of `ToSendEventKey`, with its copy of the
  subscription. -/
  | sending (sub_copy : Subscription)
deriving DecidableEq, Repr

/-- A job of the thread pool. -/
structure Job where
  thread : NotifyThreadStruct
  phase : Phase
deriving DecidableEq, Repr

/-- `Upnp_Handle_Type`, for a handle in use. -/
inductive HandleType where
  | HND_CLIENT
  | HND_DEVICE
deriving DecidableEq, Repr

/-- `Handle_Info`: the fields that eventing reads. -/
structure HandleInfo where
  hType : HandleType
  serviceTable : List ServiceInfo
  maxSubscriptions : Int
  maxSubscriptionTimeOut : Int
deriving DecidableEq, Repr

/-- The state behind `HandleLock`, and the thread pool. -/
structure State where
  handleTable : Int → Option HandleInfo
  pool : Multiset Job
  /-- The reference counts by address; `none` for memory that is free. -/
  counters : Nat → Option Int
  nextCounter : Nat
  /-- The SIDs generated so far. -/
  sids : List CString
  /-- The sends begun so far, each with the key it carries as `SEQ`. -/
  sends : List (CString × Int)

/-- A service of a registered device: the device's handle and the service's position. -/
abbrev Loc := Int × Nat

namespace State

/-- `GetHandleInfo`, for a caller that asks for a device. -/
def device (s : State) (h : Int) : Option HandleInfo :=
  if h < 1 ∨ h ≥ NUM_HANDLE then none
  else (s.handleTable h).filter (·.hType = .HND_DEVICE)

/-- `GetDeviceHandleInfo`. -/
def getDeviceHandleInfo (s : State) : Option (Int × HandleInfo) :=
  match s.device 1 with
  | some info => some (1, info)
  | none => (s.device 2).map fun info ↦ (2, info)

/-- The service at a location. -/
def service (s : State) (l : Loc) : Option ServiceInfo :=
  (s.device l.1).bind fun info ↦ info.serviceTable[l.2]?

/-- Writes to the service at a location. -/
def setService (s : State) (l : Loc) (svc : ServiceInfo) : State :=
  { s with
    handleTable := fun h ↦
      if h = l.1 then
        (s.handleTable h).map fun info ↦
          { info with serviceTable := info.serviceTable.set l.2 svc }
      else s.handleTable h }

/-- `GetHandleInfo` followed by `FindServiceId`. -/
def lookup (s : State) (h : Int) (servId udn : CString) : Option (Loc × ServiceInfo) :=
  (s.device h).bind fun info ↦ (findServiceId info.serviceTable servId udn).bind fun i ↦
    info.serviceTable[i]?.map fun svc ↦ ((h, i), svc)

end State

/-! ## Messages -/

/-- `GeneratePropertySet`. -/
def generatePropertySet (vars : List (CString × CString)) : CString :=
  "<e:propertyset xmlns:e=\"urn:schemas-upnp-org:event-1-0\">\n".toList ++
    vars.flatMap (fun nv ↦ "<e:property>\n<".toList ++ nv.1 ++ ">".toList ++ nv.2 ++
      "</".toList ++ nv.1 ++ ">\n</e:property>\n".toList) ++
    "</e:propertyset>\n\n".toList

/-- The headers of an event message; its body is sent with the terminating NUL. -/
def notifyHeaders (propertySet : CString) : CString :=
  "CONTENT-TYPE: text/xml\r\nCONTENT-LENGTH: ".toList ++ decimal (propertySet.length + 1) ++
    "\r\nNT: upnp:event\r\nNTS: upnp:propchange\r\n".toList

/-- The property set in a printed document, `UPNP_E_INVALID_PARAM` when there is none. -/
def documentPropertySet (printed : Option CString) : Except Int CString :=
  match printed.bind (strstr · "<e:propertyset".toList) with
  | some ps => .ok ps
  | none => .error UPNP_E_INVALID_PARAM

/-! ## Keys -/

/-- The increment of an event key, back to `1` on overflow. -/
def bumpKey (k : Int) : Int :=
  let k' := wrap32 (k + 1)
  if k' < 0 then 1 else k'

/-! ## `genaNotifyThread` -/

/-- `free_notify_struct`: the last job of a broadcast frees what the jobs share. -/
def freeNotifyStruct (s : State) (input : NotifyThreadStruct) : State :=
  match s.counters input.referenceCount with
  | none => s
  | some n =>
    { s with
      counters := Function.update s.counters input.referenceCount
        (if n - 1 = 0 then none else some (n - 1)) }

/-- What the environment answers in the first section of `genaNotifyThread`. -/
structure CheckEnv where
  now : Int
  /-- `copy_subscription` succeeds. -/
  copyOk : Bool
  /-- The result of `tpool_Schedule` for a job that is not next. -/
  schedule : Int
deriving DecidableEq, Repr

/-- The first locked section of `genaNotifyThread`, with the phase that the job goes to; `none`
for a job that ends here. -/
def notifyThreadCheck (env : CheckEnv) (s : State) (input : NotifyThreadStruct) :
    State × Option Phase :=
  match s.lookup input.deviceHandle input.servId input.udn with
  | none => (freeNotifyStruct s input, none)
  | some (l, svc) =>
    if !svc.active then (freeNotifyStruct s input, none)
    else
      match getSubscriptionSID env.now input.sid svc with
      | (svc', none) => (freeNotifyStruct (s.setService l svc') input, none)
      | (svc', some sub) =>
        let s := s.setService l svc'
        if !env.copyOk then (freeNotifyStruct s input, none)
        else if input.eventKey ≠ sub.toSendEventKey then
          -- the result of `tpool_Schedule` is not looked at: on failure the event is gone
          (s, if env.schedule = 0 then some .queued else none)
        else ({ s with sends := s.sends ++ [(input.sid, sub.toSendEventKey)] }, some (.sending sub))

/-- The second locked section of `genaNotifyThread`, after `genaNotify` returned
`return_code`. -/
def notifyThreadFinish (now return_code : Int) (s : State) (input : NotifyThreadStruct) : State :=
  match s.lookup input.deviceHandle input.servId input.udn with
  | none => freeNotifyStruct s input
  | some (l, svc) =>
    if !svc.active then freeNotifyStruct s input
    else
      match getSubscriptionSID now input.sid svc with
      | (svc', none) => freeNotifyStruct (s.setService l svc') input
      | (svc', some _) =>
        let svc'' := svc'.modifySID input.sid fun sub ↦
          { sub with toSendEventKey := bumpKey sub.toSendEventKey }
        let svc'' := if return_code = GENA_E_NOTIFY_UNACCEPTED_REMOVE_SUB then
          removeSubscriptionSID input.sid svc'' else svc''
        freeNotifyStruct (s.setService l svc'') input

/-! ## `genaInitNotify` -/

/-- What the environment answers to `genaInitNotify`. -/
structure InitEnv where
  now : Int
  /-- The allocations before the lock. -/
  preAllocOk : Bool
  /-- The allocation of the property set. -/
  propAllocOk : Bool
  /-- The allocation of the headers. -/
  headersAllocOk : Bool
  /-- The allocation of the thread structure. -/
  structAllocOk : Bool
  /-- The result of `tpool_Schedule`. -/
  schedule : Int
deriving DecidableEq, Repr

/-- The error code of a failed `tpool_Schedule`. -/
def scheduleError (rc : Int) : Int := if rc = -1 then UPNP_E_OUTOF_MEMORY else rc

/-- The common body of `genaInitNotify` and `genaInitNotifyExt`, over the property set that each
produces once the subscription is marked active. -/
def initNotify (env : InitEnv) (propertySet : Except Int CString) (s : State) (h : Int)
    (udn servId sid : CString) : State × Int :=
  if !env.preAllocOk then (s, UPNP_E_OUTOF_MEMORY)
  else
    match s.device h with
    | none => (s, GENA_E_BAD_HANDLE)
    | some _ =>
      match s.lookup h servId udn with
      | none => (s, GENA_E_BAD_SERVICE)
      | some (l, svc) =>
        match getSubscriptionSID env.now sid svc with
        | (svc', none) => (s.setService l svc', GENA_E_BAD_SID)
        | (svc', some sub) =>
          if sub.active then (s.setService l svc', GENA_E_BAD_SID)
          else
            let svc' := svc'.modifySID sid fun sub ↦ { sub with active := true }
            match propertySet with
            | .error e => (s.setService l svc', e)
            | .ok ps =>
              if !env.headersAllocOk || !env.structAllocOk then
                (s.setService l svc', UPNP_E_OUTOF_MEMORY)
              else
                let thread : NotifyThreadStruct :=
                  { headers := notifyHeaders ps, propertySet := ps, servId := servId, udn := udn,
                    sid := sid, eventKey := sub.eventKey, referenceCount := s.nextCounter,
                    deviceHandle := h }
                -- the key is consumed before the job is queued
                let svc' := svc'.modifySID sid fun sub ↦
                  { sub with eventKey := wrap32 (sub.eventKey + 1) }
                let s := s.setService l svc'
                if env.schedule ≠ 0 then (s, scheduleError env.schedule)
                else
                  ({ s with
                      pool := ⟨thread, .queued⟩ ::ₘ s.pool
                      counters := Function.update s.counters s.nextCounter (some 1)
                      nextCounter := s.nextCounter + 1 }, GENA_SUCCESS)

/-- `genaInitNotify`. -/
def genaInitNotify (env : InitEnv) (vars : List (CString × CString)) :=
  initNotify env (if env.propAllocOk then .ok (generatePropertySet vars)
    else .error UPNP_E_OUTOF_MEMORY)

/-- `genaInitNotifyExt`, over the text that `UpnpNewPrintDocument` gives for the document. -/
def genaInitNotifyExt (env : InitEnv) (printed : Option CString) :=
  initNotify env (documentPropertySet printed)

/-! ## `genaNotifyAll` -/

/-- What the environment answers to `genaNotifyAll`. -/
structure NotifyEnv where
  /-- The allocations before the property set is made. -/
  preAllocOk : Bool
  /-- The allocation of the property set. -/
  propAllocOk : Bool
  /-- The allocation of the headers. -/
  headersAllocOk : Bool
  /-- The answer of the clock in the `i`-th call of `GetFirstSubscription` or
  `GetNextSubscription`. -/
  clock : Nat → Int
  /-- The allocation of the `i`-th thread structure. -/
  structAllocOk : Nat → Bool
  /-- The result of the `i`-th `tpool_Schedule`. -/
  schedule : Nat → Int

/-- What the loop over the subscriptions of a service leaves behind. -/
structure Broadcast where
  /-- The subscription list. -/
  list : List Subscription
  /-- The expired subscriptions freed. -/
  freed : Nat
  /-- The threads queued, in order. -/
  queued : List NotifyThreadStruct
  /-- The number of thread structures built. -/
  count : Nat
  return_code : Int

/-- The loop of `genaNotifyAll`, at its `i`-th subscription, over the rest of the list. -/
def broadcast (env : NotifyEnv) (mk : Subscription → NotifyThreadStruct) :
    Nat → List Subscription → Broadcast
  | _, [] => ⟨[], 0, [], 0, GENA_SUCCESS⟩
  | i, finger :: rest =>
    if finger.expired (env.clock i) then
      let b := broadcast env mk i rest
      { b with freed := b.freed + 1 }
    else if !finger.active then
      let b := broadcast env mk i rest
      { b with list := finger :: b.list }
    else if !env.structAllocOk i then
      -- the assignment of `UPNP_E_OUTOF_MEMORY` stands after the `break`
      ⟨finger :: rest, 0, [], 0, GENA_SUCCESS⟩
    else
      let finger' := { finger with eventKey := bumpKey finger.eventKey }
      if env.schedule i ≠ 0 then
        -- the key is consumed and the thread structure lost
        ⟨finger' :: rest, 0, [], 1, scheduleError (env.schedule i)⟩
      else
        let b := broadcast env mk (i + 1) rest
        { b with
          list := finger' :: b.list
          queued := mk finger :: b.queued
          count := b.count + 1 }

/-- The common body of `genaNotifyAll` and `genaNotifyAllExt`, over the property set. -/
def notifyAll (env : NotifyEnv) (propertySet : Except Int CString) (s : State) (h : Int)
    (udn servId : CString) : State × Int :=
  if !env.preAllocOk then (s, UPNP_E_OUTOF_MEMORY)
  else
    match propertySet with
    | .error e => (s, e)
    | .ok ps =>
      if !env.headersAllocOk then (s, UPNP_E_OUTOF_MEMORY)
      else
        match s.device h with
        | none => (s, GENA_E_BAD_HANDLE)
        | some _ =>
          match s.lookup h servId udn with
          | none => (s, GENA_E_BAD_SERVICE)
          | some (l, svc) =>
            let b := broadcast env (fun finger ↦
              { headers := notifyHeaders ps, propertySet := ps, servId := servId, udn := udn,
                sid := finger.sid, eventKey := finger.eventKey, referenceCount := s.nextCounter,
                deviceHandle := h }) 0 svc.subscriptionList
            let svc' := { svc with
              subscriptionList := b.list, totalSubscriptions := svc.totalSubscriptions - b.freed }
            let s := s.setService l svc'
            ({ s with
                pool := (b.queued.map fun t ↦ (⟨t, .queued⟩ : Job)) + s.pool
                counters := if b.count = 0 then s.counters
                  else Function.update s.counters s.nextCounter (some b.count)
                nextCounter := s.nextCounter + 1 }, b.return_code)

/-- `genaNotifyAll`. -/
def genaNotifyAll (env : NotifyEnv) (vars : List (CString × CString)) :=
  notifyAll env (if env.propAllocOk then .ok (generatePropertySet vars)
    else .error UPNP_E_OUTOF_MEMORY)

/-- `genaNotifyAllExt`, over the text that `UpnpNewPrintDocument` gives for the document. -/
def genaNotifyAllExt (env : NotifyEnv) (printed : Option CString) :=
  notifyAll env (documentPropertySet printed)

end Upnp.Gena
