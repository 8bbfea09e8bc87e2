import Upnp.Gena.Request
import Upnp.Lib.Chain

/-!
# The subscription table in memory

`service_table.c` and the request functions of `gena_server.c` on the linked
lists that they patch: a subscription list is the address of its first node, and
the nodes live in a heap, where an access to a freed node is a fault.  Every
function here returns `none` exactly when it faults, or when a loop does not end.
-/

namespace Upnp.Gena.Linked

open Upnp.Lib

/-- The memory that holds the subscriptions. -/
abbrev Mem := Heap (Cell Subscription)

/-- `service_info`: the fields that eventing reads. -/
structure Service where
  serviceId : CString
  udn : CString
  eventURL : Option CString
  active : Bool
  totalSubscriptions : Int
  subscriptionList : Option Addr
deriving DecidableEq, Repr

/-- Writes to the fields of a node. -/
def writeNode (m : Mem) (a : Addr) (f : Subscription → Subscription) : Option Mem := do
  let c ← m.get a
  m.set a { c with val := f c.val }

/-- Writes to the link of a node. -/
def writeNext (m : Mem) (a : Addr) (next : Option Addr) : Option Mem := do
  let c ← m.get a
  m.set a { c with next := next }

/-! ## The list functions -/

/-- `freeSubscriptionList`, for as many nodes as the fuel says. -/
def freeSubscriptionList : Nat → Mem → Option Addr → Option Mem
  | _, m, none => some m
  | 0, _, some _ => none
  | n + 1, m, some head => do
    let c ← m.get head
    let m ← m.free head
    freeSubscriptionList n m c.next

/-- The lines that the look-ups share: `finger` is unlinked behind `previous`, or at the head of
the list, and freed. -/
def unlink (m : Mem) (service : Service) (previous : Option Addr) (finger : Addr) :
    Option (Mem × Service) := do
  let c ← m.get finger
  let (m, service) ← match previous with
    | some previous => (writeNext m previous c.next).map (·, service)
    | none => some (m, { service with subscriptionList := c.next })
  let m ← writeNext m finger none
  let m ← freeSubscriptionList m.size m (some finger)
  some (m, { service with totalSubscriptions := service.totalSubscriptions - 1 })

/-- The loop of `RemoveSubscriptionSID`. -/
def removeLoop (sid : CString) :
    Nat → Mem → Service → Option Addr → Option Addr → Option (Mem × Service)
  | _, m, service, _, none => some (m, service)
  | 0, _, _, _, some _ => none
  | n + 1, m, service, previous, some finger => do
    let c ← m.get finger
    if sid = c.val.sid then unlink m service previous finger
    else removeLoop sid n m service (some finger) c.next

/-- `RemoveSubscriptionSID`. -/
def removeSubscriptionSID (sid : CString) (m : Mem) (service : Service) : Option (Mem × Service) :=
  removeLoop sid m.size m service none service.subscriptionList

/-- The loop of `GetSubscriptionSID`: the node found and the one before it. -/
def findLoop (sid : CString) (m : Mem) :
    Nat → Option Addr → Option Addr → Option (Option Addr × Option Addr)
  | _, previous, none => some (previous, none)
  | 0, _, some _ => none
  | n + 1, previous, some next => do
    let c ← m.get next
    if c.val.sid = sid then some (previous, some next)
    else findLoop sid m n (some next) c.next

/-- `GetSubscriptionSID`. -/
def getSubscriptionSID (now : Int) (sid : CString) (m : Mem) (service : Service) :
    Option (Mem × Service × Option Addr) := do
  let (previous, found) ← findLoop sid m m.size none service.subscriptionList
  match found with
  | none => some (m, service, none)
  | some found =>
    let c ← m.get found
    if c.val.expired now then
      let (m, service) ← unlink m service previous found
      some (m, service, none)
    else some (m, service, some found)

/-- The loop of `GetNextSubscription`, at its node `previous`. -/
def nextLoop (now : Int) : Nat → Mem → Service → Addr → Option (Mem × Service × Option Addr)
  | 0, _, _, _ => none
  | n + 1, m, service, previous => do
    let c ← m.get previous
    match c.next with
    | none => some (m, service, none)
    | some current =>
      let d ← m.get current
      if d.val.expired now then
        let (m, service) ← unlink m service (some previous) current
        nextLoop now n m service previous
      else if d.val.active then some (m, service, some current)
      else nextLoop now n m service current

/-- `GetNextSubscription`. -/
def getNextSubscription (now : Int) (m : Mem) (service : Service) :
    Option Addr → Option (Mem × Service × Option Addr)
  | none => some (m, service, none)
  | some current => nextLoop now (m.size + 1) m service current

/-- `GetFirstSubscription`: its node `temp`, of which only the link is set, lies on the stack. -/
def getFirstSubscription (now : Int) (m : Mem) (service : Service) :
    Option (Mem × Service × Option Addr) := do
  let temp := m.fresh
  let m := m.alloc temp ⟨default, service.subscriptionList⟩
  let (m, service, next) ← getNextSubscription now m service (some temp)
  let c ← m.get temp
  let m ← m.free temp
  some (m, { service with subscriptionList := c.next }, next)

/-- The rest of a walk over a list, from its node `finger` on: the nodes in the order of the
visits.  The `i`-th call of `GetNextSubscription` reads the clock as `clock i`. -/
def walkLoop (clock : Nat → Int) :
    Nat → Nat → Mem → Service → Option Addr → Option (Mem × Service × List Addr)
  | _, _, m, service, none => some (m, service, [])
  | 0, _, _, _, some _ => none
  | n + 1, i, m, service, some finger => do
    let (m, service, next) ← getNextSubscription (clock i) m service (some finger)
    let (m, service, visited) ← walkLoop clock n (i + 1) m service next
    some (m, service, finger :: visited)

/-- A walk over a list with `GetFirstSubscription` and `GetNextSubscription`. -/
def walk (clock : Nat → Int) (m : Mem) (service : Service) :
    Option (Mem × Service × List Addr) := do
  let (m, service, first) ← getFirstSubscription (clock 0) m service
  walkLoop clock m.size 1 m service first

/-! ## The device -/

/-- A device: the memory, the service table, the limits, and the SIDs generated so far. -/
structure Device where
  mem : Mem
  services : List Service
  maxSubscriptions : Int
  maxSubscriptionTimeOut : Int
  sids : List CString

namespace Device

/-- The service that a test selects first. -/
def find (d : Device) (p : Service → Bool) : Option (Nat × Service) :=
  (d.services.findIdx? p).bind fun i ↦ d.services[i]?.map (i, ·)

/-- `FindServiceId`. -/
def findServiceId (d : Device) (serviceId udn : CString) : Option (Nat × Service) :=
  d.find fun service ↦ serviceId = service.serviceId && udn = service.udn

/-- `FindServiceEventURLPath`, for a service that is active. -/
def activeService (samePath : CString → CString → Bool) (d : Device) (request : HttpRequest) :
    Option (Nat × Service) :=
  (d.find fun service ↦ service.eventURL.any (samePath · request.pathquery)).filter (·.2.active)

/-- Memory and a service are written back. -/
def put (d : Device) (i : Nat) (r : Mem × Service) : Device :=
  { d with mem := r.1, services := d.services.set i r.2 }

end Device

variable (samePath : CString → CString → Bool)

/-- `genaSubscriptionRequest`, where `addr` is what `malloc` returns. -/
def genaSubscriptionRequest (env : RequestEnv) (addr : Addr) (d : Device) (request : HttpRequest) :
    Option (Device × Response) :=
  match request.header "NT".toList with
  | none => some (d, .BAD_CALLBACK)
  | some nt =>
    if !acceptedNT nt then some (d, .BAD_CALLBACK)
    else if (request.header "SID".toList).isSome then some (d, .BAD_REQUEST)
    else if !env.pathAllocOk then some (d, .UNABLE_MEMORY)
    else
      match d.activeService samePath request with
      | none => some (d, .UNABLE_SERVICE_UNKNOWN)
      | some (i, service) =>
        if d.maxSubscriptions ≠ -1 ∧ service.totalSubscriptions ≥ d.maxSubscriptions then
          some (d, .UNABLE_MEMORY)
        else if !env.subAllocOk then some (d, .UNABLE_MEMORY)
        else
          -- what is still unset has the values of `default`
          let m := d.mem.alloc addr ⟨default, none⟩
          let giveUp (m : Mem) (r : Response) : Option (Device × Response) := do
            let m ← freeSubscriptionList m.size m (some addr)
            some ({ d with mem := m }, r)
          match (request.header "CALLBACK".toList).map fun t ↦ env.createURLList t.text with
          | none => giveUp m .BAD_CALLBACK
          | some none => giveUp m .UNABLE_MEMORY
          | some (some []) => giveUp m .BAD_CALLBACK
          | some (some urls) => do
            let time_out :=
              grantedTimeout d.maxSubscriptionTimeOut (request.header "TIMEOUT".toList)
            let sid := "uuid:".toList ++ env.uuid
            let m ← writeNode m addr fun _ ↦
              { sid := sid, eventKey := 0, toSendEventKey := 0,
                expireTime := expireTimeOf env.now time_out, active := false,
                deliveryURLs := urls }
            let d := { d with sids := sid :: d.sids }
            if !env.respondOk then
              let m ← freeSubscriptionList m.size m (some addr)
              some ({ d with mem := m }, .respondOK time_out sid)
            else
              let m ← writeNext m addr service.subscriptionList
              some (d.put i (m, { service with
                subscriptionList := some addr
                totalSubscriptions := service.totalSubscriptions + 1 }), .respondOK time_out sid)

/-- `genaRenewRequest`. -/
def genaRenewRequest (env : RequestEnv) (d : Device) (request : HttpRequest) (uninit : CString) :
    Option (Device × Response) :=
  match requestedSID env request uninit with
  | .error r => some (d, r)
  | .ok sid =>
    match d.activeService samePath request with
    | none => some (d, .BAD_CALLBACK)
    | some (i, service) => do
      let (m, service, sub) ← getSubscriptionSID env.now sid d.mem service
      match sub with
      | none => some (d.put i (m, service), .BAD_CALLBACK)
      | some sub =>
        let c ← m.get sub
        if d.maxSubscriptions ≠ -1 ∧ service.totalSubscriptions > d.maxSubscriptions then
          let r ← removeSubscriptionSID c.val.sid m service
          some (d.put i r, .UNABLE_MEMORY)
        else
          let time_out := grantedTimeout d.maxSubscriptionTimeOut (request.header "TIMEOUT".toList)
          let m ← writeNode m sub fun v ↦ { v with expireTime := expireTimeOf env.later time_out }
          let response := Response.respondOK time_out c.val.sid
          if !env.respondOk then
            let r ← removeSubscriptionSID c.val.sid m service
            some (d.put i r, response)
          else some (d.put i (m, service), response)

/-- `genaUnsubscribeRequest`. -/
def genaUnsubscribeRequest (env : RequestEnv) (d : Device) (request : HttpRequest)
    (uninit : CString) : Option (Device × Response) :=
  match requestedSID env request uninit with
  | .error r => some (d, r)
  | .ok sid =>
    match d.activeService samePath request with
    | none => some (d, .BAD_CALLBACK)
    | some (i, service) => do
      let (m, service, sub) ← getSubscriptionSID env.now sid d.mem service
      match sub with
      | none => some (d.put i (m, service), .BAD_CALLBACK)
      | some _ =>
        let r ← removeSubscriptionSID sid m service
        some (d.put i r, .HTTP_OK_CRLF)

/-! ## Notifications

What the notification functions do to the table; their jobs are in `Upnp.Gena.Event`. -/

/-- `genaInitNotify` and `genaInitNotifyExt`, over the property set. -/
def initNotify (env : InitEnv) (propertySet : Except Int CString) (d : Device)
    (udn servId sid : CString) : Option (Device × Int) :=
  if !env.preAllocOk then some (d, UPNP_E_OUTOF_MEMORY)
  else
    match d.findServiceId servId udn with
    | none => some (d, GENA_E_BAD_SERVICE)
    | some (i, service) => do
      let (m, service, sub) ← getSubscriptionSID env.now sid d.mem service
      match sub with
      | none => some (d.put i (m, service), GENA_E_BAD_SID)
      | some sub =>
        let c ← m.get sub
        if c.val.active then some (d.put i (m, service), GENA_E_BAD_SID)
        else
          let m ← writeNode m sub fun v ↦ { v with active := true }
          match propertySet with
          | .error e => some (d.put i (m, service), e)
          | .ok _ =>
            if !env.headersAllocOk || !env.structAllocOk then
              some (d.put i (m, service), UPNP_E_OUTOF_MEMORY)
            else
              let m ← writeNode m sub fun v ↦ { v with eventKey := wrap32 (v.eventKey + 1) }
              some (d.put i (m, service),
                if env.schedule ≠ 0 then scheduleError env.schedule else GENA_SUCCESS)

/-- The loop of `genaNotifyAll`, at its `i`-th subscription `finger`. -/
def notifyLoop (env : NotifyEnv) :
    Nat → Nat → Mem → Service → Option Addr → Option (Mem × Service × Int)
  | _, _, m, service, none => some (m, service, GENA_SUCCESS)
  | 0, _, _, _, some _ => none
  | n + 1, i, m, service, some finger => do
    if !env.structAllocOk i then some (m, service, GENA_SUCCESS)
    else
      let m ← writeNode m finger fun v ↦ { v with eventKey := bumpKey v.eventKey }
      if env.schedule i ≠ 0 then some (m, service, scheduleError (env.schedule i))
      else
        let (m, service, next) ← getNextSubscription (env.clock (i + 1)) m service (some finger)
        notifyLoop env n (i + 1) m service next

/-- `genaNotifyAll` and `genaNotifyAllExt`, over the property set. -/
def notifyAll (env : NotifyEnv) (propertySet : Except Int CString) (d : Device)
    (udn servId : CString) : Option (Device × Int) :=
  if !env.preAllocOk then some (d, UPNP_E_OUTOF_MEMORY)
  else
    match propertySet with
    | .error e => some (d, e)
    | .ok _ =>
      if !env.headersAllocOk then some (d, UPNP_E_OUTOF_MEMORY)
      else
        match d.findServiceId servId udn with
        | none => some (d, GENA_E_BAD_SERVICE)
        | some (i, service) => do
          let (m, service, finger) ← getFirstSubscription (env.clock 0) d.mem service
          let (m, service, return_code) ← notifyLoop env m.size 0 m service finger
          some (d.put i (m, service), return_code)

/-- The first locked section of `genaNotifyThread`. -/
def notifyThreadCheck (now : Int) (d : Device) (udn servId sid : CString) : Option Device :=
  match (d.findServiceId servId udn).filter (·.2.active) with
  | none => some d
  | some (i, service) => do
    let (m, service, _) ← getSubscriptionSID now sid d.mem service
    some (d.put i (m, service))

/-- The second locked section of `genaNotifyThread`, after `genaNotify` returned
`return_code`. -/
def notifyThreadFinish (now return_code : Int) (d : Device) (udn servId sid : CString) :
    Option Device :=
  match (d.findServiceId servId udn).filter (·.2.active) with
  | none => some d
  | some (i, service) => do
    let (m, service, sub) ← getSubscriptionSID now sid d.mem service
    match sub with
    | none => some (d.put i (m, service))
    | some sub =>
      let m ← writeNode m sub fun v ↦ { v with toSendEventKey := bumpKey v.toSendEventKey }
      if return_code = GENA_E_NOTIFY_UNACCEPTED_REMOVE_SUB then
        let c ← m.get sub
        let r ← removeSubscriptionSID c.val.sid m service
        some (d.put i r)
      else some (d.put i (m, service))

/-! ## Runs -/

/-- What can happen to a device. -/
inductive Action where
  | subscribe (env : RequestEnv) (addr : Addr) (request : HttpRequest)
  | renew (env : RequestEnv) (request : HttpRequest) (uninit : CString)
  | unsubscribe (env : RequestEnv) (request : HttpRequest) (uninit : CString)
  | initNotify (env : InitEnv) (propertySet : Except Int CString) (udn servId sid : CString)
  | notifyAll (env : NotifyEnv) (propertySet : Except Int CString) (udn servId : CString)
  | notifyThreadCheck (now : Int) (udn servId sid : CString)
  | notifyThreadFinish (now return_code : Int) (udn servId sid : CString)
  /-- `GetSubscriptionSID` on a service. -/
  | getSubscriptionSID (i : Nat) (now : Int) (sid : CString)
  /-- `RemoveSubscriptionSID` on a service. -/
  | removeSubscriptionSID (i : Nat) (sid : CString)
  /-- A walk over the subscriptions of a service. -/
  | walk (i : Nat) (clock : Nat → Int)
  /-- `UpnpSetMaxSubscriptions`. -/
  | setMaxSubscriptions (m : Int)

/-- A generated UUID is new, and `malloc` returns memory that is not in use. -/
def Enabled (d : Device) : Action → Prop
  | .subscribe env addr _ => "uuid:".toList ++ env.uuid ∉ d.sids ∧ addr ∉ d.mem
  | _ => True

instance (d : Device) : (a : Action) → Decidable (Enabled d a)
  | .subscribe _ _ _ => inferInstanceAs (Decidable (_ ∧ _))
  | .renew .. | .unsubscribe .. | .initNotify .. | .notifyAll .. | .notifyThreadCheck ..
  | .notifyThreadFinish .. | .getSubscriptionSID .. | .removeSubscriptionSID .. | .walk ..
  | .setMaxSubscriptions _ => isTrue trivial

/-- `UpnpSetMaxSubscriptions`. -/
def setMaxSubscriptions (d : Device) (m : Int) : Device :=
  if m ≠ -1 ∧ m < 0 then d else { d with maxSubscriptions := m }

/-- What an action does; `none` for a fault. -/
def act (d : Device) : Action → Option Device
  | .subscribe env addr request =>
    (genaSubscriptionRequest samePath env addr d request).map Prod.fst
  | .renew env request uninit => (genaRenewRequest samePath env d request uninit).map Prod.fst
  | .unsubscribe env request uninit =>
    (genaUnsubscribeRequest samePath env d request uninit).map Prod.fst
  | .initNotify env ps udn servId sid => (Linked.initNotify env ps d udn servId sid).map Prod.fst
  | .notifyAll env ps udn servId => (Linked.notifyAll env ps d udn servId).map Prod.fst
  | .notifyThreadCheck now udn servId sid => Linked.notifyThreadCheck now d udn servId sid
  | .notifyThreadFinish now rc udn servId sid => Linked.notifyThreadFinish now rc d udn servId sid
  | .getSubscriptionSID i now sid =>
    match d.services[i]? with
    | none => some d
    | some service => (Linked.getSubscriptionSID now sid d.mem service).map
        fun r ↦ d.put i (r.1, r.2.1)
  | .removeSubscriptionSID i sid =>
    match d.services[i]? with
    | none => some d
    | some service => (Linked.removeSubscriptionSID sid d.mem service).map (d.put i)
  | .walk i clock =>
    match d.services[i]? with
    | none => some d
    | some service => (Linked.walk clock d.mem service).map fun r ↦ d.put i (r.1, r.2.1)
  | .setMaxSubscriptions m => some (Linked.setMaxSubscriptions d m)

/-- A service as `getServiceTable` leaves it. -/
def Service.Fresh (service : Service) : Prop :=
  service.active = true ∧ service.totalSubscriptions = 0 ∧ service.subscriptionList = none

/-- A device that was just registered. -/
def Device.Initial (d : Device) : Prop :=
  d.mem = ∅ ∧ (∀ service ∈ d.services, service.Fresh) ∧ d.sids = [] ∧
    (d.maxSubscriptions = -1 ∨ 0 ≤ d.maxSubscriptions)

/-- The runs of a device; after a fault there is nothing more. -/
def machine : Machine (Option Device) Action where
  init s := ∃ d, s = some d ∧ d.Initial
  step
    | none, _ => none
    | some d, a => if Enabled d a then some (act samePath d a) else none

end Upnp.Gena.Linked
