import Upnp.Gena.Request

/-!
# The eventing machine

The actions a device's eventing can take, each a locked section of
`gena_server.c` or of the registration calls, and the machine they drive.
-/

namespace Upnp.Gena

open Upnp.Lib

/-- A service as `getServiceTable` leaves it. -/
def ServiceInfo.Fresh (svc : ServiceInfo) : Prop :=
  svc.active = true ∧ svc.totalSubscriptions = 0 ∧ svc.subscriptionList = []

instance (svc : ServiceInfo) : Decidable svc.Fresh :=
  inferInstanceAs (Decidable (_ ∧ _ ∧ _))

/-- The actions of the machine. -/
inductive Action where
  /-- `UpnpRegisterRootDevice` enters a device whose table comes from `getServiceTable`. -/
  | register (h : Int) (info : HandleInfo)
  /-- `genaUnregisterDevice`. -/
  | genaUnregisterDevice (h : Int)
  /-- `FreeHandle`. -/
  | freeHandle (h : Int)
  /-- `UpnpSetMaxSubscriptions`. -/
  | setMaxSubscriptions (h m : Int)
  | subscribe (env : RequestEnv) (request : HttpRequest)
  | renew (env : RequestEnv) (request : HttpRequest) (uninit : CString)
  | unsubscribe (env : RequestEnv) (request : HttpRequest) (uninit : CString)
  | genaInitNotify (env : InitEnv) (vars : List (CString × CString)) (h : Int)
      (udn servId sid : CString)
  | genaInitNotifyExt (env : InitEnv) (printed : Option CString) (h : Int)
      (udn servId sid : CString)
  | genaNotifyAll (env : NotifyEnv) (vars : List (CString × CString)) (h : Int)
      (udn servId : CString)
  | genaNotifyAllExt (env : NotifyEnv) (printed : Option CString) (h : Int)
      (udn servId : CString)
  /-- A worker of the thread pool takes a queued job. -/
  | start (t : NotifyThreadStruct)
  /-- A worker runs the first section of `genaNotifyThread`. -/
  | check (env : CheckEnv) (t : NotifyThreadStruct)
  /-- A worker runs the second section, after `genaNotify` on its copy `sub_copy`. -/
  | finish (t : NotifyThreadStruct) (sub_copy : Subscription) (now return_code : Int)

/-- `genaUnregisterDevice`: `freeServiceTable`. -/
def genaUnregisterDevice (s : State) (h : Int) : State :=
  match s.device h with
  | none => s
  | some info =>
    { s with handleTable := Function.update s.handleTable h (some { info with serviceTable := [] }) }

/-- `UpnpSetMaxSubscriptions`. -/
def setMaxSubscriptions (s : State) (h m : Int) : State :=
  match s.device h with
  | none => s
  | some info =>
    if m ≠ -1 ∧ m < 0 then s
    else
      { s with
        handleTable := Function.update s.handleTable h (some { info with maxSubscriptions := m }) }

/-- The state without one copy of a job. -/
def State.take (s : State) (j : Job) : State := { s with pool := s.pool.erase j }

/-- The state with a job in the phase given, if any. -/
def State.put (s : State) (t : NotifyThreadStruct) : Option Phase → State
  | none => s
  | some p => { s with pool := ⟨t, p⟩ ::ₘ s.pool }

section Lemmas

variable (s : State) (j : Job) (t : NotifyThreadStruct)

@[simp] theorem State.take_handleTable : (s.take j).handleTable = s.handleTable := rfl
@[simp] theorem State.take_pool : (s.take j).pool = s.pool.erase j := rfl
@[simp] theorem State.take_sids : (s.take j).sids = s.sids := rfl
@[simp] theorem State.take_sends : (s.take j).sends = s.sends := rfl
@[simp] theorem State.put_none : s.put t none = s := rfl

end Lemmas

variable (samePath : CString → CString → Bool)

/-- One action; `none` when it is not enabled.  A fresh UUID differs from all before. -/
def step (s : State) : Action → Option State
  | .register h info =>
    if 1 ≤ h ∧ h < NUM_HANDLE ∧ s.handleTable h = none ∧ ∀ svc ∈ info.serviceTable, svc.Fresh then
      some { s with handleTable := Function.update s.handleTable h (some info) }
    else none
  | .genaUnregisterDevice h => some (genaUnregisterDevice s h)
  | .freeHandle h => some { s with handleTable := Function.update s.handleTable h none }
  | .setMaxSubscriptions h m => some (setMaxSubscriptions s h m)
  | .subscribe env request =>
    if "uuid:".toList ++ env.uuid ∈ s.sids then none
    else some (genaSubscriptionRequest samePath env s request).1
  | .renew env request uninit => some (genaRenewRequest samePath env s request uninit).1
  | .unsubscribe env request uninit => some (genaUnsubscribeRequest samePath env s request uninit).1
  | .genaInitNotify env vars h udn servId sid =>
    some (Gena.genaInitNotify env vars s h udn servId sid).1
  | .genaInitNotifyExt env printed h udn servId sid =>
    some (Gena.genaInitNotifyExt env printed s h udn servId sid).1
  | .genaNotifyAll env vars h udn servId => some (Gena.genaNotifyAll env vars s h udn servId).1
  | .genaNotifyAllExt env printed h udn servId =>
    some (Gena.genaNotifyAllExt env printed s h udn servId).1
  | .start t =>
    if ⟨t, .queued⟩ ∈ s.pool then some ((s.take ⟨t, .queued⟩).put t (some .running)) else none
  | .check env t =>
    if ⟨t, .running⟩ ∈ s.pool then
      let (s', p) := notifyThreadCheck env (s.take ⟨t, .running⟩) t
      some (s'.put t p)
    else none
  | .finish t sub_copy now return_code =>
    if ⟨t, .sending sub_copy⟩ ∈ s.pool then
      some (notifyThreadFinish now return_code (s.take ⟨t, .sending sub_copy⟩) t)
    else none

/-- The state of a library that was just initialised. -/
def State.Initial (s : State) : Prop :=
  (∀ h, s.handleTable h = none) ∧ s.pool = 0 ∧ s.sids = [] ∧ s.sends = []

/-- The eventing machine of a device. -/
def machine : Machine State Action where
  init := State.Initial
  step := step samePath

end Upnp.Gena
