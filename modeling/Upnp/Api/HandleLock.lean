import Upnp.Lib.LockPaths

/-!
# The handle lock

The functions of `upnpapi.c`, `gena_client.c` and `gena_server.c` that take `HandleLock`, and
those that call them, as the lock sees them: each with its tests in the words of the
source, in which what does not touch the lock is left out.  The answers of the tests
are free, for every argument and every failure of a callee.
-/

namespace Upnp.Api

open Upnp.Lib.Lock

/-- The functions. -/
inductive Fn where
  | UpnpRegisterRootDevice
  | UpnpUnRegisterRootDevice
  | UpnpRegisterRootDevice2
  | UpnpRegisterClient
  | UpnpUnRegisterClient
  | UpnpSendAdvertisement
  | UpnpSubscribeAsync
  | UpnpSubscribe
  | UpnpUnSubscribe
  | UpnpUnSubscribeAsync
  | UpnpRenewSubscription
  | UpnpRenewSubscriptionAsync
  | UpnpNotify
  | UpnpNotifyExt
  | UpnpAcceptSubscription
  | UpnpAcceptSubscriptionExt
  | AdvertiseAndReply
  | UpnpThreadDistribution
  | SsdpCallbackEventHandler
  | AutoAdvertise
  | GenaAutoRenewSubscription
  | genaUnregisterClient
  | genaNotifyReceived
  | genaUnSubscribe
  | genaSubscribe
  | genaRenewSubscription
  | genaUnregisterDevice
  | genaNotifyThread
  | genaInitNotify
  | genaInitNotifyExt
  | genaNotifyAllExt
  | genaNotifyAll
  | genaUnsubscribeRequest
  | genaRenewRequest
  | genaSubscriptionRequest
  | genaSubscribeOrRenew
  | genaCallback
deriving DecidableEq, Repr

/-- A function of the source. -/
abbrev Code := Stmt Fn String

/-- `if (test) s`. -/
def when (test : String) (s : List Code) : Code := .ite test (.block s) .skip

/-- `if (test) return`. -/
def fails (test : String) : Code := when test [.ret]

/-- `if (test) { HandleUnlock(); return; }`. -/
def leaves (test : String) : Code := when test [.unlock, .ret]

/-! ## `upnpapi.c` -/

/-- The tests behind `HandleLock` at the beginning of an API function. -/
def checked (tests : List String) (rest : List Code) : Code :=
  .block (.lock :: tests.map leaves ++ rest)

/-- The part of the registration of a root device behind the test for the SDK. -/
def registerDevice (params document : String) : List Code :=
  [fails params, .lock, leaves "(*Hnd = GetFreeHandle()) == UPNP_E_OUTOF_HANDLE",
    leaves "HInfo == NULL", leaves document, leaves "HInfo->DeviceList == NULL",
    leaves "HInfo->ServiceList == NULL", .unlock, .ret]

def UpnpRegisterRootDevice : Code :=
  .block (leaves "UpnpSdkInit != 1" ::
    registerDevice "Hnd == NULL || Fun == NULL || DescUrl == NULL || strlen(DescUrl) == 0"
      "UpnpDownloadXmlDoc(HInfo->DescURL, &(HInfo->DescDocument)) != UPNP_E_SUCCESS")

def UpnpRegisterRootDevice2 : Code :=
  .block (fails "UpnpSdkInit != 1" ::
    registerDevice "Hnd == NULL || Fun == NULL" "retVal != UPNP_E_SUCCESS")

def UpnpUnRegisterRootDevice : Code :=
  .block [.call .genaUnregisterDevice, fails "genaUnregisterDevice(Hnd) != UPNP_E_SUCCESS", .lock,
    leaves "GetHandleInfo(Hnd, &HInfo) == UPNP_E_INVALID_HANDLE", .unlock,
    .call .AdvertiseAndReply, .lock, .unlock, .ret]

def UpnpRegisterClient : Code :=
  .block [leaves "UpnpSdkInit != 1", fails "Fun == NULL || Hnd == NULL", .lock,
    leaves "(*Hnd = GetFreeHandle()) == UPNP_E_OUTOF_HANDLE", leaves "HInfo == NULL", .unlock, .ret]

def UpnpUnRegisterClient : Code :=
  .block [.call .genaUnregisterClient, fails "genaUnregisterClient(Hnd) != UPNP_E_SUCCESS", .lock,
    leaves "GetHandleInfo(Hnd, &HInfo) == UPNP_E_INVALID_HANDLE", .unlock, .ret]

def UpnpSendAdvertisement : Code :=
  checked ["GetHandleInfo(Hnd, &SInfo) != HND_DEVICE"]
    [.unlock, .call .AdvertiseAndReply, fails "retVal != UPNP_E_SUCCESS", fails "ptrMx == NULL",
      fails "adEvent == NULL", fails "ScheduleTimerEvent(...) !=UPNP_E_SUCCESS", .ret]

def UpnpSubscribeAsync : Code :=
  checked ["GetHandleInfo(Hnd, &SInfo) != HND_CLIENT", "EvtUrl == NULL",
    "TimeOut!=UPNP_INFINITE && TimeOut < 1", "Fun == NULL", "Param == NULL"] [.unlock, .ret]

def UpnpSubscribe : Code :=
  checked ["GetHandleInfo(Hnd, &SInfo) != HND_CLIENT", "EvtUrl == NULL", "TimeOut == NULL",
    "SubsId == NULL"] [.unlock, .call .genaSubscribe, .ret]

def UpnpUnSubscribe : Code :=
  checked ["GetHandleInfo(Hnd, &SInfo) != HND_CLIENT", "SubsId == NULL"]
    [.unlock, .call .genaUnSubscribe, .ret]

def UpnpUnSubscribeAsync : Code :=
  checked ["GetHandleInfo(Hnd, &SInfo) != HND_CLIENT", "SubsId == NULL", "Fun == NULL"]
    [.unlock, fails "Param == NULL", .ret]

def UpnpRenewSubscription : Code :=
  checked ["GetHandleInfo(Hnd, &SInfo) != HND_CLIENT", "TimeOut == NULL", "SubsId == NULL"]
    [.unlock, .call .genaRenewSubscription, .ret]

/-- There is no `HandleLock` here. -/
def UpnpRenewSubscriptionAsync : Code :=
  .block [leaves "GetHandleInfo(Hnd, &SInfo) != HND_CLIENT",
    leaves "TimeOut!=UPNP_INFINITE && TimeOut < 1", leaves "SubsId == NULL", leaves "Fun == NULL",
    .unlock, fails "Param == NULL", .ret]

def UpnpNotify : Code :=
  checked ["GetHandleInfo(Hnd, &SInfo) != HND_DEVICE", "DevID == NULL", "ServName == NULL",
    "VarName == NULL || NewVal == NULL || cVariables < 0"] [.unlock, .call .genaNotifyAll, .ret]

def UpnpNotifyExt : Code :=
  checked ["GetHandleInfo(Hnd, &SInfo) != HND_DEVICE", "DevID == NULL", "ServName == NULL"]
    [.unlock, .call .genaNotifyAllExt, .ret]

def UpnpAcceptSubscription : Code :=
  checked ["GetHandleInfo(Hnd, &SInfo) != HND_DEVICE", "DevID == NULL", "ServName == NULL",
    "SubsId == NULL", "VarName == NULL || NewVal == NULL || cVariables < 0"]
    [.unlock, .call .genaInitNotify, .ret]

def UpnpAcceptSubscriptionExt : Code :=
  checked ["GetHandleInfo(Hnd, &SInfo) != HND_DEVICE", "DevID == NULL", "ServName == NULL",
    "SubsId == NULL", "PropSet == NULL"] [.unlock, .call .genaInitNotifyExt, .ret]

/-- The loops over the devices and services go on and end by `continue` and `break` only. -/
def AdvertiseAndReply : Code :=
  checked ["GetHandleInfo(Hnd, &SInfo) != HND_DEVICE"] [.unlock, .ret]

def UpnpThreadDistribution : Code :=
  .ite "Param->FunName == SUBSCRIBE" (.call .genaSubscribe)
    (.ite "Param->FunName == UNSUBSCRIBE" (.call .genaUnSubscribe)
      (when "Param->FunName == RENEW" [.call .genaRenewSubscription]))

def SsdpCallbackEventHandler : Code :=
  when "Evt!= NULL && Evt->ErrCode == 0"
    [when "Evt->Cmd == SSDP_SEARCH"
      [.ite "GetDeviceHandleInfo(&h, &SInfo) != HND_DEVICE" .skip (.call .AdvertiseAndReply)]]

def AutoAdvertise : Code := .call .UpnpSendAdvertisement

/-! ## `gena_client.c` -/

def GenaAutoRenewSubscription : Code :=
  .block [.ite "AUTO_RENEW_TIME==0" .skip (.call .genaRenewSubscription),
    when "send_callback" [.lock, leaves "GetHandleInfo(event->handle,&handle_info)!=HND_CLIENT",
      .unlock]]

/-- `done` is set in front of `break` only, so the loop is left there. -/
def genaUnregisterClient : Code :=
  .block [.loop (.block [.lock, leaves "GetHandleInfo(client_handle,&handle_info)!=HND_CLIENT",
      when "handle_info->ClientSubList==NULL" [.brk],
      when "copy_client_subscription(...)!=HTTP_SUCCESS" [.brk],
      .unlock, fails "request==NULL"]),
    .unlock, .ret]

def genaNotifyReceived : Code :=
  .block [fails "!search_for_header(&request,\"SID\",&sid)",
    fails "!search_for_header(&request,\"SEQ\",&temp_buff) || sscanf(...)!=1",
    fails "!search_for_header(&request,\"NT\",&NT) || !search_for_header(&request,\"NTS\",&NTS)",
    fails "NT or NTS is not the one of an event",
    fails "request.content.size==0 || (ChangedVars=UpnpParse_Buffer(...))==NULL",
    .lock, leaves "GetClientHandleInfo(&client_handle, &handle_info)!=HND_CLIENT",
    when "(subscription= GetClientSubActualSID(...))==NULL"
      [.ite "eventKey==0"
        (.block [.unlock, .lock,
          leaves "GetClientHandleInfo(&client_handle, &handle_info)!=HND_CLIENT",
          leaves "(subscription= GetClientSubActualSID(...))==NULL"])
        (.block [.unlock, .ret])],
    .unlock]

def genaUnSubscribe : Code :=
  checked ["GetHandleInfo(client_handle,&handle_info)!=HND_CLIENT",
    "(sub=GetClientSubClientSID(...))==NULL"]
    [.unlock, fails "return_code!=HTTP_SUCCESS", fails "request==NULL",
      fails "return_code!=HTTP_SUCCESS", .ret]

/-- Without memory for the headers the lock is released a second time. -/
def genaSubscribe : Code :=
  checked ["GetHandleInfo(client_handle,&handle_info)!=HND_CLIENT"]
    [.unlock, leaves "headers==NULL", .lock, leaves "return_code!=HTTP_SUCCESS",
      leaves "GetHandleInfo(client_handle,&handle_info)!=HND_CLIENT", .unlock, .ret]

def genaRenewSubscription : Code :=
  checked ["GetHandleInfo(client_handle,&handle_info)!=HND_CLIENT",
    "(sub=GetClientSubClientSID(...))==NULL"]
    [.unlock, fails "return_code!=HTTP_SUCCESS", fails "headers==NULL", .lock,
      leaves "GetHandleInfo(client_handle,&handle_info)!=HND_CLIENT",
      leaves "return_code!=HTTP_SUCCESS", leaves "(sub=GetClientSubClientSID(...))==NULL",
      .unlock, .ret]

/-! ## `gena_server.c` -/

def genaUnregisterDevice : Code :=
  checked ["GetHandleInfo(device_handle, & handle_info)!=HND_DEVICE"] [.unlock, .ret]

def genaNotifyThread : Code :=
  checked ["GetHandleInfo(in->device_handle,&handle_info)!=HND_DEVICE",
    "service, sub or its copy is missing", "in->eventKey!=sub->ToSendEventKey"]
    [.unlock, .lock, leaves "GetHandleInfo(in->device_handle,&handle_info)!=HND_DEVICE",
      leaves "service or sub is missing", .unlock]

/-- The copies in front of the lock. -/
def copies : List Code :=
  [fails "reference_count==NULL", fails "UDN_copy==NULL", fails "servId_copy==NULL"]

/-- The first event of a subscription, with the tests for the property set. -/
def initNotify (propertySet : List String) : Code :=
  .block (copies ++ [checked (["GetHandleInfo(device_handle,&handle_info)!=HND_DEVICE",
    "(service = FindServiceId(...))==NULL || !service->active",
    "(sub=GetSubscriptionSID( sid,service))==NULL || sub->active"] ++ propertySet ++
      ["headers==NULL"]) [.unlock, .ret]])

def genaInitNotify : Code := initNotify ["(return_code=GeneratePropertySet(...))!=XML_SUCCESS"]

def genaInitNotifyExt : Code := initNotify ["TempPropSet == NULL", "propertySet == NULL"]

/-- An event for all subscriptions, with the tests for the property set. -/
def notifyAll (propertySet : List String) : Code :=
  .block (copies ++ propertySet.map fails ++ [fails "headers==NULL", .lock,
    .ite "GetHandleInfo(device_handle,&handle_info)!=HND_DEVICE" .skip
      (when "(service = FindServiceId(...))!=NULL"
        [.loop (.ite "finger"
          (.block [when "thread_struct==NULL" [.brk],
            when "(return_code=tpool_Schedule(...))!=0" [when "return_code==-1" [], .brk]])
          .brk)]),
    .unlock, .ret])

def genaNotifyAllExt : Code := notifyAll ["TempPropSet == NULL", "propertySet == NULL"]

def genaNotifyAll : Code := notifyAll ["(return_code=GeneratePropertySet(...))!=XML_SUCCESS"]

/-- The tests of a request in front of the lock. -/
def request (headers : List String) (locked : List Code) : Code :=
  .block (headers.map fails ++ [fails "eventURLpath==NULL", .lock,
    leaves "GetDeviceHandleInfo(&device_handle,&handle_info)!=HND_DEVICE"] ++ locked)

def genaUnsubscribeRequest : Code :=
  request ["search_for_header(&request,\"CALLBACK\",&temp_buff) || NT",
    "!search_for_header(&request,\"SID\",&temp_buff)"]
    [leaves "service==NULL || !service->active || sub==NULL", .unlock]

def genaRenewRequest : Code :=
  request ["search_for_header(&request,\"CALLBACK\",&temp_buff) || NT",
    "!search_for_header(&request,\"SID\",&temp_buff)"]
    [leaves "service==NULL || !service->active || sub==NULL",
      when "handle_info->MaxSubscriptions!=-1"
        [leaves "service->TotalSubscriptions>handle_info->MaxSubscriptions"],
      .unlock]

def genaSubscriptionRequest : Code :=
  request ["!search_for_header(&request,\"NT\",&callback) || not an event",
    "search_for_header(&request,\"SID\",&callback)"]
    [leaves "service==NULL || !service->active",
      when "handle_info->MaxSubscriptions!=-1"
        [leaves "service->TotalSubscriptions>=handle_info->MaxSubscriptions"],
      leaves "sub==NULL",
      .ite "!search_for_header(&request,\"CALLBACK\",&callback) || createURL_list(...)==0"
        (.block [.unlock, .ret]) (leaves "return_code==UPNP_E_OUTOF_MEMORY"),
      leaves "respondOK(sockfd,time_out,sub)!=UPNP_E_SUCCESS", .unlock]

def genaSubscribeOrRenew : Code :=
  .ite "search_for_header(&request,\"NT\",&NT)" (.call .genaSubscriptionRequest)
    (.call .genaRenewRequest)

/-- `genaCallback` of `gena_callback.c`. -/
def genaCallback : Code :=
  when "parse_http_request(...)==HTTP_SUCCESS"
    [.ite "SUBSCRIBE" (.call .genaSubscribeOrRenew)
      (.ite "UNSUBSCRIBE" (.call .genaUnsubscribeRequest)
        (when "NOTIFY" [.call .genaNotifyReceived]))]

/-- What each function does. -/
def code : Fn → Code
  | .UpnpRegisterRootDevice => UpnpRegisterRootDevice
  | .UpnpUnRegisterRootDevice => UpnpUnRegisterRootDevice
  | .UpnpRegisterRootDevice2 => UpnpRegisterRootDevice2
  | .UpnpRegisterClient => UpnpRegisterClient
  | .UpnpUnRegisterClient => UpnpUnRegisterClient
  | .UpnpSendAdvertisement => UpnpSendAdvertisement
  | .UpnpSubscribeAsync => UpnpSubscribeAsync
  | .UpnpSubscribe => UpnpSubscribe
  | .UpnpUnSubscribe => UpnpUnSubscribe
  | .UpnpUnSubscribeAsync => UpnpUnSubscribeAsync
  | .UpnpRenewSubscription => UpnpRenewSubscription
  | .UpnpRenewSubscriptionAsync => UpnpRenewSubscriptionAsync
  | .UpnpNotify => UpnpNotify
  | .UpnpNotifyExt => UpnpNotifyExt
  | .UpnpAcceptSubscription => UpnpAcceptSubscription
  | .UpnpAcceptSubscriptionExt => UpnpAcceptSubscriptionExt
  | .AdvertiseAndReply => AdvertiseAndReply
  | .UpnpThreadDistribution => UpnpThreadDistribution
  | .SsdpCallbackEventHandler => SsdpCallbackEventHandler
  | .AutoAdvertise => AutoAdvertise
  | .GenaAutoRenewSubscription => GenaAutoRenewSubscription
  | .genaUnregisterClient => genaUnregisterClient
  | .genaNotifyReceived => genaNotifyReceived
  | .genaUnSubscribe => genaUnSubscribe
  | .genaSubscribe => genaSubscribe
  | .genaRenewSubscription => genaRenewSubscription
  | .genaUnregisterDevice => genaUnregisterDevice
  | .genaNotifyThread => genaNotifyThread
  | .genaInitNotify => genaInitNotify
  | .genaInitNotifyExt => genaInitNotifyExt
  | .genaNotifyAllExt => genaNotifyAllExt
  | .genaNotifyAll => genaNotifyAll
  | .genaUnsubscribeRequest => genaUnsubscribeRequest
  | .genaRenewRequest => genaRenewRequest
  | .genaSubscriptionRequest => genaSubscriptionRequest
  | .genaSubscribeOrRenew => genaSubscribeOrRenew
  | .genaCallback => genaCallback

/-- A run of a function, from when it is called to its end or its first fault. -/
def Runs (takes : Fn → String → Bool → Bool) (f : Fn) (o : Outcome) : Prop :=
  Exec code takes f (code f) false o

/-! ## The lock on all paths -/

/-- The answers with which no test leads to an `HandleUnlock` without the lock: the SDK is
initialized when a root device or a client is registered, and there is memory for the headers of a
subscription. -/
def sound : Fn → String → Bool → Bool
  | .UpnpRegisterRootDevice, test, answer => !(test = "UpnpSdkInit != 1" && answer)
  | .UpnpRegisterClient, test, answer => !(test = "UpnpSdkInit != 1" && answer)
  | .genaSubscribe, test, answer => !(test = "headers==NULL" && answer)
  | _, _, _ => true

theorem balanced_code : Balanced code sound (· ≠ .UpnpRenewSubscriptionAsync) := by
  intro f hf
  cases f with
  | UpnpRenewSubscriptionAsync => exact absurd rfl (of_decide_eq_true hf)
  | _ => decide +kernel

/-- In every run of every function but `UpnpRenewSubscriptionAsync` in which the tests answer so, the
lock is never released while it is not held, never taken while it is, and not held at the end. -/
theorem handleLock_balanced {f : Fn} (hf : f ≠ .UpnpRenewSubscriptionAsync) {o : Outcome}
    (hruns : Runs sound f o) : ∃ e, o = .done e false ∧ e ≠ .broken :=
  hruns.released balanced_code (decide_eq_true hf)

/-- A subscription for a handle that is none. -/
theorem runs_UpnpSubscribe : Runs sound .UpnpSubscribe (.done .returned false) :=
  .seq .lock (.seq_exit (.ite_true rfl (.seq .unlock (.seq_exit .ret (by decide)))) (by decide))

theorem handleLock_balanced_subscribe :
    ∃ e, Outcome.done .returned false = .done e false ∧ e ≠ .broken :=
  handleLock_balanced (by decide) runs_UpnpSubscribe

/-- A test that releases the lock is not passed without it. -/
theorem leaves_alone {takes : Fn → String → Bool → Bool} {f : Fn} {test : String} {o : Outcome}
    (h : Exec code takes f (leaves test) false o) : o = .fault ∨ o = .done .normal false := by
  cases h with
  | ite_true _ hreturn =>
    cases hreturn with
    | seq hunlock _ => cases hunlock
    | seq_fault _ => exact .inl rfl
    | seq_exit hunlock _ => cases hunlock
  | ite_false _ hskip =>
    cases hskip
    exact .inr rfl

theorem leaves_free {takes : Fn → String → Bool → Bool} {f : Fn} {test : String} {s : Code}
    {o : Outcome} (h : Exec code takes f (.seq (leaves test) s) false o) :
    o = .fault ∨ Exec code takes f s false o := by
  cases h with
  | seq hleaves hs =>
    rcases leaves_alone hleaves with heq | heq
    · cases heq
    · cases heq
      exact .inr hs
  | seq_fault _ => exact .inl rfl
  | seq_exit hleaves hexit =>
    rcases leaves_alone hleaves with heq | heq
    · cases heq
    · cases heq
      exact absurd rfl hexit

/-- Every run of `UpnpRenewSubscriptionAsync` releases the lock that it does not hold. -/
theorem runs_UpnpRenewSubscriptionAsync {takes : Fn → String → Bool → Bool} {o : Outcome}
    (h : Runs takes .UpnpRenewSubscriptionAsync o) : o = .fault := by
  refine (leaves_free h).elim id fun h ↦ (leaves_free h).elim id fun h ↦
    (leaves_free h).elim id fun h ↦ (leaves_free h).elim id fun h ↦ ?_
  cases h with
  | seq hunlock _ => cases hunlock
  | seq_fault _ => rfl
  | seq_exit hunlock _ => cases hunlock

/-- Without the SDK the registration of a root device releases the lock that it does not hold. -/
theorem handleLock_register :
    ¬ ∀ f o, Runs (fun _ _ _ ↦ true) f o → ∃ e, o = .done e false ∧ e ≠ .broken := by
  intro h
  have hruns : Runs (fun _ _ _ ↦ true) .UpnpRegisterRootDevice .fault :=
    .seq_fault (.ite_true rfl (.seq_fault .unlock_free))
  obtain ⟨e, heq, -⟩ := h _ _ hruns
  cases heq

end Upnp.Api
