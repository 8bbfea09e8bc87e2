import Upnp.Gena.RequestInvariant

/-!
# Responses on the wire

`respond` compares the length of a response with what `write_bytes` returns,
which is the size of its last send.  The two agree when the first send takes the
whole response.  What the handlers of subscription requests then do depends on
that comparison, while the subscriber goes by the bytes.
-/

namespace Upnp.Gena

open Upnp.Lib

def UPNP_E_SOCKET_WRITE : Int := -201

/-! ## Sending -/

/-- The loop of `write_bytes` from `ptr`: what it returns, and the bytes handed to the socket.
`sends` is how many bytes the socket is ready to take each time; a call that fails or times out
answers zero or less, and so do all behind the end of the list. -/
def writeBytes (bytes_written : Int) : CString → List Int → Int × CString
  | [], _ => (bytes_written, [])
  | _ :: _, [] => (-1, [])
  | c :: ptr, r :: sends =>
    if r ≤ 0 then (-1, [])
    else
      let k := min r.toNat (c :: ptr).length
      let (ret, handed) := writeBytes k ((c :: ptr).drop k) sends
      (ret, (c :: ptr).take k ++ handed)
termination_by structural _ sends => sends

/-- `respond`: its return code, and the bytes handed to the socket. -/
def respond (sends : List Int) (message : CString) : Int × CString :=
  let (return_code, handed) := writeBytes 0 message sends
  (if return_code ≠ message.length then UPNP_E_SOCKET_WRITE else UPNP_E_SUCCESS, handed)

/-- The socket takes `n` bytes before a send fails. -/
def Takes : Nat → List Int → Prop
  | 0, _ => True
  | _ + 1, [] => False
  | n + 1, r :: sends => 0 < r ∧ Takes (n + 1 - r.toNat) sends
termination_by structural _ sends => sends

/-- The first send takes all of `n` bytes, or a send fails before the socket has taken them. -/
def FirstOrNever (n : Nat) (sends : List Int) : Prop :=
  (∃ r ∈ sends.head?, (n : Int) ≤ r) ∨ ¬Takes n sends

variable {bytes : CString} {sends : List Int}

@[simp] theorem writeBytes_nil (b : Int) : writeBytes b [] sends = (b, []) := by
  cases sends <;> rfl

theorem takes_zero : Takes 0 sends := by
  cases sends <;> trivial

theorem takes_of_first {n : Nat} {r : Int} (hr : (n : Int) ≤ r) : Takes n (r :: sends) := by
  cases n with
  | zero => exact takes_zero
  | succ n =>
    refine ⟨by omega, ?_⟩
    rw [show n + 1 - r.toNat = 0 by omega]
    exact takes_zero

/-- All bytes are handed over when the socket takes them. -/
theorem writeBytes_handed (b : Int) :
    (writeBytes b bytes sends).2 = bytes ↔ Takes bytes.length sends := by
  induction sends generalizing bytes b with
  | nil =>
    cases bytes with
    | nil => simp [takes_zero]
    | cons c ptr => simp [writeBytes, Takes]
  | cons r sends ih =>
    cases bytes with
    | nil => simp [takes_zero]
    | cons c ptr =>
      rw [List.length_cons]
      simp only [writeBytes, Takes]
      by_cases hr : r ≤ 0
      · simp [hr, not_lt.mpr hr]
      · rw [if_neg hr]
        simp only [not_le.mp hr, true_and]
        set k := min r.toNat (c :: ptr).length with hk
        have hlen : ((c :: ptr).drop k).length = ptr.length + 1 - r.toNat := by
          rw [List.length_drop, hk, List.length_cons]
          omega
        rw [← hlen, ← ih k]
        conv_lhs => rhs; rw [← List.take_append_drop k (c :: ptr)]
        rw [List.append_cancel_left_eq]

/-- The loop returns no more than the bytes it was left with. -/
theorem writeBytes_le (b : Int) (hne : bytes ≠ []) :
    (writeBytes b bytes sends).1 ≤ bytes.length := by
  induction sends generalizing bytes b with
  | nil =>
    cases bytes with
    | nil => exact absurd rfl hne
    | cons c ptr =>
      show (-1 : Int) ≤ _
      omega
  | cons r sends ih =>
    cases bytes with
    | nil => exact absurd rfl hne
    | cons c ptr =>
      simp only [writeBytes]
      split
      · show (-1 : Int) ≤ _
        omega
      · dsimp only
        set k := min r.toNat (c :: ptr).length with hk
        by_cases hrest : (c :: ptr).drop k = []
        · rw [hrest, writeBytes_nil]
          omega
        · refine (ih k hrest).trans ?_
          rw [List.length_drop]
          omega

/-- The loop returns the length of its message when the first send takes the whole. -/
theorem writeBytes_ret (b : Int) (hne : bytes ≠ []) :
    (writeBytes b bytes sends).1 = bytes.length ↔ ∃ r ∈ sends.head?, (bytes.length : Int) ≤ r := by
  obtain ⟨c, ptr, rfl⟩ := List.exists_cons_of_ne_nil hne
  cases sends with
  | nil =>
    simp only [writeBytes, List.head?_nil, Option.mem_def, reduceCtorEq, false_and, exists_false]
  | cons r sends =>
    simp only [writeBytes, List.head?_cons, Option.mem_def, Option.some.injEq, exists_eq_left']
    by_cases hr : r ≤ 0
    · rw [if_pos hr, List.length_cons]
      push_cast
      omega
    · rw [if_neg hr]
      dsimp only
      set k := min r.toNat (c :: ptr).length with hk
      by_cases hrest : (c :: ptr).drop k = []
      · rw [hrest, writeBytes_nil]
        have hlen := congrArg List.length hrest
        rw [List.length_drop, List.length_nil] at hlen
        omega
      · have hle := @writeBytes_le _ sends k hrest
        have hlen := List.length_pos_iff.mpr hrest
        rw [List.length_drop] at hle hlen
        omega

/-- `respond` reports success exactly when all is handed over, if the first send takes the whole or
the socket does not take it. -/
theorem respond_agrees_iff {message : CString} (hne : message ≠ []) :
    ((respond sends message).1 = UPNP_E_SUCCESS ↔ (respond sends message).2 = message) ↔
      FirstOrNever message.length sends := by
  have hcode : (respond sends message).1 = UPNP_E_SUCCESS ↔
      ∃ r ∈ sends.head?, (message.length : Int) ≤ r := by
    rw [← writeBytes_ret 0 hne]
    unfold respond
    dsimp only
    split
    case isTrue h => simp [UPNP_E_SOCKET_WRITE, UPNP_E_SUCCESS, h]
    case isFalse h => simpa using not_not.mp h
  have hhanded : (respond sends message).2 = message ↔ Takes message.length sends :=
    writeBytes_handed 0
  -- one send that takes the whole is a way to take it
  have htakes : (∃ r ∈ sends.head?, (message.length : Int) ≤ r) → Takes message.length sends := by
    rintro ⟨r, hr, hle⟩
    obtain ⟨rest, rfl⟩ := List.head?_eq_some_iff.mp hr
    exact takes_of_first hle
  rw [hcode, hhanded]
  unfold FirstOrNever
  constructor
  · intro h
    by_cases ht : Takes message.length sends
    · exact .inl (h.mpr ht)
    · exact .inr ht
  · rintro (h | h)
    · exact ⟨htakes, fun _ ↦ h⟩
    · exact ⟨htakes, fun ht ↦ absurd ht h⟩

/-! ## The handlers on the wire -/

/-- The texts of the responses without a SID. -/
def UNABLE_MEMORY : CString := "HTTP/1.1 500 Internal Server Error\r\n\r\n".toList

/-- The socket of a request, and what the response `200 OK` is made of. -/
structure Wire where
  /-- How many bytes the socket takes each time; see `writeBytes`. -/
  sends : List Int
  /-- The allocation of `temp` in `respondOK`. -/
  tempAllocOk : Bool
  /-- The `DATE` header. -/
  httpDate : CString
  sysname : CString
  release : CString

/-- The message `respondOK` builds. -/
def Wire.okMessage (w : Wire) (time_out : Int) (sid : CString) : CString :=
  "HTTP/1.1 200 OK\r\n".toList ++ w.httpDate ++
    ("SERVER: ".toList ++ w.sysname ++ "/".toList ++ w.release ++
      " UPnP/1.0 Intel UPnP SDK/1.0\r\n".toList) ++
    ("SID: ".toList ++ sid ++ "\r\n".toList) ++
    if time_out ≥ 0 then "TIMEOUT: Second-".toList ++ decimal time_out ++ "\r\n\r\n".toList
    else "TIMEOUT: Second-infinite\r\n\r\n".toList

/-- What became of a response. -/
structure Answer where
  /-- The message given to `respond`. -/
  message : CString
  /-- The SID of a `200 OK` that grants a subscription. -/
  sid : Option CString
  /-- What `respond` returned. -/
  reported : Int
  /-- What the handler sees: the value of `respond`, or of `respondOK`. -/
  result : Int
  /-- The bytes handed to the socket. -/
  handed : CString

/-- A message sent by `respond`. -/
def Wire.send (w : Wire) (message : CString) (sid : Option CString) : Answer :=
  let (return_code, handed) := respond w.sends message
  ⟨message, sid, return_code, return_code, handed⟩

/-- The response of a handler, sent. -/
def Wire.answer (w : Wire) : Response → Answer
  | .BAD_CALLBACK => w.send "HTTP/1.1 412 Precondition Failed\r\n\r\n".toList none
  | .BAD_REQUEST => w.send "HTTP/1.1 400 Bad Request\r\n\r\n".toList none
  | .UNABLE_MEMORY => w.send UNABLE_MEMORY none
  | .UNABLE_SERVICE_UNKNOWN => w.send "HTTP/1.1 404 Not Found\r\n\r\n".toList none
  | .HTTP_OK_CRLF => w.send "HTTP/1.1 200 OK\r\n\r\n".toList none
  | .respondOK time_out sid =>
    if w.tempAllocOk then w.send (w.okMessage time_out sid) (some sid)
    else { w.send UNABLE_MEMORY none with result := UPNP_E_OUTOF_MEMORY }

/-- The complete `200 OK` with its SID was handed to the socket. -/
def Answer.Granted (a : Answer) : Prop := a.sid ≠ none ∧ a.handed = a.message

/-- A handler with its response sent.  Which response a handler gives does not depend on what
becomes of it. -/
def onWire (handler : RequestEnv → State × Response) (w : Wire) (env : RequestEnv) :
    State × Answer :=
  let a := w.answer (handler { env with respondOk := true }).2
  ((handler { env with respondOk := a.result = UPNP_E_SUCCESS }).1, a)

variable (samePath : CString → CString → Bool)

/-- `genaSubscriptionRequest` on the wire. -/
def subscribeOnWire (w : Wire) (env : RequestEnv) (s : State) (request : HttpRequest) :
    State × Answer :=
  onWire (fun env ↦ genaSubscriptionRequest samePath env s request) w env

/-- The `UPNP_EVENT_SUBSCRIPTION_REQUEST` callback at the end of `genaSubscriptionRequest`: the
service's id, its UDN and the SID. -/
def subscriptionCallback (w : Wire) (env : RequestEnv) (s : State) (request : HttpRequest) :
    Option (CString × CString × CString) :=
  let a := (subscribeOnWire samePath w env s request).2
  if a.result = UPNP_E_SUCCESS then
    a.sid.bind fun sid ↦ (requestedService samePath s request).map fun (_, _, svc) ↦
      (svc.serviceId, svc.udn, sid)
  else none

/-- `genaRenewRequest` on the wire. -/
def renewOnWire (w : Wire) (env : RequestEnv) (s : State) (request : HttpRequest)
    (uninit : CString) : State × Answer :=
  onWire (fun env ↦ genaRenewRequest samePath env s request uninit) w env

/-- The new subscription was entered and the application called back. -/
def Kept (s s' : State) (a : Answer) (callback : Option (CString × CString × CString)) : Prop :=
  ∃ l svc, ∃ sub : Subscription, s.service l = some svc ∧ a.sid = some sub.sid ∧
    callback = some (svc.serviceId, svc.udn, sub.sid) ∧
    s'.handleTable = (s.setService l { svc with
      subscriptionList := sub :: svc.subscriptionList
      totalSubscriptions := svc.totalSubscriptions + 1 }).handleTable

/-- A subscription request and the wire agree. -/
structure SubscribeAgrees (w : Wire) (env : RequestEnv) (s : State) (request : HttpRequest) :
    Prop where
  respond : (subscribeOnWire samePath w env s request).2.reported = UPNP_E_SUCCESS ↔
    (subscribeOnWire samePath w env s request).2.handed =
      (subscribeOnWire samePath w env s request).2.message
  kept : Kept s (subscribeOnWire samePath w env s request).1
      (subscribeOnWire samePath w env s request).2 (subscriptionCallback samePath w env s request) ↔
    (subscribeOnWire samePath w env s request).2.Granted
  undone : ¬(subscribeOnWire samePath w env s request).2.Granted →
    (subscribeOnWire samePath w env s request).1.handleTable = s.handleTable ∧
      subscriptionCallback samePath w env s request = none

/-- A subscription that was listed is not listed any more. -/
def Dropped (s s' : State) : Prop :=
  ∃ l svc svc', s.service l = some svc ∧ s'.service l = some svc' ∧
    (svc'.subscriptionList.map Subscription.sid ≠ svc.subscriptionList.map Subscription.sid ∨
      svc'.totalSubscriptions ≠ svc.totalSubscriptions)

/-- A renewal and the wire agree. -/
structure RenewAgrees (w : Wire) (env : RequestEnv) (s : State) (request : HttpRequest)
    (uninit : CString) : Prop where
  respond : (renewOnWire samePath w env s request uninit).2.reported = UPNP_E_SUCCESS ↔
    (renewOnWire samePath w env s request uninit).2.handed =
      (renewOnWire samePath w env s request uninit).2.message
  dropped : Dropped s (renewOnWire samePath w env s request uninit).1 →
    ¬(renewOnWire samePath w env s request uninit).2.Granted

variable {samePath} {w : Wire} {env : RequestEnv} {s : State} {request : HttpRequest}
  {uninit : CString}

/-! ## What a response comes to -/

theorem ne_nil_of_ne {t : String} (ht : t ≠ "") : t.toList ≠ [] :=
  fun h ↦ ht (String.toList_eq_nil_iff.mp h)

theorem okMessage_ne_nil (w : Wire) (time_out : Int) (sid : CString) :
    w.okMessage time_out sid ≠ [] := by
  unfold Wire.okMessage
  simp only [List.append_assoc]
  exact List.append_ne_nil_of_left_ne_nil (ne_nil_of_ne (by simp)) _

/-- What `send` records is what `respond` did. -/
theorem send_respond (w : Wire) (message : CString) (sid : Option CString) :
    ((w.send message sid).reported, (w.send message sid).handed) =
      respond w.sends (w.send message sid).message := rfl

/-- The messages of the responses that grant nothing. -/
theorem answer_error {r : Response} (hr : ∀ time_out sid, r ≠ .respondOK time_out sid) :
    ∃ message : CString, message ≠ [] ∧ w.answer r = w.send message none := by
  cases r with
  | respondOK time_out sid => exact absurd rfl (hr time_out sid)
  | BAD_CALLBACK => exact ⟨_, ne_nil_of_ne (by simp), rfl⟩
  | BAD_REQUEST => exact ⟨_, ne_nil_of_ne (by simp), rfl⟩
  | UNABLE_MEMORY => exact ⟨UNABLE_MEMORY, ne_nil_of_ne (by simp), rfl⟩
  | UNABLE_SERVICE_UNKNOWN => exact ⟨_, ne_nil_of_ne (by simp), rfl⟩
  | HTTP_OK_CRLF => exact ⟨_, ne_nil_of_ne (by simp), rfl⟩

/-- `respondOK` sends its message, or answers that memory ran out. -/
theorem answer_ok (w : Wire) (time_out : Int) (sid : CString) :
    w.answer (.respondOK time_out sid) = w.send (w.okMessage time_out sid) (some sid) ∨
      w.answer (.respondOK time_out sid) =
        { w.send UNABLE_MEMORY none with result := UPNP_E_OUTOF_MEMORY } := by
  rw [Wire.answer]
  split
  · exact .inl rfl
  · exact .inr rfl

/-- No response is empty, and each is sent by `respond`. -/
theorem answer_respond (w : Wire) (r : Response) :
    (w.answer r).message ≠ [] ∧
      ((w.answer r).reported, (w.answer r).handed) = respond w.sends (w.answer r).message := by
  by_cases hr : ∃ time_out sid, r = .respondOK time_out sid
  · obtain ⟨time_out, sid, rfl⟩ := hr
    rcases answer_ok w time_out sid with h | h <;> rw [h]
    · exact ⟨okMessage_ne_nil w time_out sid, send_respond ..⟩
    · exact ⟨ne_nil_of_ne (by simp), send_respond w UNABLE_MEMORY none⟩
  · obtain ⟨message, hne, h⟩ := answer_error (w := w) fun t sid heq ↦ hr ⟨t, sid, heq⟩
    rw [h]
    exact ⟨hne, send_respond ..⟩

/-- The responses other than `200 OK` with a SID grant nothing. -/
theorem answer_sid_none {r : Response} (hr : ∀ time_out sid, r ≠ .respondOK time_out sid) :
    (w.answer r).sid = none := by
  obtain ⟨message, -, h⟩ := answer_error (w := w) hr
  rw [h]
  rfl

/-- `respondOK` sends its message and passes the value of `respond` on, or fails. -/
theorem answer_respondOK (w : Wire) (time_out : Int) (sid : CString) :
    ((w.answer (.respondOK time_out sid)).sid = some sid ∧
      (w.answer (.respondOK time_out sid)).result = (w.answer (.respondOK time_out sid)).reported) ∨
    ((w.answer (.respondOK time_out sid)).sid = none ∧
      (w.answer (.respondOK time_out sid)).result ≠ UPNP_E_SUCCESS) := by
  rcases answer_ok w time_out sid with h | h <;> rw [h]
  · exact .inl ⟨rfl, rfl⟩
  · exact .inr ⟨rfl, by simp [UPNP_E_OUTOF_MEMORY, UPNP_E_SUCCESS]⟩

/-- With `respond` true to the wire, a `200 OK` is granted exactly when the handler sees success. -/
theorem granted_iff {time_out : Int} {sid : CString}
    (h : (w.answer (.respondOK time_out sid)).reported = UPNP_E_SUCCESS ↔
      (w.answer (.respondOK time_out sid)).handed = (w.answer (.respondOK time_out sid)).message) :
    (w.answer (.respondOK time_out sid)).Granted ↔
      (w.answer (.respondOK time_out sid)).result = UPNP_E_SUCCESS := by
  unfold Answer.Granted
  rcases answer_respondOK w time_out sid with ⟨hsid, hres⟩ | ⟨hsid, hres⟩
  · rw [hsid, hres, h]
    simp
  · simp [hsid, hres]

/-! ## Subscription requests -/

/-- The part of `genaSubscriptionRequest` before `respondOK`: the service, the time granted and the
new subscription, or the error that is answered. -/
def grantSubscription (samePath : CString → CString → Bool) (env : RequestEnv) (s : State)
    (request : HttpRequest) : Except Response (HandleInfo × Loc × ServiceInfo × Int × Subscription) :=
  match request.header "NT".toList with
  | none => .error .BAD_CALLBACK
  | some nt =>
    if !acceptedNT nt then .error .BAD_CALLBACK
    else if (request.header "SID".toList).isSome then .error .BAD_REQUEST
    else if !env.pathAllocOk then .error .UNABLE_MEMORY
    else
      match requestedService samePath s request with
      | none => .error .UNABLE_SERVICE_UNKNOWN
      | some (info, l, svc) =>
        if !svc.active then .error .UNABLE_SERVICE_UNKNOWN
        else if info.maxSubscriptions ≠ -1 ∧ svc.totalSubscriptions ≥ info.maxSubscriptions then
          .error .UNABLE_MEMORY
        else if !env.subAllocOk then .error .UNABLE_MEMORY
        else
          match (request.header "CALLBACK".toList).map fun t ↦ env.createURLList t.text with
          | none => .error .BAD_CALLBACK
          | some none => .error .UNABLE_MEMORY
          | some (some []) => .error .BAD_CALLBACK
          | some (some urls) =>
            let time_out :=
              grantedTimeout info.maxSubscriptionTimeOut (request.header "TIMEOUT".toList)
            .ok (info, l, svc, time_out,
              { sid := "uuid:".toList ++ env.uuid, eventKey := 0, toSendEventKey := 0,
                expireTime := expireTimeOf env.now time_out, active := false,
                deliveryURLs := urls })

/-- The handler answers the error, or enters its subscription if the `200 OK` could be sent. -/
theorem genaSubscriptionRequest_eq (env : RequestEnv) (s : State) (request : HttpRequest) :
    genaSubscriptionRequest samePath env s request =
      match grantSubscription samePath env s request with
      | .error r => (s, r)
      | .ok (_, l, svc, time_out, sub) =>
        (if env.respondOk then ({ s with sids := sub.sid :: s.sids }).setService l
          { svc with
            subscriptionList := sub :: svc.subscriptionList
            totalSubscriptions := svc.totalSubscriptions + 1 }
          else { s with sids := sub.sid :: s.sids }, .respondOK time_out sub.sid) := by
  unfold genaSubscriptionRequest grantSubscription
  cases request.header "NT".toList with
  | none => rfl
  | some nt =>
    dsimp only
    split
    · rfl
    split
    · rfl
    split
    · rfl
    cases requestedService samePath s request with
    | none => rfl
    | some p =>
      obtain ⟨info, l, svc⟩ := p
      dsimp only
      split
      · rfl
      split
      · rfl
      split
      · rfl
      generalize (request.header "CALLBACK".toList).map (fun t ↦ env.createURLList t.text) = urls
      rcases urls with _ | _ | _ | ⟨url, urls⟩
      · rfl
      · rfl
      · rfl
      · cases env.respondOk <;> rfl

/-- The errors are no `200 OK`, and the service is the one the request selects. -/
theorem grantSubscription_cases (env : RequestEnv) (s : State) (request : HttpRequest) :
    (∃ r, grantSubscription samePath env s request = .error r ∧
      ∀ time_out sid, r ≠ .respondOK time_out sid) ∨
    ∃ info l svc time_out sub, grantSubscription samePath env s request =
      .ok (info, l, svc, time_out, sub) ∧
      requestedService samePath s request = some (info, l, svc) := by
  unfold grantSubscription
  cases request.header "NT".toList with
  | none => exact .inl ⟨_, rfl, nofun⟩
  | some nt =>
    dsimp only
    split
    · exact .inl ⟨_, rfl, nofun⟩
    split
    · exact .inl ⟨_, rfl, nofun⟩
    split
    · exact .inl ⟨_, rfl, nofun⟩
    cases hreq : requestedService samePath s request with
    | none => exact .inl ⟨_, rfl, nofun⟩
    | some p =>
      obtain ⟨info, l, svc⟩ := p
      dsimp only
      split
      · exact .inl ⟨_, rfl, nofun⟩
      split
      · exact .inl ⟨_, rfl, nofun⟩
      split
      · exact .inl ⟨_, rfl, nofun⟩
      split
      · exact .inl ⟨_, rfl, nofun⟩
      · exact .inl ⟨_, rfl, nofun⟩
      · exact .inl ⟨_, rfl, nofun⟩
      · exact .inr ⟨info, l, svc, _, _, rfl, rfl⟩

/-- A subscription request changes nothing and answers an error, or enters its subscription if the
`200 OK` could be sent. -/
theorem subscriptionRequest_outcome (env : RequestEnv) (s : State) (request : HttpRequest) :
    (∃ r, (∀ time_out sid, r ≠ .respondOK time_out sid) ∧
      ∀ b, genaSubscriptionRequest samePath { env with respondOk := b } s request = (s, r)) ∨
    ∃ info l svc time_out, ∃ sub : Subscription,
      requestedService samePath s request = some (info, l, svc) ∧
      ∀ b, genaSubscriptionRequest samePath { env with respondOk := b } s request =
        (if b then ({ s with sids := sub.sid :: s.sids }).setService l
          { svc with
            subscriptionList := sub :: svc.subscriptionList
            totalSubscriptions := svc.totalSubscriptions + 1 }
          else { s with sids := sub.sid :: s.sids }, .respondOK time_out sub.sid) := by
  have hplan : ∀ b, grantSubscription samePath { env with respondOk := b } s request =
      grantSubscription samePath env s request := fun _ ↦ rfl
  rcases @grantSubscription_cases samePath env s request with
    ⟨r, heq, hr⟩ | ⟨info, l, svc, time_out, sub, heq, hreq⟩
  · exact .inl ⟨r, hr, fun b ↦ by rw [genaSubscriptionRequest_eq, hplan, heq]⟩
  · exact .inr ⟨info, l, svc, time_out, sub, hreq,
      fun b ↦ by rw [genaSubscriptionRequest_eq, hplan, heq]⟩

/-- With `respond` true to the wire, so is the request. -/
theorem SubscribeAgrees.of_respond
    (h : (subscribeOnWire samePath w env s request).2.reported = UPNP_E_SUCCESS ↔
      (subscribeOnWire samePath w env s request).2.handed =
        (subscribeOnWire samePath w env s request).2.message) :
    SubscribeAgrees samePath w env s request := by
  rcases @subscriptionRequest_outcome samePath env s request with
    ⟨r, hr, heq⟩ | ⟨info, l, svc, time_out, sub, hreq, heq⟩
  · -- an error: nothing is granted, nothing is kept
    have hwire : subscribeOnWire samePath w env s request = (s, w.answer r) := by
      simp only [subscribeOnWire, onWire, heq]
    have hsid : (w.answer r).sid = none := answer_sid_none hr
    have hcall : subscriptionCallback samePath w env s request = none := by
      unfold subscriptionCallback
      rw [hwire]
      dsimp only
      rw [hsid, Option.bind_none, ite_self]
    refine ⟨h, ?_, ?_⟩
    · rw [hwire, hcall]
      constructor
      · rintro ⟨_, _, _, _, _, hnone, _⟩
        cases hnone
      · exact fun hg ↦ absurd hsid hg.1
    · rw [hwire]
      exact fun _ ↦ ⟨rfl, hcall⟩
  · have hwire : subscribeOnWire samePath w env s request =
        (if (w.answer (.respondOK time_out sub.sid)).result = UPNP_E_SUCCESS then
          ({ s with sids := sub.sid :: s.sids }).setService l
            { svc with
              subscriptionList := sub :: svc.subscriptionList
              totalSubscriptions := svc.totalSubscriptions + 1 }
          else { s with sids := sub.sid :: s.sids }, w.answer (.respondOK time_out sub.sid)) := by
      simp only [subscribeOnWire, onWire, heq, decide_eq_true_eq]
    rw [hwire] at h
    have hgranted := granted_iff h
    by_cases hres : (w.answer (.respondOK time_out sub.sid)).result = UPNP_E_SUCCESS
    · have hsid : (w.answer (.respondOK time_out sub.sid)).sid = some sub.sid := by
        rcases answer_respondOK w time_out sub.sid with ⟨hsid, -⟩ | ⟨-, hne⟩
        · exact hsid
        · exact absurd hres hne
      have hcall : subscriptionCallback samePath w env s request =
          some (svc.serviceId, svc.udn, sub.sid) := by
        unfold subscriptionCallback
        rw [hwire, if_pos hres, hsid, hreq]
        rfl
      refine ⟨by rw [hwire]; exact h, ?_, ?_⟩
      · rw [hwire, if_pos hres, hcall]
        refine iff_of_true ?_ (hgranted.mpr hres)
        exact ⟨l, svc, sub, service_of_requestedService hreq, hsid, rfl, rfl⟩
      · rw [hwire]
        exact fun hng ↦ absurd (hgranted.mpr hres) hng
    · have hcall : subscriptionCallback samePath w env s request = none := by
        unfold subscriptionCallback
        rw [hwire, if_neg hres]
      refine ⟨by rw [hwire]; exact h, ?_, ?_⟩
      · rw [hwire, hcall]
        refine iff_of_false ?_ (fun hg ↦ hres (hgranted.mp hg))
        rintro ⟨_, _, _, _, _, hnone, _⟩
        cases hnone
      · rw [hwire, if_neg hres]
        exact fun _ ↦ ⟨rfl, hcall⟩

/-! ## Renewals -/

/-- The errors of the shared checks are no `200 OK`. -/
theorem requestedSID_error {r : Response} (h : requestedSID env request uninit = .error r)
    (time_out : Int) (sid : CString) : r ≠ .respondOK time_out sid := by
  unfold requestedSID at h
  split at h
  · cases h
    nofun
  cases hsid : request.header "SID".toList with
  | none =>
    simp only [hsid] at h
    cases h
    nofun
  | some t =>
    simp only [hsid] at h
    split at h
    · cases h
      nofun
    split at h
    · cases h
      nofun
    · cases h

/-- A renewal changes nothing that was granted and answers an error, or keeps its subscription if
the `200 OK` could be sent. -/
theorem renewRequest_outcome (env : RequestEnv) (s : State) (request : HttpRequest)
    (uninit : CString) :
    (∃ r, (∀ time_out sid, r ≠ .respondOK time_out sid) ∧
      (genaRenewRequest samePath env s request uninit).2 = r) ∨
    ∃ l svc sid time_out f, s.service l = some svc ∧ (∀ sub : Subscription, (f sub).sid = sub.sid) ∧
      (genaRenewRequest samePath env s request uninit).2 = .respondOK time_out sid ∧
      (env.respondOk = true →
        (genaRenewRequest samePath env s request uninit).1 =
          s.setService l (svc.modifySID sid f)) := by
  unfold genaRenewRequest
  cases hsid : requestedSID env request uninit with
  | error r => exact .inl ⟨r, requestedSID_error hsid, rfl⟩
  | ok sid =>
    cases hreq : requestedService samePath s request with
    | none => exact .inl ⟨.BAD_CALLBACK, nofun, rfl⟩
    | some p =>
      obtain ⟨info, l, svc⟩ := p
      have hs := service_of_requestedService hreq
      dsimp only
      split
      · exact .inl ⟨.BAD_CALLBACK, nofun, rfl⟩
      rcases getSubscriptionSID_cases svc sid env.now with
        ⟨hg, -⟩ | ⟨_, -, -, -, hg⟩ | ⟨sub, -, -, -, -, hg⟩ <;> rw [hg] <;> dsimp only
      · exact .inl ⟨.BAD_CALLBACK, nofun, rfl⟩
      · exact .inl ⟨.BAD_CALLBACK, nofun, rfl⟩
      · split
        · exact .inl ⟨.UNABLE_MEMORY, nofun, rfl⟩
        · generalize grantedTimeout info.maxSubscriptionTimeOut (request.header "TIMEOUT".toList) = t
          refine .inr ⟨l, svc, sid, t, fun sub ↦ { sub with expireTime := expireTimeOf env.later t },
            hs, fun _ ↦ rfl, rfl, fun hok ↦ ?_⟩
          rw [hok]
          rfl

/-- Which response a renewal gives does not depend on what becomes of it. -/
theorem renewRequest_response (env : RequestEnv) (s : State) (request : HttpRequest)
    (uninit : CString) (b : Bool) :
    (genaRenewRequest samePath { env with respondOk := b } s request uninit).2 =
      (genaRenewRequest samePath env s request uninit).2 := by
  unfold genaRenewRequest
  rw [show requestedSID { env with respondOk := b } request uninit =
    requestedSID env request uninit from rfl]
  cases requestedSID env request uninit with
  | error r => rfl
  | ok sid =>
    cases requestedService samePath s request with
    | none => rfl
    | some p =>
      obtain ⟨info, l, svc⟩ := p
      dsimp only
      split
      · rfl
      generalize getSubscriptionSID env.now sid svc = found
      obtain ⟨svc', _ | sub⟩ := found
      · rfl
      · dsimp only
        split
        · rfl
        · rfl

/-- With `respond` true to the wire, so is the renewal. -/
theorem RenewAgrees.of_respond
    (h : (renewOnWire samePath w env s request uninit).2.reported = UPNP_E_SUCCESS ↔
      (renewOnWire samePath w env s request uninit).2.handed =
        (renewOnWire samePath w env s request uninit).2.message) :
    RenewAgrees samePath w env s request uninit := by
  refine ⟨h, fun hdrop hgranted ↦ ?_⟩
  rcases @renewRequest_outcome samePath
      { env with respondOk := (renewOnWire samePath w env s request uninit).2.result =
        UPNP_E_SUCCESS } s request uninit with
    ⟨r, hr, heq⟩ | ⟨l, svc, sid, time_out, f, hs, hf, heq, hstate⟩
  · rw [renewRequest_response] at heq
    have ha : (renewOnWire samePath w env s request uninit).2 = w.answer r := by
      show w.answer (genaRenewRequest samePath { env with respondOk := true } s request uninit).2 = _
      rw [renewRequest_response, heq]
    rw [ha] at hgranted
    exact hgranted.1 (answer_sid_none hr)
  · rw [renewRequest_response] at heq
    have ha : (renewOnWire samePath w env s request uninit).2 =
        w.answer (.respondOK time_out sid) := by
      show w.answer (genaRenewRequest samePath { env with respondOk := true } s request uninit).2 = _
      rw [renewRequest_response, heq]
    rw [ha] at h hgranted
    have hres := (granted_iff h).mp hgranted
    have hkept : (renewOnWire samePath w env s request uninit).1 =
        s.setService l (svc.modifySID sid f) := by
      apply hstate
      rw [ha]
      exact decide_eq_true hres
    -- the service's SIDs and its count are as before
    obtain ⟨l', svc₁, svc₂, h₁, h₂, hne⟩ := hdrop
    rw [hkept, State.service_setService hs] at h₂
    by_cases hl : l' = l
    · subst hl
      rw [if_pos rfl] at h₂
      cases hs.symm.trans h₁
      cases h₂
      rcases hne with hne | hne
      · exact hne (map_modifyFirst hf _)
      · exact hne rfl
    · rw [if_neg hl, h₁] at h₂
      cases h₂
      rcases hne with hne | hne
      · exact hne rfl
      · exact hne rfl

/-! ## Requests agree with the wire -/

/-- A request for a subscription, or for its renewal. -/
inductive RequestKind where
  | subscribe
  /-- With what the local buffer of the SID held before. -/
  | renew (uninit : CString)

/-- What became of the response to a request. -/
def requestAnswer (samePath : CString → CString → Bool) (w : Wire) (env : RequestEnv) (s : State)
    (request : HttpRequest) : RequestKind → Answer
  | .subscribe => (subscribeOnWire samePath w env s request).2
  | .renew uninit => (renewOnWire samePath w env s request uninit).2

/-- `respond` reports success exactly when all of the response was handed to the socket, and the
handler goes by that. -/
def RequestAgrees (samePath : CString → CString → Bool) (w : Wire) (env : RequestEnv) (s : State)
    (request : HttpRequest) : RequestKind → Prop
  | .subscribe => SubscribeAgrees samePath w env s request
  | .renew uninit => RenewAgrees samePath w env s request uninit

/-- A request agrees with the wire exactly when the first send takes the whole response, or the
socket does not take it. -/
theorem request_agrees_iff (samePath : CString → CString → Bool) (w : Wire) (env : RequestEnv)
    (s : State) (request : HttpRequest) (kind : RequestKind) :
    RequestAgrees samePath w env s request kind ↔
      FirstOrNever (requestAnswer samePath w env s request kind).message.length w.sends := by
  have hrespond : ((requestAnswer samePath w env s request kind).reported = UPNP_E_SUCCESS ↔
      (requestAnswer samePath w env s request kind).handed =
        (requestAnswer samePath w env s request kind).message) ↔
      FirstOrNever (requestAnswer samePath w env s request kind).message.length w.sends := by
    obtain ⟨hne, hsent⟩ : (requestAnswer samePath w env s request kind).message ≠ [] ∧
        ((requestAnswer samePath w env s request kind).reported,
          (requestAnswer samePath w env s request kind).handed) =
        respond w.sends (requestAnswer samePath w env s request kind).message := by
      cases kind with
      | subscribe => exact answer_respond w _
      | renew uninit => exact answer_respond w _
    rw [← respond_agrees_iff hne, ← hsent]
  rw [← hrespond]
  cases kind with
  | subscribe => exact ⟨fun h ↦ h.respond, fun h ↦ .of_respond h⟩
  | renew uninit => exact ⟨fun h ↦ h.respond, fun h ↦ .of_respond h⟩

/-! ## A response in two sends -/

/-- A device with one service and no subscriptions. -/
def oneService : State where
  handleTable h := if h = 1 then
    some ⟨.HND_DEVICE, [⟨"s".toList, "u".toList, some "/e".toList, true, 0, []⟩], -1, -1⟩ else none
  pool := 0
  counters _ := none
  nextCounter := 0
  sids := []
  sends := []

/-- A request to subscribe to its events. -/
def subscribeRequest : HttpRequest where
  header h :=
    if h = "NT".toList then some ⟨"upnp:event".toList, "\r\n".toList⟩
    else if h = "CALLBACK".toList then some ⟨"<http://10.0.0.2/>".toList, "\r\n".toList⟩
    else none
  pathquery := "/e".toList

/-- An environment in which everything can be had. -/
def plentiful : RequestEnv where
  now := 0
  later := 0
  pathAllocOk := true
  subAllocOk := true
  createURLList url := some [url]
  respondOk := true
  uuid := "7".toList

/-- A socket that takes the response in the pieces given. -/
def piecewise (sends : List Int) : Wire := ⟨sends, true, [], "Linux".toList, "2.4".toList⟩

/-- The whole `200 OK` is handed over in two sends; the subscription is not entered. -/
theorem grant_undone :
    let r := subscribeOnWire (· = ·) (piecewise [20, 1000]) plentiful oneService subscribeRequest
    r.2.Granted ∧ r.2.reported = UPNP_E_SOCKET_WRITE ∧
      ¬SubscribeAgrees (· = ·) (piecewise [20, 1000]) plentiful oneService subscribeRequest := by
  have hsid : (subscribeOnWire (· = ·) (piecewise [20, 1000]) plentiful oneService
      subscribeRequest).2.sid = some "uuid:7".toList := by decide +kernel
  have hhanded : (subscribeOnWire (· = ·) (piecewise [20, 1000]) plentiful oneService
      subscribeRequest).2.handed = (subscribeOnWire (· = ·) (piecewise [20, 1000]) plentiful
      oneService subscribeRequest).2.message := by decide +kernel
  have hreported : (subscribeOnWire (· = ·) (piecewise [20, 1000]) plentiful oneService
      subscribeRequest).2.reported = UPNP_E_SOCKET_WRITE := by decide +kernel
  refine ⟨⟨by rw [hsid]; simp, hhanded⟩, hreported, fun h ↦ ?_⟩
  have hsuccess := h.respond.mpr hhanded
  rw [hreported] at hsuccess
  cases hsuccess

/-- The same socket that takes the response at once. -/
example : (subscribeOnWire (· = ·) (piecewise [1000]) plentiful oneService
    subscribeRequest).2.reported = UPNP_E_SUCCESS := by decide +kernel

end Upnp.Gena
