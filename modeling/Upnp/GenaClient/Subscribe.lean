import Upnp.GenaClient.AutoRenewUnique

/-!
# `genaSubscribe` as a whole

The call with its return code and the address of the node that it allocates, for every answer of
the calls it makes.  A node that is entered into `ClientSubList` is freed, but stays in the list,
when its auto-renewal cannot be scheduled.
-/

namespace Upnp.GenaClient

open Upnp.Lib Upnp.Timer

/-- What the calls of a control point return. -/
inductive ReturnCode where
  | GENA_SUCCESS
  | GENA_E_BAD_HANDLE
  | GENA_E_BAD_SID
  | GENA_E_BAD_RESPONSE
  | GENA_E_SUBSCRIPTION_UNACCEPTED
  | UPNP_E_BAD_REQUEST
  | UPNP_E_INVALID_PARAM
  | UPNP_E_OUTOF_MEMORY
  /-- An error of `transferHTTP`, which is not the code of success. -/
  | transferHTTP (code : Int)
  deriving DecidableEq

/-- What the calls answer that an exchange with a publisher makes. -/
structure CallEnv extends AllocEnv where
  /-- `GetHandleInfo` before the exchange. -/
  handleOk : Bool
  /-- `GetHandleInfo` after the exchange. -/
  handleStillOk : Bool
  /-- `copy_client_subscription`, of `genaRenewSubscription`. -/
  copyOk : Bool
  /-- `headers`. -/
  headersOk : Bool
  /-- The error of `transferHTTP`, if it fails. -/
  transferCode : Int
  /-- The status line of the response is parsed. -/
  statusLineOk : Bool

/-- The code of `parse_http_response` when it fails. -/
def parseCode (env : CallEnv) : ReturnCode :=
  if env.statusLineOk then .UPNP_E_BAD_REQUEST else .GENA_E_BAD_RESPONSE

/-- The code after the headers of a `200` were read; a later failure overwrites an earlier one. -/
def headersCode (sidOk : Bool) (reply : Reply) : ReturnCode :=
  let return_code : ReturnCode :=
    match reply.SID with
    | some _ => if sidOk then .GENA_SUCCESS else .UPNP_E_OUTOF_MEMORY
    | none => .GENA_E_BAD_RESPONSE
  match reply.TIMEOUT with
  | some (some _) => return_code
  | _ => .GENA_E_BAD_RESPONSE

/-- The code after a response was read, where `code` is that after the headers of a `200`. -/
def responseCode (env : CallEnv) (reply : Reply) (code : ReturnCode) : ReturnCode :=
  if reply.parseOk then if reply.status200 then code else .GENA_E_SUBSCRIPTION_UNACCEPTED
  else parseCode env

/-- The code of `ScheduleGenaAutoRenew`. -/
def Scheduling.code (env : AllocEnv) : Scheduling → ReturnCode
  | .failed => if env.renewOk then .UPNP_E_INVALID_PARAM else .UPNP_E_OUTOF_MEMORY
  | _ => .GENA_SUCCESS

/-- A client handle, its subscriptions with the addresses of their nodes. -/
structure ClientHandle where
  ClientSubList : List (Nat × ClientSubscription)
  timer : TimerThreadStruct Callback Timeout
  scheduled : Nat

/-- What a call of `genaSubscribe` leaves. -/
structure Subscribed where
  handle : ClientHandle
  return_code : ReturnCode
  /-- The nodes that were freed. -/
  freed : List Nat

/-- `genaSubscribe`; `address` is where the node is allocated, `out_sid` the SID generated. -/
def ClientHandle.genaSubscribe (env : CallEnv) (now : Int) (reply : Reply)
    (PublisherURL out_sid : CString) (address : Nat) (s : ClientHandle) : Subscribed :=
  if !env.handleOk then ⟨s, .GENA_E_BAD_HANDLE, []⟩
  else if !env.headersOk then ⟨s, .UPNP_E_OUTOF_MEMORY, []⟩
  else if !reply.transferOk then ⟨s, .transferHTTP env.transferCode, []⟩
  else if !env.handleStillOk then ⟨s, .GENA_E_BAD_HANDLE, []⟩
  else
    let return_code := responseCode env reply
      (if env.urlOk then headersCode env.sidOk reply else .UPNP_E_OUTOF_MEMORY)
    if return_code ≠ .GENA_SUCCESS then ⟨s, return_code, []⟩
    else if !env.subOk then ⟨s, .UPNP_E_OUTOF_MEMORY, []⟩
    else
      match reply.granted with
      | none => ⟨s, return_code, []⟩
      | some (ActualSID, TimeOut) =>
        let newSubscription : ClientSubscription := ⟨out_sid, ActualSID, PublisherURL, -1⟩
        match ScheduleGenaAutoRenew env.toAllocEnv now TimeOut newSubscription s.scheduled
          s.timer with
        -- the node is freed here, but not taken out of the list again
        | (_, .failed) => ⟨{ s with
          ClientSubList := (address, newSubscription) :: s.ClientSubList },
            Scheduling.failed.code env.toAllocEnv, [address]⟩
        | (timer, .infinite) => ⟨{ s with
          ClientSubList := (address, newSubscription) :: s.ClientSubList
          timer := timer }, .GENA_SUCCESS, []⟩
        | (timer, .scheduled eventId) => ⟨{ s with
          ClientSubList :=
            (address, { newSubscription with RenewEventId := eventId }) :: s.ClientSubList
          timer := timer
          scheduled := s.scheduled + 1 }, .GENA_SUCCESS, []⟩

variable {env : CallEnv} {now : Int} {reply : Reply} {PublisherURL out_sid ActualSID : CString}
  {TimeOut : Int} {address : Nat} {s : ClientHandle}

/-! ## The codes -/

theorem headersCode_eq_success_iff {sidOk : Bool} : headersCode sidOk reply = .GENA_SUCCESS ↔
    sidOk = true ∧ (∃ sid, reply.SID = some sid) ∧ ∃ TimeOut, reply.TIMEOUT = some (some TimeOut) := by
  unfold headersCode
  cases hsid : reply.SID with
  | none =>
    refine iff_of_false ?_ ?_
    · dsimp only
      split <;> exact fun h ↦ by cases h
    · rintro ⟨-, ⟨_, ⟨⟩⟩, -⟩
  | some sid =>
    match reply.TIMEOUT with
    | none =>
      refine iff_of_false (fun h ↦ by cases h) ?_
      rintro ⟨-, -, ⟨_, ⟨⟩⟩⟩
    | some none =>
      refine iff_of_false (fun h ↦ by cases h) ?_
      rintro ⟨-, -, ⟨_, ⟨⟩⟩⟩
    | some (some TimeOut) =>
      cases sidOk with
      | false => exact iff_of_false (fun h ↦ by cases h) fun h ↦ by cases h.1
      | true => exact iff_of_true rfl ⟨rfl, ⟨sid, rfl⟩, TimeOut, rfl⟩

/-- A response is read with success when it grants and the allocations succeed. -/
theorem responseCode_eq_success_iff (htransfer : reply.transferOk = true) {sidOk : Bool} :
    responseCode env reply (headersCode sidOk reply) = .GENA_SUCCESS ↔
      sidOk = true ∧ reply.granted.isSome := by
  unfold responseCode Reply.granted
  rw [htransfer]
  cases hparse : reply.parseOk with
  | false =>
    refine iff_of_false ?_ fun h ↦ by cases h.2
    unfold parseCode
    rw [if_neg Bool.false_ne_true]
    split <;> exact fun h ↦ by cases h
  | true =>
    cases hstatus : reply.status200 with
    | false => exact iff_of_false (fun h ↦ by cases h) fun h ↦ by cases h.2
    | true =>
      rw [if_pos rfl, if_pos rfl, headersCode_eq_success_iff]
      match reply.SID, reply.TIMEOUT with
      | none, _ =>
        refine iff_of_false ?_ fun h ↦ by cases h.2
        rintro ⟨-, ⟨_, ⟨⟩⟩, -⟩
      | some sid, none =>
        refine iff_of_false ?_ fun h ↦ by cases h.2
        rintro ⟨-, -, ⟨_, ⟨⟩⟩⟩
      | some sid, some none =>
        refine iff_of_false ?_ fun h ↦ by cases h.2
        rintro ⟨-, -, ⟨_, ⟨⟩⟩⟩
      | some sid, some (some TimeOut) =>
        exact and_congr_right' (iff_of_true ⟨⟨sid, rfl⟩, TimeOut, rfl⟩ rfl)

/-! ## What a call leaves -/

/-- The exchange grants a subscription that is to be renewed, the node is allocated, and then the
renewal is not scheduled: an allocation for it fails, or the timer is shut down. -/
structure Unscheduled (env : CallEnv) (reply : Reply) (s : ClientHandle) : Prop where
  handle : env.handleOk = true
  headers : env.headersOk = true
  still : env.handleStillOk = true
  sid : env.sidOk = true
  url : env.urlOk = true
  sub : env.subOk = true
  granted : ∃ sid TimeOut, reply.granted = some (sid, TimeOut) ∧ TimeOut ≠ UPNP_INFINITE
  failed : env.renewOk = true → s.timer.shutdown = true

/-- On error the list is the one before and no node in it was freed; on success it has one node
more, in front. -/
structure AtomicOnError (s : ClientHandle) (r : Subscribed) : Prop where
  error : r.return_code ≠ .GENA_SUCCESS → r.handle.ClientSubList = s.ClientSubList ∧
    ∀ node ∈ r.handle.ClientSubList, node.1 ∉ r.freed
  success : r.return_code = .GENA_SUCCESS →
    ∃ node, r.handle.ClientSubList = node :: s.ClientSubList

/-- The three ways a call ends. -/
inductive SubscribeOf (env : CallEnv) (reply : Reply) (address : Nat) (s : ClientHandle) :
    Subscribed → Prop
  | refused (code : ReturnCode) : code ≠ .GENA_SUCCESS → ¬ Unscheduled env reply s →
    SubscribeOf env reply address s ⟨s, code, []⟩
  | unscheduled (code : ReturnCode) (node : ClientSubscription) : code ≠ .GENA_SUCCESS →
    Unscheduled env reply s → SubscribeOf env reply address s
      ⟨{ s with ClientSubList := (address, node) :: s.ClientSubList }, code, [address]⟩
  | entered (node : ClientSubscription) (timer : TimerThreadStruct Callback Timeout) (n : Nat) :
    ¬ Unscheduled env reply s → SubscribeOf env reply address s
      ⟨⟨(address, node) :: s.ClientSubList, timer, n⟩, .GENA_SUCCESS, []⟩

theorem granted_transferOk {p : CString × Int} (h : reply.granted = some p) :
    reply.transferOk = true := by
  unfold Reply.granted at h
  split at h
  · rename_i hok
    simp only [Bool.and_eq_true] at hok
    exact hok.1.1
  · cases h

theorem Scheduling.failed_code (env : AllocEnv) : Scheduling.failed.code env ≠ .GENA_SUCCESS := by
  unfold Scheduling.code
  dsimp only
  split <;> exact fun h ↦ by cases h

/-- An event is entered into a timer that runs. -/
theorem shutdown_of_scheduled {env : AllocEnv} {sub : ClientSubscription} {n : Nat}
    {timer timer' : TimerThreadStruct Callback Timeout} {eventId : Int}
    (h : ScheduleGenaAutoRenew env now TimeOut sub n timer = (timer', .scheduled eventId)) :
    timer.shutdown = false := by
  cases hshut : timer.shutdown with
  | false => rfl
  | true =>
    unfold ScheduleGenaAutoRenew at h
    split at h
    · cases h
    split at h
    · cases h
    split at h
    · cases h
    cases htimer : env.timerOk with
    | true => simp [ScheduleTimerEvent, hshut, htimer] at h
    | false => simp [ScheduleTimerEvent, htimer] at h

/-- The code after the response is that of success exactly when a subscription is granted and
copied. -/
theorem subscribe_code_iff (htransfer : reply.transferOk = true) :
    responseCode env reply
        (if env.urlOk then headersCode env.sidOk reply else .UPNP_E_OUTOF_MEMORY) = .GENA_SUCCESS ↔
      env.urlOk = true ∧ env.sidOk = true ∧ reply.granted.isSome := by
  cases hurl : env.urlOk with
  | true =>
    rw [if_pos rfl, responseCode_eq_success_iff htransfer]
    exact (and_iff_right rfl).symm
  | false =>
    refine iff_of_false ?_ fun h ↦ by cases h.1
    rw [if_neg Bool.false_ne_true, responseCode, parseCode]
    split
    · split <;> exact fun h ↦ by cases h
    · split <;> exact fun h ↦ by cases h

theorem genaSubscribe_cases :
    SubscribeOf env reply address s
      (s.genaSubscribe env now reply PublisherURL out_sid address) := by
  unfold ClientHandle.genaSubscribe
  cases hhandle : env.handleOk with
  | false => exact .refused _ (fun h ↦ by cases h) fun h ↦
      Bool.false_ne_true (hhandle.symm.trans h.handle)
  | true =>
  cases hheaders : env.headersOk with
  | false => exact .refused _ (fun h ↦ by cases h) fun h ↦
      Bool.false_ne_true (hheaders.symm.trans h.headers)
  | true =>
  cases htransfer : reply.transferOk with
  | false =>
    refine .refused _ (fun h ↦ by cases h) fun h ↦ ?_
    obtain ⟨sid, TimeOut, hgranted, -⟩ := h.granted
    exact Bool.false_ne_true (htransfer.symm.trans (granted_transferOk hgranted))
  | true =>
  cases hstill : env.handleStillOk with
  | false => exact .refused _ (fun h ↦ by cases h) fun h ↦
      Bool.false_ne_true (hstill.symm.trans h.still)
  | true =>
  have hcode := @subscribe_code_iff env reply htransfer
  have hpass : ¬ (!true) = true := Bool.false_ne_true
  rw [if_neg hpass, if_neg hpass, if_neg hpass, if_neg hpass]
  dsimp only
  generalize responseCode env reply
    (if env.urlOk then headersCode env.sidOk reply else .UPNP_E_OUTOF_MEMORY) = code at hcode ⊢
  split
  · rename_i hcode'
    refine .refused _ hcode' fun h ↦ hcode' (hcode.mpr ⟨h.url, h.sid, ?_⟩)
    obtain ⟨sid, TimeOut, hgranted, -⟩ := h.granted
    rw [hgranted]
    rfl
  rename_i hcode'
  obtain ⟨hurl, hsid, hsome⟩ := hcode.mp (not_not.mp hcode')
  split
  · rename_i hsub
    refine .refused _ (fun h ↦ by cases h) fun h ↦ ?_
    rw [h.sub] at hsub
    cases hsub
  rename_i hsub
  cases hgranted : reply.granted with
  | none =>
    rw [hgranted] at hsome
    cases hsome
  | some p =>
    obtain ⟨ActualSID, TimeOut⟩ := p
    dsimp only
    have hgrant : Unscheduled env reply s → TimeOut ≠ UPNP_INFINITE := by
      intro h
      obtain ⟨sid, TimeOut', hgranted', hinf⟩ := h.granted
      rw [hgranted] at hgranted'
      cases hgranted'
      exact hinf
    have hcases := scheduleGenaAutoRenew_cases env.toAllocEnv now TimeOut
      ⟨out_sid, ActualSID, PublisherURL, -1⟩ s.scheduled s.timer
    generalize hr : ScheduleGenaAutoRenew env.toAllocEnv now TimeOut
      ⟨out_sid, ActualSID, PublisherURL, -1⟩ s.scheduled s.timer = r at hcases ⊢
    cases hcases with
    | infinite hinf => exact .entered _ _ _ fun h ↦ hgrant h hinf
    | failed hinf hfail =>
      exact .unscheduled _ _ (Scheduling.failed_code _)
        ⟨hhandle, hheaders, hstill, hsid, hurl, by simpa using hsub,
          ⟨ActualSID, TimeOut, hgranted, hinf⟩, hfail⟩
    | scheduled hinf hrenew =>
      refine .entered _ _ _ fun h ↦ Bool.false_ne_true ?_
      exact (shutdown_of_scheduled hr).symm.trans (h.failed hrenew)

/-- A call is atomic on error if and only if the renewal of what it entered is scheduled. -/
theorem genaSubscribe_atomic_iff (env : CallEnv) (now : Int) (reply : Reply)
    (PublisherURL out_sid : CString) (address : Nat) (s : ClientHandle) :
    AtomicOnError s (s.genaSubscribe env now reply PublisherURL out_sid address) ↔
      ¬ Unscheduled env reply s := by
  have hcases := @genaSubscribe_cases env now reply PublisherURL out_sid address s
  generalize s.genaSubscribe env now reply PublisherURL out_sid address = r at hcases ⊢
  cases hcases with
  | refused code hcode hnot =>
    refine iff_of_true ⟨fun _ ↦ ⟨rfl, fun node _ hfreed ↦ by cases hfreed⟩, fun h ↦ ?_⟩ hnot
    exact absurd h hcode
  | unscheduled code node hcode hunscheduled =>
    refine iff_of_false (fun h ↦ ?_) (not_not.mpr hunscheduled)
    exact (h.error hcode).2 _ (List.mem_cons_self ..) (List.mem_singleton_self _)
  | entered node timer n hnot =>
    exact iff_of_true ⟨fun h ↦ absurd rfl h, fun _ ↦ ⟨_, rfl⟩⟩ hnot

/-- A granted subscription that is not entered: there is no memory for the renewal. -/
theorem not_atomic_unscheduled : ¬ AtomicOnError ⟨[], InitTimerThread, 0⟩
    ((⟨[], InitTimerThread, 0⟩ : ClientHandle).genaSubscribe
      ⟨{ AllocEnv.all with structOk := false }, true, true, true, true, -204, true⟩ 0 grant
        "http://10.0.0.1/e".toList "uuid:a".toList 4096) := by
  intro h
  have hlist := (h.error (by decide)).1
  cases hlist

/-! ## The handle without addresses -/

/-- The control point behind a handle. -/
def ClientHandle.forget (renewing : Multiset CString) (sids : List CString) (s : ClientHandle) :
    State :=
  ⟨s.ClientSubList.map (·.2), s.timer, renewing, sids, s.scheduled⟩

/-- While the client stays registered and the headers are built, the call is that of the control
point. -/
theorem forget_genaSubscribe (hhandle : env.handleOk = true) (hheaders : env.headersOk = true)
    (hstill : env.handleStillOk = true) (renewing : Multiset CString) (sids : List CString) :
    (s.genaSubscribe env now reply PublisherURL out_sid address).handle.forget renewing
        (out_sid :: sids) =
      (s.forget renewing sids).genaSubscribe env.toAllocEnv now reply PublisherURL out_sid := by
  have hpass : ¬ (!true) = true := Bool.false_ne_true
  unfold ClientHandle.genaSubscribe State.genaSubscribe
  rw [hhandle, hheaders, hstill, if_neg hpass, if_neg hpass]
  cases htransfer : reply.transferOk with
  | false =>
    cases hgranted : reply.granted with
    | none => rfl
    | some p => exact absurd (htransfer.symm.trans (granted_transferOk hgranted)) Bool.false_ne_true
  | true =>
    have hcode := @subscribe_code_iff env reply htransfer
    rw [if_neg hpass, if_neg hpass]
    dsimp only
    generalize responseCode env reply
      (if env.urlOk then headersCode env.sidOk reply else .UPNP_E_OUTOF_MEMORY) = code at hcode ⊢
    cases hgranted : reply.granted with
    | none =>
      dsimp only
      split
      · rfl
      split
      · rfl
      · rfl
    | some p =>
      obtain ⟨ActualSID, TimeOut⟩ := p
      rw [hgranted] at hcode
      dsimp only
      by_cases hsuccess : code = .GENA_SUCCESS
      · obtain ⟨hurl, hsid, -⟩ := hcode.mp hsuccess
        rw [if_neg (not_not.mpr hsuccess), hurl, hsid]
        cases env.subOk with
        | false => rfl
        | true =>
          rw [if_neg hpass]
          change _ = match ScheduleGenaAutoRenew env.toAllocEnv now TimeOut
            ⟨out_sid, ActualSID, PublisherURL, -1⟩ s.scheduled s.timer with
            | (_, .failed) => _
            | (timer, .infinite) => _
            | (timer, .scheduled eventId) => _
          generalize ScheduleGenaAutoRenew env.toAllocEnv now TimeOut
            ⟨out_sid, ActualSID, PublisherURL, -1⟩ s.scheduled s.timer = r
          obtain ⟨timer, scheduling⟩ := r
          cases scheduling with
          | infinite => rfl
          | failed => rfl
          | scheduled eventId => rfl
      · rw [if_pos hsuccess, if_neg]
        · rfl
        · intro hall
          simp only [Bool.and_eq_true] at hall
          exact hsuccess (hcode.mpr ⟨hall.1.2, hall.1.1, rfl⟩)

end Upnp.GenaClient
