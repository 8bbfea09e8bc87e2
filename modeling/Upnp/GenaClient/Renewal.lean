import Upnp.GenaClient.Subscribe

/-!
# `genaRenewSubscription` as a whole

A renewal that no other call overlaps: what it returns, and what it leaves of the subscription, of
its auto-renew event and of the others.  The event is removed before anything can fail, and on the
first two failures the subscription stays without one.
-/

namespace Upnp.GenaClient

open Upnp.Lib Upnp.Timer

/-- The old event of a subscription is removed, before it is copied. -/
def State.unscheduled (in_sid : CString) (sub : ClientSubscription) (s : State) : State :=
  { s with
    timer := (RemoveTimerEvent sub.RenewEventId s.timer).1
    ClientSubList := modifySub in_sid (fun sub ↦ { sub with RenewEventId := -1 }) s.ClientSubList }

/-- `genaRenewSubscription`. -/
def State.genaRenewSubscription (env : CallEnv) (now : Int) (reply : Reply) (in_sid : CString)
    (s : State) : State × ReturnCode :=
  match GetClientSubClientSID s.ClientSubList in_sid with
  | none => (s, .GENA_E_BAD_SID)
  | some sub =>
    let s := s.unscheduled in_sid sub
    if !env.copyOk then (s, .UPNP_E_OUTOF_MEMORY)
    else if !env.headersOk then (s, .UPNP_E_OUTOF_MEMORY)
    else if !reply.transferOk then
      (s.removeClientSubClientSID in_sid, .transferHTTP env.transferCode)
    else
      match GetClientSubClientSID s.ClientSubList in_sid with
      | none => (s, .GENA_E_BAD_SID)
      | some sub =>
        let return_code := responseCode env reply (headersCode env.sidOk reply)
        if return_code ≠ .GENA_SUCCESS then (s.removeClientSubClientSID in_sid, return_code)
        else
          match reply.granted with
          | none => (s.removeClientSubClientSID in_sid, return_code)
          | some (ActualSID, TimeOut) =>
            match ScheduleGenaAutoRenew env.toAllocEnv now TimeOut sub s.scheduled s.timer with
            | (_, .failed) =>
              (s.removeClientSubClientSID in_sid, Scheduling.failed.code env.toAllocEnv)
            | (timer, .infinite) =>
              ({ s with
                timer := timer
                ClientSubList :=
                  modifySub in_sid (fun sub ↦ { sub with ActualSID := ActualSID })
                    s.ClientSubList }, .GENA_SUCCESS)
            | (timer, .scheduled eventId) =>
              ({ s with
                timer := timer
                ClientSubList := modifySub in_sid
                  (fun sub ↦ { sub with ActualSID := ActualSID, RenewEventId := eventId })
                  s.ClientSubList
                scheduled := s.scheduled + 1 }, .GENA_SUCCESS)

/-- Between two calls a subscription and its auto-renew event name each other. -/
structure Tidy (s : State) : Prop extends Renewals s where
  named : ∀ sub ∈ s.ClientSubList, ∀ e ∈ s.timer.eventQ, e.eventId = sub.RenewEventId →
    renewedSid e = some sub.sid

/-- How many auto-renew events are pending for a SID. -/
def State.pending (sid : CString) (s : State) : Nat :=
  s.timer.eventQ.countP fun e ↦ renewedSid e = some sid

/-- A renewal leaves no dead subscription and touches no other one. -/
structure RenewalKeeps (reply : Reply) (in_sid : CString) (s : State) (r : State × ReturnCode) :
    Prop where
  error : r.2 ≠ .GENA_SUCCESS →
    (∀ sub ∈ r.1.ClientSubList, sub.sid ≠ in_sid) ∨ 0 < r.1.pending in_sid
  success : r.2 = .GENA_SUCCESS → ∃ sub ∈ r.1.ClientSubList, sub.sid = in_sid ∧
    reply.SID = some sub.ActualSID ∧
      ∀ TimeOut, reply.TIMEOUT = some (some TimeOut) → TimeOut ≠ UPNP_INFINITE →
        r.1.pending in_sid = 1
  others : r.1.ClientSubList.filter (·.sid ≠ in_sid) = s.ClientSubList.filter (·.sid ≠ in_sid)
  timers : r.1.timer.eventQ.filter (renewedSid · ≠ some in_sid) =
    s.timer.eventQ.filter (renewedSid · ≠ some in_sid)

variable {env : CallEnv} {now : Int} {reply : Reply} {in_sid : CString} {s : State}
  {sub : ClientSubscription} {f : ClientSubscription → ClientSubscription}
  {l : List ClientSubscription}

/-! ## The other subscriptions -/

theorem filter_modifySub (hf : ∀ sub, (f sub).sid = sub.sid) :
    (modifySub in_sid f l).filter (·.sid ≠ in_sid) = l.filter (·.sid ≠ in_sid) := by
  induction l with
  | nil => rfl
  | cons sub l ih =>
    rw [modifySub]
    split
    · rename_i hsid
      rw [List.filter_cons_of_neg (by simpa [hf] using hsid),
        List.filter_cons_of_neg (by simpa using hsid)]
    · rename_i hsid
      rw [List.filter_cons_of_pos (by simpa using hsid),
        List.filter_cons_of_pos (by simpa using hsid), ih]

theorem find?_modifySub (hf : ∀ sub, (f sub).sid = sub.sid)
    (hs : GetClientSubClientSID l in_sid = some sub) :
    GetClientSubClientSID (modifySub in_sid f l) in_sid = some (f sub) := by
  induction l with
  | nil => cases hs
  | cons sub' l ih =>
    rw [GetClientSubClientSID] at hs
    rw [modifySub, GetClientSubClientSID]
    by_cases hsid : sub'.sid = in_sid
    · rw [if_pos hsid, List.find?_cons_of_pos (by simpa [hf] using hsid)]
      rw [List.find?_cons_of_pos (by simpa using hsid)] at hs
      rw [Option.some.inj hs]
    · rw [if_neg hsid, List.find?_cons_of_neg (by simpa using hsid)]
      rw [List.find?_cons_of_neg (by simpa using hsid)] at hs
      exact ih hs

/-- Where SIDs are distinct, none is left after a removal. -/
theorem not_mem_eraseP (hnodup : (l.map ClientSubscription.sid).Nodup) :
    ∀ sub ∈ l.eraseP (·.sid = in_sid), sub.sid ≠ in_sid := by
  induction l with
  | nil =>
    intro sub hsub
    cases hsub
  | cons sub' l ih =>
    rw [List.map_cons, List.nodup_cons] at hnodup
    intro sub hsub
    by_cases hsid : sub'.sid = in_sid
    · rw [List.eraseP_cons_of_pos (by simpa using hsid)] at hsub
      rintro rfl
      exact hnodup.1 (hsid ▸ List.mem_map_of_mem hsub)
    · rw [List.eraseP_cons_of_neg (by simpa using hsid)] at hsub
      rcases List.mem_cons.mp hsub with rfl | hsub
      · exact hsid
      · exact ih hnodup.2 sub hsub

/-! ## The timer -/

section Queue

variable {q rest : List (TimerEvent Callback Timeout)} {e : TimerEvent Callback Timeout} {i : Int}

theorem unlink_filter (hnodup : (q.map TimerEvent.eventId).Nodup) (h : unlink i q = some (e, rest)) :
    rest = q.filter (·.eventId ≠ i) := by
  induction q generalizing rest with
  | nil => cases h
  | cons e' q ih =>
    rw [List.map_cons, List.nodup_cons] at hnodup
    rw [unlink] at h
    split at h
    · rename_i hid
      cases h
      rw [List.filter_cons_of_neg (by simpa using hid)]
      refine (List.filter_eq_self.mpr fun e' he' ↦ decide_eq_true ?_).symm
      rintro rfl
      exact hnodup.1 (hid ▸ List.mem_map_of_mem he')
    · rename_i hid
      obtain ⟨⟨e'', rest'⟩, hunlink, heq⟩ := Option.map_eq_some_iff.mp h
      cases heq
      rw [List.filter_cons_of_pos (by simpa using hid), ← ih hnodup.2 hunlink]

/-- `RemoveTimerEvent` takes the events with the id out. -/
theorem Ids.removeTimerEvent_filter {timer : TimerThreadStruct Callback Timeout} (h : Ids timer)
    (i : Int) : (RemoveTimerEvent i timer).1.eventQ = timer.eventQ.filter (·.eventId ≠ i) := by
  unfold RemoveTimerEvent
  by_cases hi : i = -1
  · rw [if_neg (not_not.mpr hi)]
    refine (List.filter_eq_self.mpr fun e he ↦ decide_eq_true ?_).symm
    have hnonneg := h.nonneg e he
    omega
  · rw [if_pos hi]
    cases hu : unlink i timer.eventQ with
    | none => exact (List.filter_eq_self.mpr fun e he ↦ decide_eq_true (unlink_none hu e he)).symm
    | some p => exact unlink_filter h.nodup hu

theorem filter_link {p : TimerEvent Callback Timeout → Bool} (he : ¬ p e) :
    (link e q).filter p = q.filter p := by
  induction q with
  | nil => exact List.filter_cons_of_neg he
  | cons e' q ih =>
    rw [link]
    split
    · rw [List.filter_cons, ih, List.filter_cons]
    · exact List.filter_cons_of_neg he

end Queue

/-! ## A renewal -/

namespace Tidy

theorem unscheduled_eventQ (h : Tidy s) (hs : GetClientSubClientSID s.ClientSubList in_sid = some sub) :
    (s.unscheduled in_sid sub).timer.eventQ =
      s.timer.eventQ.filter (renewedSid · ≠ some in_sid) := by
  refine (h.ids.removeTimerEvent_filter sub.RenewEventId).trans (List.filter_congr fun e he ↦ ?_)
  apply decide_eq_decide.mpr
  refine not_congr ⟨fun hid ↦ ?_, h.own_id hs he⟩
  obtain ⟨hmem, hsid⟩ := getClientSub_some hs
  exact hsid ▸ h.named sub hmem e he hid

theorem unscheduled_pending (h : Tidy s)
    (hs : GetClientSubClientSID s.ClientSubList in_sid = some sub) :
    (s.unscheduled in_sid sub).pending in_sid = 0 := by
  rw [State.pending, h.unscheduled_eventQ hs, List.countP_eq_zero]
  intro e he
  exact fun hsid ↦ (of_decide_eq_true (List.mem_filter.mp he).2) (of_decide_eq_true hsid)

theorem unscheduled_timers (h : Tidy s)
    (hs : GetClientSubClientSID s.ClientSubList in_sid = some sub) :
    (s.unscheduled in_sid sub).timer.eventQ.filter (renewedSid · ≠ some in_sid) =
      s.timer.eventQ.filter (renewedSid · ≠ some in_sid) := by
  rw [h.unscheduled_eventQ hs, List.filter_filter]
  apply List.filter_congr
  intro e _
  exact Bool.and_self _

end Tidy

theorem unscheduled_found (hs : GetClientSubClientSID s.ClientSubList in_sid = some sub) :
    GetClientSubClientSID (s.unscheduled in_sid sub).ClientSubList in_sid =
      some { sub with RenewEventId := -1 } :=
  find?_modifySub (fun _ ↦ rfl) hs

/-- The removal after a failure finds no event to remove. -/
theorem unscheduled_removed (hs : GetClientSubClientSID s.ClientSubList in_sid = some sub) :
    (s.unscheduled in_sid sub).removeClientSubClientSID in_sid =
      { s.unscheduled in_sid sub with
        ClientSubList :=
          (s.unscheduled in_sid sub).ClientSubList.eraseP fun sub ↦ sub.sid = in_sid } := by
  rw [State.removeClientSubClientSID, unscheduled_found hs]
  rfl

/-- After a failure the subscription is taken out of the list. -/
theorem keeps_removed (h : Tidy s) (hs : GetClientSubClientSID s.ClientSubList in_sid = some sub)
    {code : ReturnCode} (hcode : code ≠ .GENA_SUCCESS) :
    RenewalKeeps reply in_sid s
      ((s.unscheduled in_sid sub).removeClientSubClientSID in_sid, code) := by
  rw [unscheduled_removed hs]
  constructor
  · intro _
    refine .inl (not_mem_eraseP ?_)
    have hsids : (s.unscheduled in_sid sub).ClientSubList.map ClientSubscription.sid =
        s.ClientSubList.map ClientSubscription.sid := modifySub_sids fun _ ↦ rfl
    exact hsids ▸ h.sids
  · exact fun hsuccess ↦ absurd hsuccess hcode
  · exact (filter_eraseP_key ClientSubscription.sid in_sid _).trans (filter_modifySub fun _ ↦ rfl)
  · exact h.unscheduled_timers hs

/-- A failure that leaves the subscription in the list leaves it without an event. -/
theorem not_keeps_unscheduled (h : Tidy s)
    (hs : GetClientSubClientSID s.ClientSubList in_sid = some sub) {code : ReturnCode}
    (hcode : code ≠ .GENA_SUCCESS) :
    ¬ RenewalKeeps reply in_sid s (s.unscheduled in_sid sub, code) := by
  intro hkeeps
  rcases hkeeps.error hcode with hnone | hpending
  · obtain ⟨hmem, hsid⟩ := getClientSub_some (unscheduled_found hs)
    exact hnone _ hmem hsid
  · rw [h.unscheduled_pending hs] at hpending
    exact absurd hpending (lt_irrefl 0)

/-- A renewal that is granted writes the SID, and the event it scheduled. -/
theorem keeps_granted (h : Tidy s) (hs : GetClientSubClientSID s.ClientSubList in_sid = some sub)
    (hf : ∀ sub, (f sub).sid = sub.sid) {ActualSID : CString}
    (hactual : ∀ sub, (f sub).ActualSID = ActualSID) (hSID : reply.SID = some ActualSID)
    {timer : TimerThreadStruct Callback Timeout} {n : Nat}
    (htimers : timer.eventQ.filter (renewedSid · ≠ some in_sid) =
      s.timer.eventQ.filter (renewedSid · ≠ some in_sid))
    (hpending : ∀ TimeOut, reply.TIMEOUT = some (some TimeOut) → TimeOut ≠ UPNP_INFINITE →
      timer.eventQ.countP (renewedSid · = some in_sid) = 1) :
    RenewalKeeps reply in_sid s
      ({ s.unscheduled in_sid sub with
        timer := timer
        ClientSubList := modifySub in_sid f (s.unscheduled in_sid sub).ClientSubList
        scheduled := n }, .GENA_SUCCESS) := by
  constructor
  · exact fun hcode ↦ absurd rfl hcode
  · intro _
    obtain ⟨hmem, hsid⟩ := getClientSub_some (find?_modifySub hf (unscheduled_found hs))
    exact ⟨_, hmem, hsid, by rw [hactual, hSID], hpending⟩
  · exact (filter_modifySub hf).trans (filter_modifySub fun _ ↦ rfl)
  · exact htimers

theorem granted_eq_some {ActualSID : CString} {TimeOut : Int}
    (h : reply.granted = some (ActualSID, TimeOut)) :
    reply.SID = some ActualSID ∧ reply.TIMEOUT = some (some TimeOut) := by
  unfold Reply.granted at h
  split at h
  · split at h
    · rename_i hSID hTIMEOUT
      cases h
      exact ⟨hSID, hTIMEOUT⟩
    · cases h
  · cases h

/-- After the copy and the headers nothing that fails leaves the subscription dead. -/
theorem keeps_exchanged (h : Tidy s)
    (hs : GetClientSubClientSID s.ClientSubList in_sid = some sub) (hcopy : env.copyOk = true)
    (hheaders : env.headersOk = true) :
    RenewalKeeps reply in_sid s (s.genaRenewSubscription env now reply in_sid) := by
  have hpass : ¬ (!true) = true := Bool.false_ne_true
  have hfound := unscheduled_found hs
  rw [State.genaRenewSubscription, hs]
  dsimp only
  rw [hcopy, if_neg hpass, hheaders, if_neg hpass]
  cases htransfer : reply.transferOk with
  | false => exact keeps_removed h hs fun hcode ↦ by cases hcode
  | true =>
    have hcode := @responseCode_eq_success_iff env reply htransfer env.sidOk
    rw [if_neg hpass, hfound]
    dsimp only
    generalize responseCode env reply (headersCode env.sidOk reply) = code at hcode ⊢
    split
    · rename_i hfailed
      exact keeps_removed h hs hfailed
    rename_i hread
    obtain ⟨-, hsome⟩ := hcode.mp (not_not.mp hread)
    cases hgranted : reply.granted with
    | none =>
      rw [hgranted] at hsome
      cases hsome
    | some p =>
      obtain ⟨ActualSID, TimeOut⟩ := p
      obtain ⟨hSID, hTIMEOUT⟩ := granted_eq_some hgranted
      have hcases := scheduleGenaAutoRenew_cases env.toAllocEnv now TimeOut
        { sub with RenewEventId := -1 } (s.unscheduled in_sid sub).scheduled
        (s.unscheduled in_sid sub).timer
      dsimp only
      generalize ScheduleGenaAutoRenew env.toAllocEnv now TimeOut
        { sub with RenewEventId := -1 } (s.unscheduled in_sid sub).scheduled
        (s.unscheduled in_sid sub).timer = r at hcases ⊢
      cases hcases with
      | failed hinf _ => exact keeps_removed h hs (Scheduling.failed_code _)
      | infinite hinf =>
        refine keeps_granted (f := fun sub ↦ { sub with ActualSID := ActualSID }) h hs
          (fun _ ↦ rfl) (fun _ ↦ rfl) hSID (h.unscheduled_timers hs) fun TimeOut' hTIMEOUT' hne ↦ ?_
        rw [hTIMEOUT] at hTIMEOUT'
        cases hTIMEOUT'
        exact absurd hinf hne
      | scheduled hinf hrenew =>
        have hnew : renewedSid (renewEvent (s.unscheduled in_sid sub).timer now TimeOut
            { sub with RenewEventId := -1 } (s.unscheduled in_sid sub).scheduled) = some in_sid :=
          congrArg some (getClientSub_some hs).2
        refine keeps_granted (f := fun sub' ↦ { sub' with
          ActualSID := ActualSID
          RenewEventId := (s.unscheduled in_sid sub).timer.currentEventId }) h hs
          (fun _ ↦ rfl) (fun _ ↦ rfl) hSID ?_ fun _ _ _ ↦ ?_
        · refine (filter_link ?_).trans (h.unscheduled_timers hs)
          rw [hnew]
          simp
        · have hzero := h.unscheduled_pending hs
          rw [State.pending] at hzero
          rw [(link_perm _ _).countP_eq, List.countP_cons, hzero, hnew]
          simp

/-- A renewal that nothing overlaps leaves no dead subscription if and only if the subscription is
copied and the headers can be built. -/
theorem renewalKeeps_iff (env : CallEnv) (now : Int) (reply : Reply) (htidy : Tidy s)
    (hsub : ∃ sub ∈ s.ClientSubList, sub.sid = in_sid) :
    RenewalKeeps reply in_sid s (s.genaRenewSubscription env now reply in_sid) ↔
      env.copyOk = true ∧ env.headersOk = true := by
  obtain ⟨sub, hs⟩ : ∃ sub, GetClientSubClientSID s.ClientSubList in_sid = some sub := by
    obtain ⟨sub, hmem, hsid⟩ := hsub
    exact Option.isSome_iff_exists.mp
      (List.find?_isSome.mpr ⟨sub, hmem, decide_eq_true hsid⟩)
  have hpass : ¬ (!true) = true := Bool.false_ne_true
  have hfail : (!false) = true := rfl
  cases hcopy : env.copyOk with
  | false =>
    refine iff_of_false ?_ fun h ↦ Bool.false_ne_true h.1
    rw [State.genaRenewSubscription, hs]
    dsimp only
    rw [hcopy, if_pos hfail]
    exact not_keeps_unscheduled htidy hs fun h ↦ by cases h
  | true =>
    cases hheaders : env.headersOk with
    | false =>
      refine iff_of_false ?_ fun h ↦ Bool.false_ne_true h.2
      rw [State.genaRenewSubscription, hs]
      dsimp only
      rw [hcopy, if_neg hpass, hheaders, if_pos hfail]
      exact not_keeps_unscheduled htidy hs fun h ↦ by cases h
    | true => exact iff_of_true (keeps_exchanged htidy hs hcopy hheaders) ⟨rfl, rfl⟩

/-! ## Runs in which calls do not overlap -/

/-- A tidy control point whose ids are all below the next one. -/
structure Numbered (s : State) : Prop extends Tidy s where
  events : ∀ e ∈ s.timer.eventQ, e.eventId < s.timer.currentEventId
  subs : ∀ sub ∈ s.ClientSubList, sub.RenewEventId < s.timer.currentEventId

/-- A call overlaps no other, and the ids do not run out. -/
def InOrder (s : State) (a : Action) : Prop :=
  Alone s a ∧ s.timer.currentEventId < 2147483647

theorem nextEventId_succ {i : Int} (hpos : 0 ≤ i) (hlt : i < 2147483647) :
    nextEventId i = i + 1 := by
  have hwrap : wrap32 (i + 1) = i + 1 := by
    apply wrap32_of_range
    · omega
    · omega
  rw [nextEventId, hwrap, if_neg (by omega)]

theorem removeTimerEvent_currentEventId (i : Int) (timer : TimerThreadStruct Callback Timeout) :
    (RemoveTimerEvent i timer).1.currentEventId = timer.currentEventId := by
  unfold RemoveTimerEvent
  split
  · split <;> rfl
  · rfl

theorem mem_modifySub_cases {sub' : ClientSubscription} (h : sub' ∈ modifySub in_sid f l) :
    sub' ∈ l ∨ ∃ sub ∈ l, sub.sid = in_sid ∧ sub' = f sub := by
  induction l with
  | nil => cases h
  | cons sub l ih =>
    rw [modifySub] at h
    split at h
    · rename_i hsid
      rcases List.mem_cons.mp h with rfl | h
      · exact .inr ⟨sub, List.mem_cons_self .., hsid, rfl⟩
      · exact .inl (List.mem_cons_of_mem _ h)
    · rcases List.mem_cons.mp h with rfl | h
      · exact .inl (List.mem_cons_self ..)
      · rcases ih h with hold | ⟨sub, hsub, heq⟩
        · exact .inl (List.mem_cons_of_mem _ hold)
        · exact .inr ⟨sub, List.mem_cons_of_mem _ hsub, heq⟩

namespace Numbered

variable {s' : State}

/-- A step whose events are old or have the next id, and whose subscriptions remember an old id,
none, or that one. -/
theorem frame (h : Numbered s) (hren : Renewals s')
    (hcur : s.timer.currentEventId ≤ s'.timer.currentEventId)
    (hevents : ∀ e ∈ s'.timer.eventQ, e ∈ s.timer.eventQ ∨
      e.eventId = s.timer.currentEventId ∧
        s.timer.currentEventId < s'.timer.currentEventId ∧ ∀ sub ∈ s'.ClientSubList,
          sub.RenewEventId = s.timer.currentEventId → renewedSid e = some sub.sid)
    (hsubs : ∀ sub ∈ s'.ClientSubList,
      (∃ old ∈ s.ClientSubList, old.sid = sub.sid ∧ old.RenewEventId = sub.RenewEventId) ∨
      sub.RenewEventId = -1 ∨ sub.RenewEventId = s.timer.currentEventId ∧
        s.timer.currentEventId < s'.timer.currentEventId) : Numbered s' := by
  refine ⟨⟨hren, ?_⟩, ?_, ?_⟩
  · intro sub hsub e he hid
    rcases hevents e he with hold | ⟨hnew, -, hown⟩
    · rcases hsubs sub hsub with ⟨old, hmem, hsid, hrenew⟩ | hnone | ⟨hnext, -⟩
      · rw [← hsid]
        exact h.named old hmem e hold (hid.trans hrenew.symm)
      · have hnonneg := h.ids.nonneg e hold
        omega
      · have hlt := h.events e hold
        omega
    · exact hown sub hsub (hid.symm.trans hnew)
  · intro e he
    rcases hevents e he with hold | ⟨hnew, hlt, -⟩
    · exact (h.events e hold).trans_le hcur
    · exact hnew ▸ hlt
  · intro sub hsub
    rcases hsubs sub hsub with ⟨old, hmem, -, hrenew⟩ | hnone | ⟨hnext, hlt⟩
    · rw [← hrenew]
      exact (h.subs old hmem).trans_le hcur
    · rw [hnone]
      have hcounter := h.ids.counter
      omega
    · exact hnext ▸ hlt

/-- A step that enters no event. -/
theorem shrink (h : Numbered s) (hren : Renewals s')
    (hcur : s'.timer.currentEventId = s.timer.currentEventId)
    (hevents : ∀ e ∈ s'.timer.eventQ, e ∈ s.timer.eventQ)
    (hsubs : ∀ sub ∈ s'.ClientSubList,
      (∃ old ∈ s.ClientSubList, old.sid = sub.sid ∧ old.RenewEventId = sub.RenewEventId) ∨
      sub.RenewEventId = -1) : Numbered s' :=
  h.frame hren hcur.ge (fun e he ↦ .inl (hevents e he)) fun sub hsub ↦
    (hsubs sub hsub).imp_right .inl

theorem removed_subset (h : Numbered s) (i : Int) :
    ∀ e ∈ (RemoveTimerEvent i s.timer).1.eventQ, e ∈ s.timer.eventQ :=
  fun e he ↦ ((h.ids.removeTimerEvent i).2 e he).1

theorem removeClientSub (h : Numbered s) (sid : CString) :
    Numbered (s.removeClientSubClientSID sid) := by
  have hren := h.toRenewals.removeClientSub sid
  unfold State.removeClientSubClientSID at hren ⊢
  split
  · exact h
  · rename_i finger hfinger
    rw [hfinger] at hren
    refine h.shrink hren (removeTimerEvent_currentEventId _ _) (h.removed_subset _) ?_
    exact fun sub hsub ↦ .inl ⟨sub, List.mem_of_mem_eraseP hsub, rfl, rfl⟩

theorem expire (h : Numbered s) (current_time : Int) :
    Numbered { s with timer := (Timer.pass current_time s.timer).1 } := by
  obtain ⟨hevents, hcur⟩ := pass_sublist current_time s.timer
  exact h.shrink (h.toRenewals.expire current_time) hcur (fun e he ↦ hevents.subset he)
    fun sub hsub ↦ .inl ⟨sub, hsub, rfl, rfl⟩

theorem renewBegin (h : Numbered s) (copyOk : Bool) (sid : CString) :
    Numbered (s.renewBegin copyOk sid) := by
  have hren := h.toRenewals.renewBegin copyOk sid
  unfold State.renewBegin at hren ⊢
  split
  · exact h
  · rename_i sub hsub
    rw [hsub] at hren
    refine h.shrink hren (removeTimerEvent_currentEventId _ _) (h.removed_subset _) ?_
    intro sub' hsub'
    rcases mem_modifySub_cases hsub' with hold | ⟨sub, -, -, rfl⟩
    · exact .inl ⟨sub', hold, rfl, rfl⟩
    · exact .inr rfl

/-- A step that enters the event of `sub`, which remembers it. -/
theorem entered (h : Numbered s) (hren : Renewals s')
    (hlt : s.timer.currentEventId < 2147483647)
    (hcur : s'.timer.currentEventId = nextEventId s.timer.currentEventId)
    {e : TimerEvent Callback Timeout} (heid : e.eventId = s.timer.currentEventId)
    (hqueue : s'.timer.eventQ = link e s.timer.eventQ)
    (hsubs : ∀ sub ∈ s'.ClientSubList,
      (∃ old ∈ s.ClientSubList, old.sid = sub.sid ∧ old.RenewEventId = sub.RenewEventId) ∨
      sub.RenewEventId = s.timer.currentEventId ∧ renewedSid e = some sub.sid) :
    Numbered s' := by
  rw [nextEventId_succ h.ids.counter hlt] at hcur
  have hless : s.timer.currentEventId < s'.timer.currentEventId := by
    rw [hcur]
    exact Int.lt_succ _
  refine h.frame hren hless.le ?_ ?_
  · intro e' he'
    rw [hqueue] at he'
    rcases mem_link.mp he' with rfl | hold
    · refine .inr ⟨heid, hless, fun sub hsub hid ↦ ?_⟩
      rcases hsubs sub hsub with ⟨old, hmem, -, hrenew⟩ | ⟨-, hown⟩
      · have hbelow := h.subs old hmem
        rw [hrenew, hid] at hbelow
        exact absurd hbelow (lt_irrefl _)
      · exact hown
    · exact .inl hold
  · intro sub hsub
    rcases hsubs sub hsub with hold | ⟨hid, -⟩
    · exact .inl hold
    · exact .inr (.inr ⟨hid, hless⟩)

theorem renewEnd (h : Numbered s) {env : AllocEnv} {sid : CString}
    (hok : InOrder s (.renewEnd env now reply sid)) :
    Numbered (s.renewEnd env now reply sid) := by
  have hren := h.toRenewals.renewEnd hok.1
  have herase : Numbered { s with renewing := s.renewing.erase sid } :=
    ⟨⟨⟨h.ids, h.sids, h.used, h.own⟩, h.named⟩, h.events, h.subs⟩
  have hcases := renewEnd_cases env now reply sid s
  generalize s.renewEnd env now reply sid = s' at hcases hren ⊢
  cases hcases with
  | missing => exact herase
  | removed => exact herase.removeClientSub sid
  | infinite sub ActualSID _ =>
    refine h.shrink hren rfl (fun e he ↦ he) fun sub' hsub' ↦ .inl ?_
    rcases mem_modifySub_cases hsub' with hold | ⟨old, hold, -, rfl⟩
    · exact ⟨sub', hold, rfl, rfl⟩
    · exact ⟨old, hold, rfl, rfl⟩
  | scheduled sub ActualSID TimeOut hs _ _ _ _ =>
    refine h.entered hren hok.2 rfl rfl rfl fun sub' hsub' ↦ ?_
    rcases mem_modifySub_cases hsub' with hold | ⟨old, hold, hsame, rfl⟩
    · exact .inl ⟨sub', hold, rfl, rfl⟩
    · exact .inr ⟨rfl, congrArg some ((getClientSub_some hs).2.trans hsame.symm)⟩

theorem subscribe (h : Numbered s) {env : AllocEnv} {PublisherURL out_sid : CString}
    (hfresh : out_sid ∉ s.sids)
    (hok : InOrder s (.subscribe env now reply PublisherURL out_sid)) :
    Numbered (s.genaSubscribe env now reply PublisherURL out_sid) := by
  have hren := h.toRenewals.subscribe hfresh hok.1
  have hcases := subscribeEnd_cases env now reply PublisherURL out_sid s
  generalize s.genaSubscribe env now reply PublisherURL out_sid = s' at hcases hren ⊢
  cases hcases with
  | refused => exact ⟨⟨hren, h.named⟩, h.events, h.subs⟩
  | unscheduled ActualSID =>
    refine h.shrink hren rfl (fun e he ↦ he) fun sub hsub ↦ ?_
    rcases List.mem_cons.mp hsub with rfl | hold
    · exact .inr rfl
    · exact .inl ⟨sub, hold, rfl, rfl⟩
  | scheduled ActualSID TimeOut _ _ _ _ _ =>
    refine h.entered hren hok.2 rfl rfl rfl fun sub hsub ↦ ?_
    rcases List.mem_cons.mp hsub with rfl | hold
    · exact .inr ⟨rfl, rfl⟩
    · exact .inl ⟨sub, hold, rfl, rfl⟩

theorem advertise (h : Numbered s) {mallocOk : Bool} {TimeOut mx : Int}
    (hok : InOrder s (.advertise mallocOk now TimeOut mx)) :
    Numbered { s with
      timer := (ScheduleTimerEvent mallocOk now TimeOut .AutoAdvertise (.advertise mx) s.scheduled
        s.timer).1
      scheduled := s.scheduled + 1 } := by
  have hren := h.toRenewals.advertise hok.1
  unfold ScheduleTimerEvent at hren ⊢
  split
  · rename_i hmalloc
    rw [if_pos hmalloc] at hren
    exact ⟨⟨hren, h.named⟩, h.events, h.subs⟩
  rename_i hmalloc
  rw [if_neg hmalloc] at hren
  split
  · rename_i hshut
    rw [if_pos hshut] at hren
    exact ⟨⟨hren, h.named⟩, h.events, h.subs⟩
  · rename_i hshut
    rw [if_neg hshut] at hren
    exact h.entered hren hok.2 rfl rfl rfl fun sub hsub ↦ .inl ⟨sub, hsub, rfl, rfl⟩

end Numbered

/-- Calls that overlap no other leave the control point tidy. -/
theorem numbered_inductive : machine.Inductive InOrder Numbered where
  init s h := by
    rw [show s = registered from h]
    have hren := renewals_inductive.init registered rfl
    refine ⟨⟨hren, ?_⟩, ?_, ?_⟩
    · intro sub hsub
      cases hsub
    · intro e he
      cases he
    · intro sub hsub
      cases hsub
  step s a s' h hok hs := by
    cases a with
    | subscribe env now reply PublisherURL out_sid =>
      obtain ⟨hfresh, hs⟩ := Option.ite_none_left_eq_some.mp hs
      exact Option.some.inj hs ▸ h.subscribe hfresh hok
    | renewBegin copyOk sid => exact Option.some.inj hs ▸ h.renewBegin copyOk sid
    | renewEnd env now reply sid =>
      obtain ⟨-, hs⟩ := Option.ite_none_right_eq_some.mp hs
      exact Option.some.inj hs ▸ h.renewEnd hok
    | unsubscribe sid => exact Option.some.inj hs ▸ h.removeClientSub sid
    | expire current_time => exact Option.some.inj hs ▸ h.expire current_time
    | advertise mallocOk now TimeOut mx => exact Option.some.inj hs ▸ h.advertise hok

/-- A control point with one subscription. -/
def subscribedOnce : State :=
  registered.genaSubscribe .all 0 grant "http://10.0.0.1/e".toList "uuid:a".toList

theorem subscribedOnce_tidy : Tidy subscribedOnce := by
  have hok : InOrder registered
      (.subscribe .all 0 grant "http://10.0.0.1/e".toList "uuid:a".toList) :=
    ⟨fun _ _ _ _ _ _ _ ↦ ⟨rfl, fun _ he ↦ absurd he List.not_mem_nil⟩, by decide⟩
  exact ((numbered_inductive.init registered rfl).subscribe List.not_mem_nil hok).toTidy

/-- The calls of a renewal in which `copy_client_subscription` answers `copyOk`. -/
def renewalEnv (copyOk : Bool) : CallEnv := ⟨.all, true, true, copyOk, true, -204, true⟩

theorem renewalKeeps_once :
    RenewalKeeps grant "uuid:a".toList subscribedOnce
        (subscribedOnce.genaRenewSubscription (renewalEnv true) 9 grant "uuid:a".toList) ↔
      (renewalEnv true).copyOk = true ∧ (renewalEnv true).headersOk = true :=
  renewalKeeps_iff (renewalEnv true) 9 grant subscribedOnce_tidy
    ⟨_, List.mem_singleton_self _, by decide +kernel⟩

/-- Without memory for the copy the subscription stays, and nothing renews it. -/
theorem dead_subscription : ¬ RenewalKeeps grant "uuid:a".toList subscribedOnce
    (subscribedOnce.genaRenewSubscription (renewalEnv false) 9 grant "uuid:a".toList) := by
  intro h
  rcases h.error (by decide +kernel) with hnone | hpending
  · revert hnone
    decide +kernel
  · revert hpending
    decide +kernel

/-! ## The two sections -/

/-- A renewal that nothing overlaps is its first section, and, when there is something to send,
its last one. -/
theorem genaRenewSubscription_sections
    (hs : GetClientSubClientSID s.ClientSubList in_sid = some sub) :
    (s.genaRenewSubscription env now reply in_sid).1 =
      if env.copyOk && env.headersOk then
        (s.renewBegin true in_sid).renewEnd env.toAllocEnv now reply in_sid
      else s.renewBegin false in_sid := by
  have hpass : ¬ (!true) = true := Bool.false_ne_true
  have hbegin : ∀ copyOk, s.renewBegin copyOk in_sid = { s.unscheduled in_sid sub with
      renewing := if copyOk then in_sid ::ₘ s.renewing else s.renewing } := by
    intro copyOk
    rw [State.renewBegin, hs]
    rfl
  have hsection : { s.renewBegin true in_sid with
      renewing := (s.renewBegin true in_sid).renewing.erase in_sid } = s.unscheduled in_sid sub := by
    rw [hbegin, if_pos rfl, Multiset.erase_cons_head]
    rfl
  rw [State.genaRenewSubscription, hs]
  dsimp only
  cases env.copyOk with
  | false => exact (hbegin false).symm
  | true =>
  cases env.headersOk with
  | false => exact (hbegin false).symm
  | true =>
  rw [if_neg hpass, if_neg hpass, Bool.and_self, if_pos rfl, State.renewEnd, hsection]
  cases htransfer : reply.transferOk with
  | false => rfl
  | true =>
    have hcode := @responseCode_eq_success_iff env reply htransfer env.sidOk
    rw [if_neg hpass, if_neg hpass, unscheduled_found hs]
    dsimp only
    generalize responseCode env reply (headersCode env.sidOk reply) = code at hcode ⊢
    cases hgranted : reply.granted with
    | none =>
      dsimp only
      split <;> rfl
    | some p =>
      obtain ⟨ActualSID, TimeOut⟩ := p
      rw [hgranted] at hcode
      dsimp only
      by_cases hsuccess : code = .GENA_SUCCESS
      · rw [if_neg (not_not.mpr hsuccess), if_pos (hcode.mp hsuccess).1]
        generalize ScheduleGenaAutoRenew env.toAllocEnv now TimeOut
          { sub with RenewEventId := -1 } (s.unscheduled in_sid sub).scheduled
          (s.unscheduled in_sid sub).timer = r
        obtain ⟨timer, scheduling⟩ := r
        cases scheduling with
        | infinite => rfl
        | failed => rfl
        | scheduled eventId => rfl
      · rw [if_pos hsuccess, if_neg fun hsid ↦ hsuccess (hcode.mpr ⟨hsid, rfl⟩)]

end Upnp.GenaClient
