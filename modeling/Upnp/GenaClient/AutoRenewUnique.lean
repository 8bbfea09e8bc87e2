import Upnp.GenaClient.AutoRenew
import Upnp.Timer.Accounting

/-!
# At most one auto-renewal per subscription

Every pending auto-renew event belongs to a listed subscription and is the one
whose id the subscription remembers.  A renewal keeps this only if nothing was
scheduled for its subscription while it was waiting for its peer.
-/

namespace Upnp.GenaClient

open Upnp.Lib Upnp.Timer

/-! ## The timer's calls -/

/-- Ids of pending events are distinct and not negative. -/
structure Ids (timer : TimerThreadStruct Callback Timeout) : Prop where
  nodup : (timer.eventQ.map TimerEvent.eventId).Nodup
  nonneg : ∀ e ∈ timer.eventQ, 0 ≤ e.eventId
  counter : 0 ≤ timer.currentEventId

theorem nextEventId_nonneg (i : Int) : 0 ≤ nextEventId i := by
  unfold nextEventId
  split
  · exact le_refl 0
  · exact not_lt.mp ‹_›

theorem Ids.sublist {timer : TimerThreadStruct Callback Timeout} (h : Ids timer)
    {timer' : TimerThreadStruct Callback Timeout} (hs : timer'.eventQ.Sublist timer.eventQ)
    (hc : timer'.currentEventId = timer.currentEventId) : Ids timer' :=
  ⟨h.nodup.sublist (hs.map _), fun e he ↦ h.nonneg e (hs.subset he), hc ▸ h.counter⟩

theorem unlink_none {i : Int} {q : List (TimerEvent Callback Timeout)} (h : unlink i q = none) :
    ∀ e ∈ q, e.eventId ≠ i := by
  induction q with
  | nil => nofun
  | cons f q ih =>
    simp only [unlink] at h
    split at h
    case isTrue => cases h
    case isFalse hf =>
      rintro e (_ | ⟨_, he⟩)
      · exact hf
      · exact ih (Option.map_eq_none_iff.mp h) e he

/-- What is left after `RemoveTimerEvent` was pending before, and has another id. -/
theorem Ids.removeTimerEvent {timer : TimerThreadStruct Callback Timeout} (h : Ids timer) (i : Int) :
    Ids (RemoveTimerEvent i timer).1 ∧
      ∀ e ∈ (RemoveTimerEvent i timer).1.eventQ, e ∈ timer.eventQ ∧ e.eventId ≠ i := by
  unfold RemoveTimerEvent
  by_cases hi : i = -1
  · rw [if_neg (not_not.mpr hi)]
    refine ⟨h, fun e he ↦ ⟨he, ?_⟩⟩
    have := h.nonneg e he
    omega
  · rw [if_pos hi]
    cases hu : unlink i timer.eventQ with
    | none => exact ⟨h, fun e he ↦ ⟨he, unlink_none hu e he⟩⟩
    | some p =>
      obtain ⟨e₀, rest⟩ := p
      obtain ⟨hid, hp, hs⟩ := unlink_spec hu
      refine ⟨h.sublist hs rfl, fun e he ↦ ⟨hs.subset he, fun heq ↦ ?_⟩⟩
      have hnd := (hp.map TimerEvent.eventId).nodup_iff.mp h.nodup
      rw [List.map_cons, List.nodup_cons, hid, ← heq] at hnd
      exact hnd.1 (List.mem_map_of_mem he)

/-- A pass of the timer thread enters nothing. -/
theorem pass_sublist (current_time : Int) (timer : TimerThreadStruct Callback Timeout) :
    (Timer.pass current_time timer).1.eventQ.Sublist timer.eventQ ∧
      (Timer.pass current_time timer).1.currentEventId = timer.currentEventId := by
  unfold Timer.pass
  dsimp only
  split
  · exact ⟨.refl _, rfl⟩
  split
  · exact ⟨List.tail_sublist _, rfl⟩
  split
  · unfold timedWaitLoop afterWait
    split
    · exact ⟨.refl _, rfl⟩
    split <;> exact ⟨.refl _, rfl⟩
  · unfold waitLoop
    split
    · exact ⟨.refl _, rfl⟩
    · exact ⟨.refl _, rfl⟩

/-- The counter's value is not the id of a pending event. -/
def IdFree (timer : TimerThreadStruct Callback Timeout) : Prop :=
  ∀ e ∈ timer.eventQ, e.eventId ≠ timer.currentEventId

/-- `ScheduleTimerEvent` with a free id. -/
theorem Ids.link {timer : TimerThreadStruct Callback Timeout} (h : Ids timer) (hfree : IdFree timer)
    {e : TimerEvent Callback Timeout} (he : e.eventId = timer.currentEventId)
    {timer' : TimerThreadStruct Callback Timeout} (hq : timer'.eventQ = link e timer.eventQ)
    (hc : timer'.currentEventId = nextEventId timer.currentEventId) : Ids timer' := by
  constructor
  · rw [hq, ((link_perm e timer.eventQ).map _).nodup_iff, List.map_cons, List.nodup_cons]
    refine ⟨fun hmem ↦ ?_, h.nodup⟩
    obtain ⟨f, hf, heq⟩ := List.mem_map.mp hmem
    exact hfree f hf (heq.trans he)
  · intro f hf
    rw [hq] at hf
    rcases mem_link.mp hf with rfl | hf
    · exact he ▸ h.counter
    · exact h.nonneg f hf
  · rw [hc]
    exact nextEventId_nonneg _

/-- The event `ScheduleGenaAutoRenew` puts into the queue. -/
def renewEvent (timer : TimerThreadStruct Callback Timeout) (now TimeOut : Int)
    (sub : ClientSubscription) (serial : Nat) : TimerEvent Callback Timeout :=
  newTimerEvent timer (now + (TimeOut - AUTO_RENEW_TIME)) .GenaAutoRenewSubscription
    (.subscribe sub.sid (sub.EventURL.take (NAME_SIZE - 1)) TimeOut) serial

/-- The three ways `ScheduleGenaAutoRenew` ends. -/
inductive SchedulingOf (env : AllocEnv) (now TimeOut : Int) (sub : ClientSubscription) (serial : Nat)
    (timer : TimerThreadStruct Callback Timeout) :
    TimerThreadStruct Callback Timeout × Scheduling → Prop
  | infinite : TimeOut = UPNP_INFINITE →
    SchedulingOf env now TimeOut sub serial timer (timer, .infinite)
  | failed : TimeOut ≠ UPNP_INFINITE → (env.renewOk → timer.shutdown) →
    SchedulingOf env now TimeOut sub serial timer (timer, .failed)
  | scheduled : TimeOut ≠ UPNP_INFINITE → env.renewOk →
    SchedulingOf env now TimeOut sub serial timer
      ({ timer with
          currentEventId := nextEventId timer.currentEventId
          eventQ := link (renewEvent timer now TimeOut sub serial) timer.eventQ
          newEvent := 1 }, .scheduled timer.currentEventId)

theorem scheduleGenaAutoRenew_cases (env : AllocEnv) (now TimeOut : Int) (sub : ClientSubscription)
    (serial : Nat) (timer : TimerThreadStruct Callback Timeout) :
    SchedulingOf env now TimeOut sub serial timer
      (ScheduleGenaAutoRenew env now TimeOut sub serial timer) := by
  obtain ⟨sidOk, urlOk, subOk, structOk, eventOk, timerOk⟩ := env
  unfold ScheduleGenaAutoRenew
  by_cases hinf : TimeOut = UPNP_INFINITE
  · rw [if_pos hinf]
    exact .infinite hinf
  rw [if_neg hinf]
  cases structOk with
  | false => exact .failed hinf nofun
  | true =>
    cases eventOk with
    | false => exact .failed hinf nofun
    | true =>
      cases timerOk with
      | false => exact .failed hinf nofun
      | true =>
        cases hshut : timer.shutdown with
        | true =>
          simp only [ScheduleTimerEvent, hshut]
          exact .failed hinf fun _ ↦ hshut
        | false =>
          simp only [ScheduleTimerEvent, hshut]
          have hdone : SchedulingOf ⟨sidOk, urlOk, subOk, true, true, true⟩ now TimeOut sub serial
              timer _ := .scheduled hinf rfl
          rw [hshut] at hdone
          exact hdone

/-- What the last section of a renewal leaves. -/
inductive RenewEndOf (env : AllocEnv) (now : Int) (reply : Reply) (sid : CString) (s : State) :
    State → Prop
  | missing : RenewEndOf env now reply sid s { s with renewing := s.renewing.erase sid }
  | removed : RenewEndOf env now reply sid s
      (State.removeClientSubClientSID { s with renewing := s.renewing.erase sid } sid)
  | infinite (sub : ClientSubscription) (ActualSID : CString) :
    GetClientSubClientSID s.ClientSubList sid = some sub →
    RenewEndOf env now reply sid s
      { s with
        renewing := s.renewing.erase sid
        ClientSubList := modifySub sid (fun sub ↦ { sub with ActualSID := ActualSID })
          s.ClientSubList }
  | scheduled (sub : ClientSubscription) (ActualSID : CString) (TimeOut : Int) :
    GetClientSubClientSID s.ClientSubList sid = some sub →
    reply.granted = some (ActualSID, TimeOut) → TimeOut ≠ UPNP_INFINITE → env.sidOk →
    env.renewOk →
    RenewEndOf env now reply sid s
      { s with
        renewing := s.renewing.erase sid
        timer := { s.timer with
          currentEventId := nextEventId s.timer.currentEventId
          eventQ := link (renewEvent s.timer now TimeOut sub s.scheduled) s.timer.eventQ
          newEvent := 1 }
        ClientSubList := modifySub sid
          (fun sub ↦
            { sub with ActualSID := ActualSID, RenewEventId := s.timer.currentEventId })
          s.ClientSubList
        scheduled := s.scheduled + 1 }

theorem renewEnd_cases (env : AllocEnv) (now : Int) (reply : Reply) (sid : CString) (s : State) :
    RenewEndOf env now reply sid s (s.renewEnd env now reply sid) := by
  unfold State.renewEnd
  dsimp only
  split
  · exact .removed
  cases hs : GetClientSubClientSID s.ClientSubList sid with
  | none => exact .missing
  | some sub =>
    cases hg : reply.granted with
    | none => exact .removed
    | some p =>
      obtain ⟨ActualSID, TimeOut⟩ := p
      dsimp only
      split
      case isFalse => exact .removed
      case isTrue hsid =>
        have hcases := scheduleGenaAutoRenew_cases env now TimeOut sub s.scheduled s.timer
        generalize ScheduleGenaAutoRenew env now TimeOut sub s.scheduled s.timer = r at hcases ⊢
        cases hcases with
        | failed _ _ => exact .removed
        | infinite _ => exact .infinite sub ActualSID hs
        | scheduled hinf hrenew => exact .scheduled sub ActualSID TimeOut hs hg hinf hsid hrenew

/-- What the last section of a subscription leaves. -/
inductive SubscribeEndOf (env : AllocEnv) (now : Int) (reply : Reply)
    (PublisherURL out_sid : CString) (s : State) : State → Prop
  | refused :
    SubscribeEndOf env now reply PublisherURL out_sid s { s with sids := out_sid :: s.sids }
  /-- Without an event, for good or because it cannot be scheduled. -/
  | unscheduled (ActualSID : CString) :
    SubscribeEndOf env now reply PublisherURL out_sid s
      { s with
        sids := out_sid :: s.sids
        ClientSubList := ⟨out_sid, ActualSID, PublisherURL, -1⟩ :: s.ClientSubList }
  | scheduled (ActualSID : CString) (TimeOut : Int) :
    reply.granted = some (ActualSID, TimeOut) → TimeOut ≠ UPNP_INFINITE → env.sidOk → env.urlOk →
    env.subOk →
    SubscribeEndOf env now reply PublisherURL out_sid s
      { s with
        sids := out_sid :: s.sids
        ClientSubList :=
          ⟨out_sid, ActualSID, PublisherURL, s.timer.currentEventId⟩ :: s.ClientSubList
        timer := { s.timer with
          currentEventId := nextEventId s.timer.currentEventId
          eventQ := link (renewEvent s.timer now TimeOut ⟨out_sid, ActualSID, PublisherURL, -1⟩
            s.scheduled) s.timer.eventQ
          newEvent := 1 }
        scheduled := s.scheduled + 1 }

theorem subscribeEnd_cases (env : AllocEnv) (now : Int) (reply : Reply)
    (PublisherURL out_sid : CString) (s : State) :
    SubscribeEndOf env now reply PublisherURL out_sid s
      (s.genaSubscribe env now reply PublisherURL out_sid) := by
  unfold State.genaSubscribe
  dsimp only
  cases hg : reply.granted with
  | none => exact .refused
  | some p =>
    obtain ⟨ActualSID, TimeOut⟩ := p
    dsimp only
    split
    case isFalse => exact .refused
    case isTrue halloc =>
      simp only [Bool.and_eq_true] at halloc
      obtain ⟨⟨hsid, hurl⟩, hsub⟩ := halloc
      have hcases := scheduleGenaAutoRenew_cases env now TimeOut
        ⟨out_sid, ActualSID, PublisherURL, -1⟩ s.scheduled s.timer
      generalize ScheduleGenaAutoRenew env now TimeOut ⟨out_sid, ActualSID, PublisherURL, -1⟩
        s.scheduled s.timer = r at hcases ⊢
      cases hcases with
      | infinite _ => exact .unscheduled ActualSID
      | failed _ _ => exact .unscheduled ActualSID
      | scheduled hinf _ => exact .scheduled ActualSID TimeOut hg hinf hsid hurl hsub

/-! ## The list of subscriptions -/

section Subscriptions

variable {sid : CString} {f : ClientSubscription → ClientSubscription}
  {l : List ClientSubscription}

/-- A write that keeps the SID keeps all SIDs. -/
theorem modifySub_sids (hf : ∀ sub, (f sub).sid = sub.sid) :
    (modifySub sid f l).map ClientSubscription.sid = l.map ClientSubscription.sid := by
  induction l with
  | nil => rfl
  | cons sub l ih =>
    simp only [modifySub]
    split
    · rw [List.map_cons, List.map_cons, hf]
    · rw [List.map_cons, List.map_cons, ih]

/-- Other subscriptions are not written. -/
theorem mem_modifySub {sub : ClientSubscription} (hs : sub ∈ l) (hne : sub.sid ≠ sid) :
    sub ∈ modifySub sid f l := by
  induction l with
  | nil => cases hs
  | cons sub' l ih =>
    simp only [modifySub]
    split
    case isTrue heq =>
      rcases List.mem_cons.mp hs with rfl | hs
      · exact absurd heq hne
      · exact List.mem_cons_of_mem _ hs
    case isFalse =>
      rcases List.mem_cons.mp hs with rfl | hs
      · exact List.mem_cons_self
      · exact List.mem_cons_of_mem _ (ih hs)

/-- The subscription found is written. -/
theorem mem_modifySub_self {sub : ClientSubscription} (hs : GetClientSubClientSID l sid = some sub) :
    f sub ∈ modifySub sid f l := by
  unfold GetClientSubClientSID at hs
  induction l with
  | nil => cases hs
  | cons sub' l ih =>
    simp only [modifySub]
    by_cases heq : sub'.sid = sid
    · rw [if_pos heq]
      rw [List.find?_cons_of_pos (by simpa using heq)] at hs
      cases hs
      exact List.mem_cons_self
    · rw [if_neg heq]
      rw [List.find?_cons_of_neg (by simpa using heq)] at hs
      exact List.mem_cons_of_mem _ (ih hs)

theorem getClientSub_some {sub : ClientSubscription} (hs : GetClientSubClientSID l sid = some sub) :
    sub ∈ l ∧ sub.sid = sid :=
  ⟨List.mem_of_find?_eq_some hs, by simpa using List.find?_some hs⟩

end Subscriptions

/-! ## The invariant -/

/-- The SID an event renews, if it is an auto-renew event. -/
def renewedSid (e : TimerEvent Callback Timeout) : Option CString :=
  match e.callback, e.argument with
  | .GenaAutoRenewSubscription, .subscribe sid _ _ => some sid
  | _, _ => none

/-- The invariant of the control point. -/
structure Renewals (s : State) : Prop where
  ids : Ids s.timer
  sids : (s.ClientSubList.map ClientSubscription.sid).Nodup
  used : ∀ sub ∈ s.ClientSubList, sub.sid ∈ s.sids
  /-- A pending auto-renew event is the one its subscription remembers. -/
  own : ∀ e ∈ s.timer.eventQ, ∀ sid, renewedSid e = some sid →
    ∃ sub ∈ s.ClientSubList, sub.sid = sid ∧ sub.RenewEventId = e.eventId

namespace Renewals

variable {s : State}

/-- A pending event of a subscription that is found has the id it remembers. -/
theorem own_id (h : Renewals s) {sid : CString} {sub : ClientSubscription}
    (hs : GetClientSubClientSID s.ClientSubList sid = some sub)
    {e : TimerEvent Callback Timeout} (he : e ∈ s.timer.eventQ) (hsid : renewedSid e = some sid) :
    e.eventId = sub.RenewEventId := by
  obtain ⟨sub', hsub', heq, hid⟩ := h.own e he sid hsid
  obtain ⟨hmem, hname⟩ := getClientSub_some hs
  have hsame : sub' = sub := List.inj_on_of_nodup_map h.sids hsub' hmem (heq.trans hname.symm)
  rw [← hid, hsame]

/-- After the event of a subscription is removed, the pending auto-renew events are of others. -/
theorem removed (h : Renewals s) {sid : CString} {sub : ClientSubscription}
    (hs : GetClientSubClientSID s.ClientSubList sid = some sub)
    {e : TimerEvent Callback Timeout} (he : e ∈ (RemoveTimerEvent sub.RenewEventId s.timer).1.eventQ) :
    e ∈ s.timer.eventQ ∧ renewedSid e ≠ some sid := by
  obtain ⟨hold, hne⟩ := (h.ids.removeTimerEvent sub.RenewEventId).2 e he
  exact ⟨hold, fun hsid ↦ hne (h.own_id hs hold hsid)⟩

theorem removeClientSub (h : Renewals s) (sid : CString) :
    Renewals (s.removeClientSubClientSID sid) := by
  unfold State.removeClientSubClientSID
  cases hs : GetClientSubClientSID s.ClientSubList sid with
  | none => exact h
  | some sub =>
    have hsub : (s.ClientSubList.eraseP fun sub ↦ sub.sid = sid).Sublist s.ClientSubList :=
      List.eraseP_sublist
    refine ⟨(h.ids.removeTimerEvent _).1, h.sids.sublist (hsub.map _),
      fun sub' hsub' ↦ h.used sub' (hsub.subset hsub'), ?_⟩
    intro e he sid' hsid'
    obtain ⟨hold, hne⟩ := h.removed hs he
    obtain ⟨sub', hsub', rfl, hid⟩ := h.own e hold sid' hsid'
    refine ⟨sub', (List.mem_eraseP_of_neg ?_).mpr hsub', rfl, hid⟩
    intro heq
    exact hne (hsid'.trans (congrArg some (by simpa using heq)))

/-- A write to a subscription that keeps its SID, when no event of it is pending. -/
theorem modify (h : Renewals s) {sid : CString} (f : ClientSubscription → ClientSubscription)
    (hf : ∀ sub, (f sub).sid = sub.sid) (timer : TimerThreadStruct Callback Timeout)
    (renewing : Multiset CString) (scheduled : Nat) (hids : Ids timer)
    (hown : ∀ e ∈ timer.eventQ, ∀ sid', renewedSid e = some sid' →
      (e ∈ s.timer.eventQ ∧ sid' ≠ sid) ∨
      (sid' = sid ∧ ∃ sub, GetClientSubClientSID s.ClientSubList sid = some sub ∧
        (f sub).RenewEventId = e.eventId)) :
    Renewals { s with
      ClientSubList := modifySub sid f s.ClientSubList, timer := timer, renewing := renewing,
      scheduled := scheduled } := by
  have hsids : (modifySub sid f s.ClientSubList).map ClientSubscription.sid =
      s.ClientSubList.map ClientSubscription.sid := modifySub_sids hf
  refine ⟨hids, ?_, ?_, ?_⟩
  · show ((modifySub sid f s.ClientSubList).map ClientSubscription.sid).Nodup
    exact hsids ▸ h.sids
  · intro sub hsub
    have hmem := List.mem_map_of_mem (f := ClientSubscription.sid) hsub
    rw [hsids] at hmem
    obtain ⟨sub', hsub', heq⟩ := List.mem_map.mp hmem
    exact heq ▸ h.used sub' hsub'
  · intro e he sid' hsid'
    rcases hown e he sid' hsid' with ⟨hold, hne⟩ | ⟨rfl, sub, hs, hid⟩
    · obtain ⟨sub, hsub, rfl, hid⟩ := h.own e hold sid' hsid'
      exact ⟨sub, mem_modifySub hsub hne, rfl, hid⟩
    · exact ⟨f sub, mem_modifySub_self hs, (hf sub).trans (getClientSub_some hs).2, hid⟩

theorem renewBegin (h : Renewals s) (copyOk : Bool) (sid : CString) :
    Renewals (s.renewBegin copyOk sid) := by
  unfold State.renewBegin
  cases hs : GetClientSubClientSID s.ClientSubList sid with
  | none => exact h
  | some sub =>
    refine h.modify (fun sub ↦ { sub with RenewEventId := -1 }) (fun _ ↦ rfl) _ _ s.scheduled
      (h.ids.removeTimerEvent sub.RenewEventId).1 ?_
    intro e he sid' hsid'
    obtain ⟨hold, hne⟩ := h.removed hs he
    exact .inl ⟨hold, fun heq ↦ hne (heq ▸ hsid')⟩

theorem expire (h : Renewals s) (current_time : Int) :
    Renewals { s with timer := (Timer.pass current_time s.timer).1 } := by
  have hpass := pass_sublist current_time s.timer
  exact ⟨h.ids.sublist hpass.1 hpass.2, h.sids, h.used,
    fun e he ↦ h.own e (hpass.1.subset he)⟩

end Renewals

/-! ## Runs in which renewals do not overlap -/

/-- The call reaches `ScheduleTimerEvent`, which succeeds. -/
def Reschedules (env : AllocEnv) (reply : Reply) : Prop :=
  env.sidOk ∧ env.renewOk ∧ ∃ sid TimeOut, reply.granted = some (sid, TimeOut) ∧
    TimeOut ≠ UPNP_INFINITE

/-- A renewal that schedules an event finds none pending for its subscription; a subscription does
not fail to schedule its event; and the id of a new event is not that of a pending one. -/
def Alone (s : State) : Action → Prop
  | .subscribe env _ reply _ _ =>
    (∀ sid TimeOut, reply.granted = some (sid, TimeOut) → TimeOut ≠ UPNP_INFINITE →
      env.sidOk → env.urlOk → env.subOk → env.renewOk ∧ IdFree s.timer)
  | .renewEnd env _ reply in_sid =>
    Reschedules env reply →
      (∀ e ∈ s.timer.eventQ, renewedSid e ≠ some in_sid) ∧ IdFree s.timer
  | .advertise mallocOk _ _ _ => mallocOk → IdFree s.timer
  | _ => True

namespace Renewals

variable {s s' : State}

theorem renewEnd (h : Renewals s) {env : AllocEnv} {now : Int} {reply : Reply} {sid : CString}
    (hok : Alone s (.renewEnd env now reply sid)) :
    Renewals (s.renewEnd env now reply sid) := by
  have herase : Renewals { s with renewing := s.renewing.erase sid } :=
    ⟨h.ids, h.sids, h.used, h.own⟩
  have hcases := renewEnd_cases env now reply sid s
  generalize s.renewEnd env now reply sid = s' at hcases ⊢
  cases hcases with
  | missing => exact herase
  | removed => exact herase.removeClientSub sid
  | infinite sub ActualSID hs =>
    refine herase.modify (fun sub ↦ { sub with ActualSID := ActualSID }) (fun _ ↦ rfl) _ _
      s.scheduled h.ids ?_
    intro e he sid' hsid'
    by_cases heq : sid' = sid
    · subst heq
      exact .inr ⟨rfl, sub, hs, (h.own_id hs he hsid').symm⟩
    · exact .inl ⟨he, heq⟩
  | scheduled sub ActualSID TimeOut hs hg hinf hsid hrenew =>
    obtain ⟨hnone, hfree⟩ := hok ⟨hsid, hrenew, ActualSID, TimeOut, hg, hinf⟩
    refine herase.modify
      (fun sub ↦ { sub with ActualSID := ActualSID, RenewEventId := s.timer.currentEventId })
      (fun _ ↦ rfl) _ _ (s.scheduled + 1) (h.ids.link hfree rfl rfl rfl) ?_
    intro e he sid' hsid'
    rcases mem_link.mp he with rfl | he
    · have hname := (getClientSub_some hs).2
      cases hsid'
      exact .inr ⟨hname, sub, hs, rfl⟩
    · exact .inl ⟨he, fun heq ↦ hnone e he (heq ▸ hsid')⟩

theorem subscribe (h : Renewals s) {env : AllocEnv} {now : Int} {reply : Reply}
    {PublisherURL out_sid : CString} (hfresh : out_sid ∉ s.sids)
    (hok : Alone s (.subscribe env now reply PublisherURL out_sid)) :
    Renewals (s.genaSubscribe env now reply PublisherURL out_sid) := by
  have hused : Renewals { s with sids := out_sid :: s.sids } :=
    ⟨h.ids, h.sids, fun sub hsub ↦ List.mem_cons_of_mem _ (h.used sub hsub), h.own⟩
  -- one subscription more, with its event or without
  have hcons : ∀ (sub : ClientSubscription) (timer : TimerThreadStruct Callback Timeout) (n : Nat),
      sub.sid = out_sid → Ids timer →
      (∀ e ∈ timer.eventQ, ∀ sid, renewedSid e = some sid →
        e ∈ s.timer.eventQ ∨ (sid = out_sid ∧ sub.RenewEventId = e.eventId)) →
      Renewals { s with
        ClientSubList := sub :: s.ClientSubList, timer := timer, sids := out_sid :: s.sids,
        scheduled := n } := by
    intro sub timer n hsub hids hown
    refine ⟨hids, ?_, ?_, ?_⟩
    · rw [List.map_cons, List.nodup_cons, hsub]
      refine ⟨fun hmem ↦ ?_, h.sids⟩
      obtain ⟨sub', hsub', heq⟩ := List.mem_map.mp hmem
      exact hfresh (heq ▸ h.used sub' hsub')
    · rintro sub' (_ | ⟨_, hsub'⟩)
      · exact hsub ▸ List.mem_cons_self
      · exact hused.used sub' hsub'
    · intro e he sid hsid
      rcases hown e he sid hsid with hold | ⟨rfl, hid⟩
      · obtain ⟨sub', hsub', heq⟩ := h.own e hold sid hsid
        exact ⟨sub', List.mem_cons_of_mem _ hsub', heq⟩
      · exact ⟨sub, List.mem_cons_self, hsub, hid⟩
  have hcases := subscribeEnd_cases env now reply PublisherURL out_sid s
  generalize s.genaSubscribe env now reply PublisherURL out_sid = s' at hcases ⊢
  cases hcases with
  | refused => exact hused
  | unscheduled ActualSID =>
    exact hcons ⟨out_sid, ActualSID, PublisherURL, -1⟩ s.timer s.scheduled rfl h.ids
      fun e he _ _ ↦ .inl he
  | scheduled ActualSID TimeOut hg hinf hsid hurl hsub =>
    obtain ⟨-, hfree⟩ := hok ActualSID TimeOut hg hinf hsid hurl hsub
    refine hcons ⟨out_sid, ActualSID, PublisherURL, s.timer.currentEventId⟩ _ (s.scheduled + 1)
      rfl ?_ ?_
    · exact h.ids.link hfree rfl rfl rfl
    intro e he sid hsid'
    rcases mem_link.mp he with rfl | he
    · cases hsid'
      exact .inr ⟨rfl, rfl⟩
    · exact .inl he

theorem advertise (h : Renewals s) {mallocOk : Bool} {now TimeOut mx : Int}
    (hok : Alone s (.advertise mallocOk now TimeOut mx)) :
    Renewals { s with
      timer := (ScheduleTimerEvent mallocOk now TimeOut .AutoAdvertise (.advertise mx) s.scheduled
        s.timer).1
      scheduled := s.scheduled + 1 } := by
  unfold ScheduleTimerEvent
  cases mallocOk with
  | false => exact ⟨h.ids, h.sids, h.used, h.own⟩
  | true =>
    cases hshut : s.timer.shutdown with
    | true => exact ⟨h.ids, h.sids, h.used, h.own⟩
    | false =>
      simp only [Bool.not_true, Bool.false_eq_true, if_false]
      refine ⟨h.ids.link (hok rfl) rfl rfl rfl, h.sids, h.used, ?_⟩
      intro e he sid hsid
      rcases mem_link.mp he with rfl | he
      · cases hsid
      · exact h.own e he sid hsid

theorem step (h : Renewals s) {l : Action} (hok : Alone s l)
    (hs : GenaClient.step s l = some s') : Renewals s' := by
  cases l with
  | subscribe env now reply PublisherURL out_sid =>
    obtain ⟨hfresh, hs⟩ := Option.ite_none_left_eq_some.mp hs
    exact Option.some.inj hs ▸ h.subscribe hfresh hok
  | renewBegin copyOk sid => exact Option.some.inj hs ▸ h.renewBegin copyOk sid
  | renewEnd env now reply sid =>
    obtain ⟨-, hs⟩ := Option.ite_none_right_eq_some.mp hs
    exact Option.some.inj hs ▸ h.renewEnd hok
  | unsubscribe sid => exact Option.some.inj hs ▸ h.removeClientSub sid
  | expire current_time => exact Option.some.inj hs ▸ h.expire current_time
  | advertise mallocOk now TimeOut mx => exact Option.some.inj hs ▸ h.advertise hok

/-- Events of one subscription are one event. -/
theorem countP_le_one (h : Renewals s) {sub : ClientSubscription} (hsub : sub ∈ s.ClientSubList) :
    s.timer.eventQ.countP (fun e ↦ renewedSid e = some sub.sid) ≤ 1 := by
  calc
    s.timer.eventQ.countP (fun e ↦ renewedSid e = some sub.sid)
        ≤ s.timer.eventQ.countP (fun e ↦ e.eventId = sub.RenewEventId) := by
      refine List.countP_mono_left fun e he hsid ↦ ?_
      obtain ⟨sub', hsub', heq, hid⟩ := h.own e he sub.sid (by simpa using hsid)
      have hsame : sub' = sub := List.inj_on_of_nodup_map h.sids hsub' hsub heq
      simpa [hsame] using hid.symm
    _ = (s.timer.eventQ.map TimerEvent.eventId).count sub.RenewEventId := by
      rw [List.count, List.countP_map]
      exact List.countP_congr fun e _ ↦ by simp
    _ ≤ 1 := List.nodup_iff_count_le_one.mp h.ids.nodup _

end Renewals

/-- The invariant is inductive along runs in which renewals do not overlap. -/
theorem renewals_inductive : machine.Inductive Alone Renewals where
  init s h := by
    rw [show s = registered from h]
    exact ⟨⟨List.nodup_nil, nofun, le_refl 0⟩, List.nodup_nil, nofun, nofun⟩
  step _ _ _ h hok hs := h.step hok hs

/-- Along runs in which no renewal schedules an event while one is pending for its subscription, no
new subscription fails to schedule its event, and no new id is that of a pending event: every
subscription has at most one auto-renew event pending, this event's id is its `RenewEventId`, and
no auto-renew event is pending for a SID that is not listed. -/
theorem auto_renew_unique (s : State) (h : machine.Reach Alone s) :
    (∀ sub ∈ s.ClientSubList,
      s.timer.eventQ.countP (fun e ↦ renewedSid e = some sub.sid) ≤ 1 ∧
      ∀ e ∈ s.timer.eventQ, renewedSid e = some sub.sid → e.eventId = sub.RenewEventId) ∧
    (∀ e ∈ s.timer.eventQ, ∀ sid, renewedSid e = some sid →
      ∃ sub ∈ s.ClientSubList, sub.sid = sid) := by
  have hr : Renewals s := Machine.Reach.invariant renewals_inductive h
  refine ⟨fun sub hsub ↦ ⟨hr.countP_le_one hsub, fun e he hsid ↦ ?_⟩, fun e he sid hsid ↦ ?_⟩
  · obtain ⟨sub', hsub', heq, hid⟩ := hr.own e he sub.sid hsid
    rw [← hid, List.inj_on_of_nodup_map hr.sids hsub' hsub heq]
  · obtain ⟨sub, hsub, heq, -⟩ := hr.own e he sid hsid
    exact ⟨sub, hsub, heq⟩

/-- Every allocation succeeds. -/
def AllocEnv.all : AllocEnv := ⟨true, true, true, true, true, true⟩

/-- The peer grants 1800 seconds under the SID `uuid:1`. -/
def grant : Reply := ⟨true, true, true, some "uuid:1".toList, some (some 1800)⟩

/-- A subscription and its renewal. -/
theorem auto_renew_unique_one :
    ∃ s : State, machine.run registered
        [.subscribe .all 0 grant "http://10.0.0.1/e".toList "uuid:a".toList,
          .renewBegin true "uuid:a".toList, .renewEnd .all 9 grant "uuid:a".toList] = some s ∧
      s.timer.eventQ.length = 1 ∧
      ∀ e ∈ s.timer.eventQ, ∀ sid, renewedSid e = some sid →
        ∃ sub ∈ s.ClientSubList, sub.sid = sid := by
  refine ⟨_, rfl, rfl, (auto_renew_unique _ ?_).2⟩
  have h₀ : machine.Reach Alone registered := .init rfl
  have h₁ := h₀.step
    (l := .subscribe .all 0 grant "http://10.0.0.1/e".toList "uuid:a".toList)
    (show Alone _ (.subscribe _ _ _ _ _) from
      fun _ _ _ _ _ _ _ ↦ ⟨rfl, fun _ he ↦ absurd he List.not_mem_nil⟩) rfl
  have h₂ := h₁.step (l := .renewBegin true "uuid:a".toList)
    (show Alone _ (.renewBegin _ _) from trivial) rfl
  refine h₂.step (l := .renewEnd .all 9 grant "uuid:a".toList)
    (show Alone _ (.renewEnd _ _ _ _) from fun _ ↦ ?_) rfl
  exact ⟨fun _ he ↦ absurd he List.not_mem_nil, fun _ he ↦ absurd he List.not_mem_nil⟩

/-- Two renewals of one subscription wait for the peer at the same time: both schedule an event. -/
theorem two_auto_renewals :
    ∃ s : State, machine.Reachable s ∧ ∃ sub ∈ s.ClientSubList,
      s.timer.eventQ.countP (fun e ↦ renewedSid e = some sub.sid) = 2 := by
  refine ⟨_, Machine.Reach.of_run (s := registered) rfl
    [.subscribe .all 0 grant "http://10.0.0.1/e".toList "uuid:a".toList,
      .renewBegin true "uuid:a".toList, .renewBegin true "uuid:a".toList,
      .renewEnd .all 9 grant "uuid:a".toList, .renewEnd .all 9 grant "uuid:a".toList]
    (fun _ _ _ ↦ trivial) rfl, ⟨"uuid:a".toList, "uuid:1".toList, "http://10.0.0.1/e".toList, 2⟩,
    List.mem_cons_self, ?_⟩
  decide

end Upnp.GenaClient
