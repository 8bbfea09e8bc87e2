import Upnp.Ssdp.Accept

/-!
# Searches

`RequestHandler` waits for replies to a search until a deadline and then tells the client of the
time-out; `SsdpCallbackEventHandler` passes on what has no error.  A run is given by
its turns: what the clock shows and what `select` finds.
-/

namespace Upnp.Ssdp

open Upnp.Lib Exec

/-! ## The callback of the client -/

/-- The events that the application is called with. -/
inductive Upnp_EventType where
  | UPNP_DISCOVERY_ADVERTISEMENT_ALIVE
  | UPNP_DISCOVERY_ADVERTISEMENT_BYEBYE
  | UPNP_DISCOVERY_SEARCH_RESULT
  | UPNP_DISCOVERY_SEARCH_TIMEOUT
deriving DecidableEq, Repr

/-- `struct Upnp_Discovery`, without the address. -/
structure Upnp_Discovery where
  ErrCode : Int
  Expires : Int
  DeviceId : CString
  DeviceType : CString
  ServiceType : CString
  Location : CString
  Os : CString
  Date : CString
  Ext : CString
deriving DecidableEq, Repr

/-- `param` in `SsdpCallbackEventHandler`. -/
def param (Evt : Event) : Upnp_Discovery :=
  { ErrCode := Evt.ErrCode, Expires := Evt.MaxAge, DeviceId := Evt.UDN,
    DeviceType := Evt.DeviceType, ServiceType := Evt.ServiceType,
    Location := Evt.Location.dropWhile (· = ' '), Os := Evt.Os, Date := Evt.Date, Ext := Evt.Ext }

/-- `SsdpCallbackEventHandler`, when a client is registered: what it calls the client with. -/
def SsdpCallbackEventHandler (Evt : Event) : Option (Upnp_EventType × Option Upnp_Discovery) :=
  if Evt.ErrCode = 0 then
    match Evt.Cmd with
    | .OK => some (.UPNP_DISCOVERY_SEARCH_RESULT, some (param Evt))
    | .ALIVE => some (.UPNP_DISCOVERY_ADVERTISEMENT_ALIVE, some (param Evt))
    | .BYEBYE => some (.UPNP_DISCOVERY_ADVERTISEMENT_BYEBYE, some (param Evt))
    | .TIMEOUT => some (.UPNP_DISCOVERY_SEARCH_TIMEOUT, none)
    -- a search is answered by the device, and the others are ignored
    | .SEARCH | .NOTIFY | .ERROR => none
  else none

/-! ## The search thread -/

def MAX_TIME_TOREAD : Int := 45

/-- `TimeTillRead`, for the `Mx` of the search. -/
def TimeTillRead (Mx : Int) : Int :=
  if Mx ≤ 1 then 2 else if MAX_TIME_TOREAD < Mx then MAX_TIME_TOREAD else Mx

/-- What `select` comes back with; a socket on which `recvfrom` gives nothing is readable with
the empty datagram. -/
inductive Selected where
  | error
  | timeout
  | readable (datagram : CString)
deriving DecidableEq, Repr

/-- A turn of the loop: what `time` gives, and what `select` does. -/
structure Turn where
  now : Int
  selected : Selected
deriving DecidableEq, Repr

/-- `select` with a time-out refuses a negative one. -/
def select (tmout : Int) (selected : Selected) : Selected :=
  if tmout < 0 then .error else selected

/-- What the search thread does. -/
inductive SearchAct where
  | select (tmout : Int)
  | CallBackFn (Evt : Event)
  | stop
deriving DecidableEq, Repr

/-- A readable socket: the event behind it, and the calls. -/
def receive (datagram : CString) (Evt : Event) : Exec (Event × List SearchAct) := do
  match ← RequestHandler datagram Evt with
  | some (ret, Evt) => pure (Evt, if 0 ≤ ret then [.CallBackFn Evt] else [])
  | none => pure (Evt, [])

/-- The end of `RequestHandler`. -/
def lastActs (Evt : Event) : List SearchAct := [.CallBackFn { Evt with Cmd := .TIMEOUT }, .stop]

/-- The second loop of `RequestHandler`, with `TimeTillRead+2` for `limit`; with no more turns it is
in `select` still. -/
def receiveLoop (limit StartTime : Int) : List Turn → Int → Event → Exec (List SearchAct)
  | [], ElapsedTime, Evt => pure (if ElapsedTime < limit then [] else lastActs Evt)
  | turn :: turns, ElapsedTime, Evt =>
    if ElapsedTime < limit then
      let ElapsedTime := turn.now - StartTime
      let tmout := limit - ElapsedTime
      match select tmout turn.selected with
      | .error => pure [.select tmout, .stop]
      | .timeout => do
        let rest ← receiveLoop limit StartTime turns ElapsedTime Evt
        pure (.select tmout :: rest)
      | .readable datagram => do
        let (Evt, calls) ← receive datagram Evt
        let rest ← receiveLoop limit StartTime turns ElapsedTime Evt
        pure (.select tmout :: calls ++ rest)
    else pure (lastActs Evt)

/-- `RequestHandler` from where the request is sent, with what `malloc` returns for the event. -/
def searchRun (Mx StartTime : Int) (turns : List Turn) (Evt : Event) : Exec (List SearchAct) :=
  receiveLoop (TimeTillRead Mx + 2) StartTime turns 0 { Evt with ErrCode := NO_ERROR_FOUND }

/-! ## Turns -/

variable {limit StartTime ElapsedTime : Int} {turn : Turn} {turns : List Turn} {Evt evt : Event}
  {packet datagram : CString} {tmout : Int} {lines : List CString} {r : Int × Event} {size : Nat}
  {retVal : Int}

/-- The analysis of the text follows no null pointer: the first line has its words, and the headers
are complete. -/
def NullFree (text : CString) : Prop :=
  ∀ first lines, crlfLines text = first :: lines → FirstLine first ∧ HeadersComplete lines

theorem nullFree_iff (hpacket : packet ≠ []) (evt : Event) :
    (AnalyzeCommand packet evt).val.isSome ↔ NullFree packet := by
  obtain ⟨first, lines, hlines⟩ := List.exists_cons_of_ne_nil (crlfLines_ne_nil packet)
  have honly : NullFree packet ↔ FirstLine first ∧ HeadersComplete lines := by
    refine ⟨fun h ↦ h first lines hlines, ?_⟩
    intro h first' lines' heq
    obtain ⟨rfl, rfl⟩ := List.cons.inj (hlines.symm.trans heq)
    exact h
  rw [honly, AnalyzeCommand_val hpacket hlines, ← @CheckHdr_isSome first InitEvent]
  cases (CheckHdr first InitEvent).val with
  | none => simp
  | some a => simp only [Option.bind_some, headerLoop_isSome, Option.isSome_some, true_and]

/-- The event that comes in does not matter. -/
theorem AnalyzeCommand_any (hpacket : packet ≠ []) (evt evt' : Event) :
    (AnalyzeCommand packet evt).val = (AnalyzeCommand packet evt').val := by
  obtain ⟨first, lines, hlines⟩ := List.exists_cons_of_ne_nil (crlfLines_ne_nil packet)
  rw [AnalyzeCommand_val hpacket hlines, AnalyzeCommand_val hpacket hlines]

/-- The text that a turn brings; the empty one when there is no datagram. -/
def Turn.text (turn : Turn) : CString :=
  match turn.selected with
  | .readable datagram => textOf (received datagram)
  | _ => []

/-- The event that the analysis of the text leaves; an empty text is not analysed. -/
def Turn.event (turn : Turn) : Option Event :=
  if turn.text = [] then none else (AnalyzeCommand turn.text InitEvent).val.map (·.2)

/-- The event of the reply, when the text is accepted. -/
def Turn.reply (turn : Turn) : List Event :=
  match (AnalyzeCommand turn.text InitEvent).val with
  | some (ret, evt) => if 0 ≤ ret then [evt] else []
  | none => []

/-- The acts of a turn in which nothing goes wrong. -/
def Turn.acts (limit StartTime : Int) (turn : Turn) : List SearchAct :=
  .select (limit - (turn.now - StartTime)) :: turn.reply.map .CallBackFn

theorem receive_val (h : NullFree (textOf (received datagram)))
    (ht : turn.selected = .readable datagram) :
    (receive datagram Evt).val =
      some (turn.event.getD Evt, turn.reply.map .CallBackFn) := by
  have htext : turn.text = textOf (received datagram) := by rw [Turn.text, ht]
  rw [← htext] at h
  by_cases hempty : turn.text = []
  · have hreply : turn.reply = [] := by
      rw [Turn.reply, hempty]
      rfl
    rw [Turn.event, if_pos hempty, hreply, receive, RequestHandler, ← htext]
    by_cases hbytes : 0 < (received datagram).length
    · simp only [if_pos hbytes, hempty]
      rfl
    · simp only [if_neg hbytes]
      rfl
  · have hbytes : 0 < (received datagram).length := by
      refine List.length_pos_iff.mpr fun hnil ↦ hempty ?_
      rw [htext, hnil]
      rfl
    obtain ⟨⟨ret, evt⟩, ha⟩ := Option.isSome_iff_exists.mp ((nullFree_iff hempty InitEvent).mpr h)
    rw [Turn.event, if_neg hempty, Turn.reply, ha, receive, RequestHandler, ← htext]
    simp only [if_pos hbytes, val_bind, val_write, Option.bind_some,
      AnalyzeCommand_any hempty Evt InitEvent, ha, val_pure]
    by_cases hret : 0 ≤ ret
    · simp only [if_pos hret]
      rfl
    · simp only [if_neg hret]
      rfl

theorem receive_none (h : ¬ NullFree (textOf (received datagram))) :
    (receive datagram Evt).val = none := by
  have hempty : textOf (received datagram) ≠ [] := by
    intro hnil
    rw [hnil] at h
    apply h
    rintro first lines ⟨⟩
    exact ⟨firstLine_nil, trivial⟩
  have hbytes : 0 < (received datagram).length := by
    refine List.length_pos_iff.mpr fun hnil ↦ hempty ?_
    rw [hnil]
    rfl
  have hnone : (AnalyzeCommand (textOf (received datagram)) Evt).val = none := by
    rw [← Option.not_isSome_iff_eq_none, nullFree_iff hempty]
    exact h
  rw [receive, RequestHandler]
  simp only [if_pos hbytes, val_bind, val_write, hnone, Option.bind_none, Option.bind_some]

/-- Nothing goes wrong in a turn: `select` is not interrupted, the deadline is not past, and the
text is analysed to its end. -/
structure Turn.Good (limit StartTime : Int) (turn : Turn) : Prop where
  answered : turn.selected ≠ .error
  intime : turn.now - StartTime ≤ limit
  analysed : NullFree turn.text

theorem receiveLoop_good (h : turn.Good limit StartTime) (hlt : ElapsedTime < limit) :
    (receiveLoop limit StartTime (turn :: turns) ElapsedTime Evt).val =
      (receiveLoop limit StartTime turns (turn.now - StartTime) (turn.event.getD Evt)).val.map
        (turn.acts limit StartTime ++ ·) := by
  have htmout : ¬ limit - (turn.now - StartTime) < 0 := not_lt.mpr (Int.sub_nonneg.mpr h.intime)
  rw [receiveLoop, if_pos hlt]
  dsimp only
  rw [select, if_neg htmout]
  cases hsel : turn.selected with
  | error => exact absurd hsel h.answered
  | timeout =>
    have htext : turn.text = [] := by rw [Turn.text, hsel]
    have hreply : turn.reply = [] := by
      rw [Turn.reply, htext]
      rfl
    rw [Turn.event, if_pos htext, Turn.acts, hreply, Option.map_eq_bind]
    rfl
  | readable datagram =>
    have htext : turn.text = textOf (received datagram) := by rw [Turn.text, hsel]
    have hfree := h.analysed
    rw [htext] at hfree
    rw [val_bind, receive_val hfree hsel, Option.bind_some, Option.map_eq_bind]
    rfl

/-- How a turn in which something goes wrong ends the run. -/
theorem receiveLoop_bad (h : ¬ turn.Good limit StartTime) (hlt : ElapsedTime < limit) :
    (receiveLoop limit StartTime (turn :: turns) ElapsedTime Evt).val = none ∨
      (receiveLoop limit StartTime (turn :: turns) ElapsedTime Evt).val =
        some [.select (limit - (turn.now - StartTime)), .stop] := by
  rw [receiveLoop, if_pos hlt]
  dsimp only
  cases hsel : select (limit - (turn.now - StartTime)) turn.selected with
  | error => exact .inr rfl
  | timeout =>
    rw [select] at hsel
    split at hsel
    · cases hsel
    · rename_i hpos
      refine absurd ⟨?_, ?_, ?_⟩ h
      · rw [hsel]
        decide
      · exact Int.sub_nonneg.mp (not_lt.mp hpos)
      · rw [Turn.text, hsel]
        rintro first lines ⟨⟩
        exact ⟨firstLine_nil, trivial⟩
  | readable datagram =>
    rw [select] at hsel
    split at hsel
    · cases hsel
    · rename_i hpos
      refine .inl ?_
      rw [val_bind, receive_none, Option.bind_none]
      intro hfree
      refine h ⟨?_, ?_, ?_⟩
      · rw [hsel]
        exact fun heq ↦ by cases heq
      · exact Int.sub_nonneg.mp (not_lt.mp hpos)
      · rwa [Turn.text, hsel]

/-! ## Runs -/

/-- The turns up to the first at which the deadline is reached. -/
def toDeadline (limit StartTime : Int) : List Turn → List Turn
  | [] => []
  | turn :: turns =>
    if turn.now - StartTime < limit then turn :: toDeadline limit StartTime turns else [turn]

/-- The clock reaches the deadline. -/
def Reached (limit StartTime : Int) (turns : List Turn) : Prop :=
  ∃ turn ∈ turns, limit ≤ turn.now - StartTime

instance (limit StartTime : Int) (turns : List Turn) : Decidable (Reached limit StartTime turns) :=
  inferInstanceAs (Decidable (∃ turn ∈ turns, _))

/-- The event behind turns. -/
def eventAfter (turns : List Turn) (Evt : Event) : Event :=
  turns.foldl (fun Evt turn ↦ turn.event.getD Evt) Evt

theorem receiveLoop_over (h : ¬ ElapsedTime < limit) :
    (receiveLoop limit StartTime turns ElapsedTime Evt).val = some (lastActs Evt) := by
  cases turns with
  | nil =>
    rw [receiveLoop, if_neg h]
    rfl
  | cons turn turns =>
    rw [receiveLoop, if_neg h]
    rfl

/-- The acts of a run in which nothing goes wrong. -/
theorem receiveLoop_run (hgood : ∀ turn ∈ toDeadline limit StartTime turns,
    turn.Good limit StartTime) (hlt : ElapsedTime < limit) :
    (receiveLoop limit StartTime turns ElapsedTime Evt).val =
      some ((toDeadline limit StartTime turns).flatMap (·.acts limit StartTime) ++
        if Reached limit StartTime turns then
          lastActs (eventAfter (toDeadline limit StartTime turns) Evt)
        else []) := by
  induction turns generalizing ElapsedTime Evt with
  | nil =>
    rw [receiveLoop, if_pos hlt, if_neg]
    · rfl
    · rintro ⟨turn, hturn, -⟩
      cases hturn
  | cons turn turns ih =>
    rw [toDeadline] at hgood ⊢
    by_cases hnext : turn.now - StartTime < limit
    · have hreached : Reached limit StartTime (turn :: turns) ↔ Reached limit StartTime turns := by
        rw [Reached, List.exists_mem_cons_iff, or_iff_right (not_le.mpr hnext)]
        rfl
      rw [if_pos hnext] at hgood ⊢
      obtain ⟨hturn, hturns⟩ := List.forall_mem_cons.mp hgood
      rw [receiveLoop_good hturn hlt, ih hturns hnext]
      simp only [Option.map_some, List.flatMap_cons, List.append_assoc, hreached, eventAfter,
        List.foldl_cons]
    · have hreached : Reached limit StartTime (turn :: turns) :=
        ⟨turn, List.mem_cons_self, not_lt.mp hnext⟩
      rw [if_neg hnext] at hgood ⊢
      rw [receiveLoop_good (hgood turn (List.mem_singleton.mpr rfl)) hlt, receiveLoop_over hnext,
        if_pos hreached]
      simp only [Option.map_some, List.flatMap_cons, List.flatMap_nil, List.append_nil, eventAfter,
        List.foldl_cons, List.foldl_nil]

/-- A run in which something goes wrong breaks off, or stops right behind `select`. -/
theorem receiveLoop_disturbed (hbad : ∃ turn ∈ toDeadline limit StartTime turns,
    ¬ turn.Good limit StartTime) (hlt : ElapsedTime < limit) :
    (receiveLoop limit StartTime turns ElapsedTime Evt).val = none ∨ ∃ before tmout,
      (receiveLoop limit StartTime turns ElapsedTime Evt).val =
        some (before ++ [.select tmout, .stop]) := by
  induction turns generalizing ElapsedTime Evt with
  | nil =>
    obtain ⟨turn, hturn, -⟩ := hbad
    cases hturn
  | cons turn turns ih =>
    by_cases hturn : turn.Good limit StartTime
    · rw [toDeadline] at hbad
      by_cases hnext : turn.now - StartTime < limit
      · rw [if_pos hnext, List.exists_mem_cons_iff, or_iff_right (not_not.mpr hturn)] at hbad
        rw [receiveLoop_good hturn hlt]
        rcases @ih _ (turn.event.getD Evt) hbad hnext with hnone | ⟨before, tmout, hrun⟩
        · rw [hnone]
          exact .inl rfl
        · rw [hrun]
          refine .inr ⟨turn.acts limit StartTime ++ before, tmout, ?_⟩
          rw [Option.map_some, List.append_assoc]
      · rw [if_neg hnext] at hbad
        obtain ⟨turn', hmem, hnot⟩ := hbad
        obtain rfl := List.mem_singleton.mp hmem
        exact absurd hturn hnot
    · rcases receiveLoop_bad hturn hlt with hnone | hrun
      · exact .inl hnone
      · exact .inr ⟨[], _, hrun⟩

/-! ## The calls -/

/-- What the application is called with. -/
def appCalls (acts : List SearchAct) : List (Upnp_EventType × Option Upnp_Discovery) :=
  acts.filterMap fun
    | .CallBackFn Evt => SsdpCallbackEventHandler Evt
    | _ => none

theorem not_passed {Evt : Event} (h : Evt.ErrCode ≠ NO_ERROR_FOUND) :
    SsdpCallbackEventHandler { Evt with Cmd := .TIMEOUT } = none := if_neg h

theorem headerLoop_cmd (hret : 0 ≤ retVal) (hcmd : evt.Cmd ≠ .TIMEOUT)
    (h : (headerLoop size lines retVal evt).val = some r) (hpos : 0 ≤ r.1) :
    r.2.Cmd ≠ .TIMEOUT := by
  induction lines generalizing retVal evt with
  | nil =>
    cases h
    exact hcmd
  | cons line lines ih =>
    cases hh : findHeader (lineName line) with
    | none => exact ih hret hcmd ((headerLoop_unknown hh).symm.trans h)
    | some hd =>
      rw [headerLoop_known hh] at h
      obtain ⟨v, -, h⟩ := Option.bind_eq_some_iff.mp h
      obtain ⟨a, ha, h⟩ := Option.bind_eq_some_iff.mp h
      by_cases hneg : a.1 < 0
      · rw [if_pos hneg] at h
        cases h
        exact absurd hpos neg_one_not_nonneg
      · rw [if_neg hneg] at h
        refine ih (not_lt.mp hneg) ?_ h
        rcases (Header.parse_taken ha (not_lt.mp hneg)).Cmd with heq | heq | heq
        · rw [heq]
          exact hcmd
        · rw [heq]
          decide
        · rw [heq]
          decide

/-- No packet is taken for a time-out. -/
theorem Turn.reply_cmd (h : evt ∈ turn.reply) : evt.Cmd ≠ .TIMEOUT := by
  rw [Turn.reply] at h
  cases hval : (AnalyzeCommand turn.text InitEvent).val with
  | none =>
    rw [hval] at h
    cases h
  | some a =>
    obtain ⟨ret, evt'⟩ := a
    rw [hval] at h
    dsimp only at h
    by_cases hret : 0 ≤ ret
    · rw [if_pos hret] at h
      obtain rfl := List.mem_singleton.mp h
      by_cases htext : turn.text = []
      · rw [htext] at hval
        cases hval
        exact absurd hret neg_one_not_nonneg
      · obtain ⟨first, lines, hlines⟩ := List.exists_cons_of_ne_nil (crlfLines_ne_nil turn.text)
        rw [AnalyzeCommand_val htext hlines] at hval
        obtain ⟨a, ha, hval⟩ := Option.bind_eq_some_iff.mp hval
        obtain ⟨-, -, c, hc, hcmd⟩ := CheckHdr_keeps ha
        refine headerLoop_cmd Int.one_nonneg ?_ hval hret
        rcases hcmd with heq | heq
        · rw [heq]
          exact hc
        · rw [heq]
          decide
    · rw [if_neg hret] at h
      cases h

/-- The calls of the replies of turns. -/
theorem appCalls_turns (turns : List Turn) :
    appCalls (turns.flatMap (·.acts limit StartTime)) =
      (turns.flatMap Turn.reply).filterMap SsdpCallbackEventHandler := by
  induction turns with
  | nil => rfl
  | cons turn turns ih =>
    rw [appCalls] at ih
    rw [appCalls, List.flatMap_cons, List.filterMap_append, ih, List.flatMap_cons,
      List.filterMap_append, Turn.acts, List.filterMap_cons_none rfl, List.filterMap_map]
    rfl

/-- What is to hold of a search: no time-out that is negative is asked for, the client is called
with each reply that comes up to the deadline, and, when that is reached, with one time-out that the
application gets; then the thread stops. -/
structure SearchEnds (limit StartTime : Int) (turns : List Turn) (acts : List SearchAct) : Prop where
  waits : ∀ tmout, .select tmout ∈ acts → 0 ≤ tmout
  reached : Reached limit StartTime turns → ∃ before Evt,
    acts = before ++ [.CallBackFn Evt, .stop] ∧ .stop ∉ before ∧
      SsdpCallbackEventHandler Evt = some (.UPNP_DISCOVERY_SEARCH_TIMEOUT, none) ∧
      (∀ evt, .CallBackFn evt ∈ before → evt.Cmd ≠ .TIMEOUT) ∧
      appCalls before = ((toDeadline limit StartTime turns).flatMap Turn.reply).filterMap
        SsdpCallbackEventHandler
  waiting : ¬ Reached limit StartTime turns → .stop ∉ acts ∧
    (∀ evt, .CallBackFn evt ∈ acts → evt.Cmd ≠ .TIMEOUT) ∧
    appCalls acts = (turns.flatMap Turn.reply).filterMap SsdpCallbackEventHandler

/-- The search runs its course: no `select` is interrupted, the clock shows the deadline itself
where it is reached, each text is analysed to its end, and the last of them leaves no error. -/
structure Undisturbed (limit StartTime : Int) (turns : List Turn) : Prop where
  good : ∀ turn ∈ toDeadline limit StartTime turns, turn.Good limit StartTime
  clean : Reached limit StartTime turns → ∀ evt,
    ((toDeadline limit StartTime turns).filterMap Turn.event).getLast? = some evt →
      evt.ErrCode = NO_ERROR_FOUND

theorem eventAfter_eq (turns : List Turn) (Evt : Event) :
    eventAfter turns Evt = (turns.filterMap Turn.event).getLast?.getD Evt := by
  induction turns generalizing Evt with
  | nil => rfl
  | cons turn turns ih =>
    rw [eventAfter, List.foldl_cons, ← eventAfter, ih]
    cases hevent : turn.event with
    | none =>
      rw [List.filterMap_cons_none hevent]
      rfl
    | some evt =>
      rw [List.filterMap_cons_some hevent, List.getLast?_cons]
      rfl

theorem mem_turn_acts {act : SearchAct} (h : act ∈ turn.acts limit StartTime) :
    act = .select (limit - (turn.now - StartTime)) ∨
      ∃ evt ∈ turn.reply, act = .CallBackFn evt := by
  rcases List.mem_cons.mp h with h | h
  · exact .inl h
  · obtain ⟨evt, hevt, rfl⟩ := List.mem_map.mp h
    exact .inr ⟨evt, hevt, rfl⟩

theorem toDeadline_of_not_reached (h : ¬ Reached limit StartTime turns) :
    toDeadline limit StartTime turns = turns := by
  induction turns with
  | nil => rfl
  | cons turn turns ih =>
    rw [Reached, List.exists_mem_cons_iff, not_or] at h
    rw [toDeadline, if_pos (not_le.mp h.1), ih h.2]

theorem limit_pos (Mx : Int) : 0 < TimeTillRead Mx + 2 := by
  unfold TimeTillRead MAX_TIME_TOREAD
  split_ifs <;> omega

/-- For every search, every course of the clock and every sequence of datagrams and interruptions,
the search ends as it should exactly when it is not disturbed. -/
theorem searchRun_iff (Mx StartTime : Int) (turns : List Turn) (Evt : Event) :
    (∃ acts, (searchRun Mx StartTime turns Evt).val = some acts ∧
      SearchEnds (TimeTillRead Mx + 2) StartTime turns acts) ↔
    Undisturbed (TimeTillRead Mx + 2) StartTime turns := by
  rw [searchRun]
  generalize hlimit : TimeTillRead Mx + 2 = limit
  have hlt : 0 < limit := hlimit ▸ limit_pos Mx
  generalize hevt₀ : ({ Evt with ErrCode := NO_ERROR_FOUND } : Event) = Evt₀
  have hcode₀ : Evt₀.ErrCode = NO_ERROR_FOUND := by rw [← hevt₀]
  constructor
  · rintro ⟨acts, hrun, hends⟩
    have hgood : ∀ turn ∈ toDeadline limit StartTime turns, turn.Good limit StartTime := by
      by_contra hbad
      push Not at hbad
      rcases @receiveLoop_disturbed _ _ _ _ Evt₀ hbad hlt with hnone | ⟨before, tmout, hstop⟩
      · cases hrun.symm.trans hnone
      · obtain rfl := Option.some.inj (hrun.symm.trans hstop)
        by_cases hreached : Reached limit StartTime turns
        · obtain ⟨before', evt, heq, -⟩ := hends.reached hreached
          have hlast := (List.append_inj' heq rfl).2
          cases hlast
        · refine (hends.waiting hreached).1 (List.mem_append_right _ ?_)
          exact List.mem_cons_of_mem _ List.mem_cons_self
    refine ⟨hgood, ?_⟩
    intro hreached evt hlast
    obtain ⟨before, evt', heq, -, hpass, -⟩ := hends.reached hreached
    have hrun' := @receiveLoop_run _ _ _ _ Evt₀ hgood hlt
    rw [if_pos hreached, hrun, Option.some.injEq, heq] at hrun'
    have hevt := (List.append_inj' hrun' rfl).2
    rw [lastActs, eventAfter_eq, hlast, Option.getD_some] at hevt
    simp only [List.cons.injEq, SearchAct.CallBackFn.injEq, and_true] at hevt
    by_contra hne
    rw [hevt, not_passed hne] at hpass
    cases hpass
  · intro h
    have hselect : ∀ tmout, SearchAct.select tmout ∈
        (toDeadline limit StartTime turns).flatMap (·.acts limit StartTime) → 0 ≤ tmout := by
      intro tmout hmem
      obtain ⟨turn, hturn, hact⟩ := List.mem_flatMap.mp hmem
      rcases mem_turn_acts hact with heq | ⟨evt, -, heq⟩
      · obtain rfl := SearchAct.select.inj heq
        exact Int.sub_nonneg.mpr (h.good turn hturn).intime
      · cases heq
    have hcalls : ∀ evt, SearchAct.CallBackFn evt ∈
        (toDeadline limit StartTime turns).flatMap (·.acts limit StartTime) →
          evt.Cmd ≠ .TIMEOUT := by
      intro evt hmem
      obtain ⟨turn, hturn, hact⟩ := List.mem_flatMap.mp hmem
      rcases mem_turn_acts hact with heq | ⟨evt', hevt', heq⟩
      · cases heq
      · obtain rfl := SearchAct.CallBackFn.inj heq
        exact Turn.reply_cmd hevt'
    have hstop : SearchAct.stop ∉
        (toDeadline limit StartTime turns).flatMap (·.acts limit StartTime) := by
      intro hmem
      obtain ⟨turn, hturn, hact⟩ := List.mem_flatMap.mp hmem
      rcases mem_turn_acts hact with heq | ⟨evt', -, heq⟩
      · cases heq
      · cases heq
    refine ⟨_, receiveLoop_run h.good hlt, ?_⟩
    by_cases hreached : Reached limit StartTime turns
    · rw [if_pos hreached]
      refine ⟨?_, fun _ ↦ ⟨_, _, rfl, hstop, ?_, hcalls, appCalls_turns _⟩,
        fun hno ↦ absurd hreached hno⟩
      · intro tmout hmem
        rcases List.mem_append.mp hmem with hmem | hmem
        · exact hselect tmout hmem
        · simp [lastActs] at hmem
      · have hcode : (eventAfter (toDeadline limit StartTime turns) Evt₀).ErrCode = 0 := by
          rw [eventAfter_eq]
          cases hlast : ((toDeadline limit StartTime turns).filterMap Turn.event).getLast? with
          | none => exact hcode₀
          | some evt => exact h.clean hreached evt hlast
        rw [SsdpCallbackEventHandler, if_pos hcode]
    · rw [if_neg hreached, List.append_nil]
      refine ⟨hselect, fun hyes ↦ absurd hyes hreached, fun _ ↦ ⟨hstop, hcalls, ?_⟩⟩
      rw [appCalls_turns, toDeadline_of_not_reached hreached]

/-- One malformed datagram, and then silence: the time-out has the error of the datagram. -/
theorem search_not_ended : ¬ ∀ Mx StartTime turns Evt,
    turns.Pairwise (fun t₁ t₂ : Turn ↦ t₁.now ≤ t₂.now) →
      (∀ turn ∈ turns, StartTime ≤ turn.now ∧ turn.selected ≠ .error) →
        ∃ acts, (searchRun Mx StartTime turns Evt).val = some acts ∧
          SearchEnds (TimeTillRead Mx + 2) StartTime turns acts := by
  intro h
  obtain ⟨acts, hrun, hends⟩ := h 1 0 [⟨0, .readable "HELLO".toList⟩, ⟨4, .timeout⟩] InitEvent
    (by decide) (by decide)
  have hacts : (searchRun 1 0 [⟨0, .readable "HELLO".toList⟩, ⟨4, .timeout⟩] InitEvent).val =
      some [.select 4, .CallBackFn { InitEvent with ErrCode := E_HTTP_SYNTEX }, .select 0,
        .CallBackFn { InitEvent with ErrCode := E_HTTP_SYNTEX, Cmd := .TIMEOUT }, .stop] := by
    decide +kernel
  obtain rfl := Option.some.inj (hrun.symm.trans hacts)
  obtain ⟨before, evt, heq, -, hpass, -⟩ := hends.reached (by decide)
  have hsplit : [SearchAct.select 4, .CallBackFn { InitEvent with ErrCode := E_HTTP_SYNTEX },
      .select 0] ++ [.CallBackFn { InitEvent with ErrCode := E_HTTP_SYNTEX, Cmd := .TIMEOUT },
      .stop] = before ++ [.CallBackFn evt, .stop] := heq
  have hlast := (List.append_inj' hsplit rfl).2
  cases hlast
  cases hpass

end Upnp.Ssdp
