import Upnp.Gena.Lifetime
import Upnp.GenaClient.AutoRenew

/-!
# Notifications

`genaNotifyReceived` of `gena_client.c`: the checks of a message in their order, the look-up of
the subscription by the SID of the publisher, and the call of the application.  The look-up is
made a second time for a first event, which may come before the response to the subscription.
-/

namespace Upnp.GenaClient

open Upnp.Lib

/-- `search_for_header`, over the names of the headers and their values. -/
def search_for_header (header_list : List (CString × Gena.Token)) (header : CString) :
    Option Gena.Token :=
  (header_list.find? fun temp ↦
    temp.1.length = header.length && strncaseEq header temp.1 temp.1.length).map (·.2)

/-- What is read of a notification. -/
structure NotifyMessage where
  header_list : List (CString × Gena.Token)
  content : Gena.Token

/-- The answers to a notification. -/
inductive NotifyResponse where
  | MISSING_SID
  | BAD_REQUEST
  | INVALID_NT
  | INVALID_SID
  | HTTP_OK_CRLF
  deriving DecidableEq

/-- `Upnp_Event`. -/
structure UpnpEvent where
  Sid : CString
  EventKey : Int
  deriving DecidableEq

/-- What comes of a notification: the answer, and the calls of the application, each with the
subscription it is made for. -/
structure Notified where
  response : NotifyResponse
  callbacks : List (ClientSubscription × UpnpEvent)
  deriving DecidableEq

/-- The test of the NT and NTS headers that refuses a message. -/
def invalidNT (NT NTS : Gena.Token) : Bool :=
  NT.text.length = "upnp:event".length &&
      !strnEq NT.text "upnp:event".toList NT.text.length ||
    NT.text.length = "upnp:propchange".length &&
      !strnEq NTS.text "upnp:propchange".toList NTS.text.length

/-- The checks before the look-up, over the parser `UpnpParse_Buffer`: the SID and the key of the
event. -/
def notifyChecks (parse : CString → Bool) (request : NotifyMessage) :
    Except NotifyResponse (CString × Int) :=
  match search_for_header request.header_list "SID".toList with
  | none => .error .MISSING_SID
  | some sid =>
    match (search_for_header request.header_list "SEQ".toList).bind fun t ↦ strtol 10 t.buff with
    | none => .error .BAD_REQUEST
    | some eventKey =>
      match search_for_header request.header_list "NT".toList,
        search_for_header request.header_list "NTS".toList with
      | some NT, some NTS =>
        if invalidNT NT NTS then .error .INVALID_NT
        else if request.content.text = [] || !parse request.content.buff then .error .BAD_REQUEST
        else .ok (sid.text, wrap32 eventKey)
      | _, _ => .error .BAD_REQUEST

/-- The SID begins what `ActualSID` points to, its NUL included: `memcmp` over the length of the
SID. -/
def Begins (sid : CString) (sub : ClientSubscription) : Prop :=
  sid <+: sub.ActualSID ++ ['\x00']

instance (sid : CString) : DecidablePred (Begins sid) :=
  fun _ ↦ inferInstanceAs (Decidable (_ <+: _))

/-- `GetClientSubActualSID`; `none` where `memcmp` is to read behind an `ActualSID`. -/
def GetClientSubActualSID (sid : CString) :
    List ClientSubscription → Option (Option ClientSubscription)
  | [] => some none
  | next :: l =>
    if sid.length > next.ActualSID.length + 1 then none
    else if Begins sid next then some (some next)
    else GetClientSubActualSID sid l

/-- The answer and the call for an event of a subscription. -/
def receive (subscription : ClientSubscription) (eventKey : Int) : Notified :=
  ⟨.HTTP_OK_CRLF, [(subscription, ⟨subscription.sid, eventKey⟩)]⟩

/-- `genaNotifyReceived`, with the `ClientSubList` of the client when the handle is locked first,
and when it is locked again after the lock of the subscribing threads; `none` without a client. -/
def genaNotifyReceived (parse : CString → Bool) (ClientSubList again : Option
    (List ClientSubscription)) (request : NotifyMessage) : Option Notified :=
  match notifyChecks parse request with
  | .error r => some ⟨r, []⟩
  | .ok (sid, eventKey) =>
    match ClientSubList with
    | none => some ⟨.INVALID_SID, []⟩
    | some head =>
      match GetClientSubActualSID sid head with
      | none => none
      | some (some subscription) => some (receive subscription eventKey)
      | some none =>
        if eventKey = 0 then
          match again with
          | none => some ⟨.INVALID_SID, []⟩
          | some head =>
            match GetClientSubActualSID sid head with
            | none => none
            | some (some subscription) => some (receive subscription eventKey)
            | some none => some ⟨.INVALID_SID, []⟩
        else some ⟨.INVALID_SID, []⟩

variable {parse : CString → Bool} {ClientSubList again : Option (List ClientSubscription)}
  {request : NotifyMessage} {sid : CString} {eventKey : Int} {sub : ClientSubscription}
  {head : List ClientSubscription}

/-! ## The look-up -/

/-- Each subscription that a search for the SID comes to is at most one character shorter, and the
one that the SID begins has that SID. -/
def Distinguishes (sid : CString) (head : List ClientSubscription) : Prop :=
  ∀ before sub behind, head = before ++ sub :: behind → (∀ b ∈ before, ¬ Begins sid b) →
    sid.length ≤ sub.ActualSID.length + 1 ∧ (Begins sid sub → sub.ActualSID = sid)

theorem distinguishes_nil : Distinguishes sid [] := by
  intro before sub behind heq
  have hmem : sub ∈ ([] : List ClientSubscription) := by
    rw [heq]
    exact List.mem_append_right _ (List.mem_cons_self ..)
  cases hmem

theorem distinguishes_cons :
    Distinguishes sid (sub :: head) ↔ sid.length ≤ sub.ActualSID.length + 1 ∧
      (Begins sid sub → sub.ActualSID = sid) ∧ (¬ Begins sid sub → Distinguishes sid head) := by
  constructor
  · intro h
    obtain ⟨hle, heq⟩ := h [] sub head rfl fun b hb ↦ by cases hb
    refine ⟨hle, heq, fun hne before sub' behind hhead hbefore ↦ ?_⟩
    apply h (sub :: before) sub' behind (congrArg (sub :: ·) hhead)
    intro b hb
    rcases List.mem_cons.mp hb with rfl | hb
    · exact hne
    · exact hbefore b hb
  · rintro ⟨hle, heq, hrest⟩ before sub' behind hhead hbefore
    cases before with
    | nil =>
      cases hhead
      exact ⟨hle, heq⟩
    | cons b before =>
      cases hhead
      exact hrest (hbefore _ (List.mem_cons_self ..)) before sub' behind rfl fun b hb ↦
        hbefore b (List.mem_cons_of_mem _ hb)

/-- The look-up stays within the strings and finds no other subscription exactly when the list
tells its SIDs from the one that is looked for. -/
theorem distinguishes_iff :
    Distinguishes sid head ↔ ∃ found, GetClientSubActualSID sid head = some found ∧
      ∀ sub ∈ found, sub.ActualSID = sid := by
  induction head with
  | nil => exact iff_of_true distinguishes_nil ⟨none, rfl, fun sub hsub ↦ by cases hsub⟩
  | cons next head ih =>
    rw [distinguishes_cons, GetClientSubActualSID]
    split
    · rename_i hlong
      refine iff_of_false (fun h ↦ absurd h.1 (not_le.mpr hlong)) ?_
      rintro ⟨_, ⟨⟩, _⟩
    · rename_i hle
      split
      · rename_i hbegins
        constructor
        · intro h
          refine ⟨_, rfl, ?_⟩
          rintro _ ⟨⟩
          exact h.2.1 hbegins
        · rintro ⟨_, ⟨⟩, heq⟩
          exact ⟨not_lt.mp hle, fun _ ↦ heq _ rfl, fun hnot ↦ absurd hbegins hnot⟩
      · rename_i hbegins
        rw [← ih]
        constructor
        · exact fun h ↦ h.2.2 hbegins
        · exact fun h ↦ ⟨not_lt.mp hle, fun hb ↦ absurd hb hbegins, fun _ ↦ h⟩

theorem GetClientSubActualSID_none (h : GetClientSubActualSID sid head = some none) :
    ∀ sub ∈ head, ¬ Begins sid sub := by
  induction head with
  | nil =>
    intro sub hsub
    cases hsub
  | cons next head ih =>
    rw [GetClientSubActualSID] at h
    split at h
    · cases h
    split at h
    · cases h
    rename_i hbegins
    intro sub hsub
    rcases List.mem_cons.mp hsub with rfl | hsub
    · exact hbegins
    · exact ih h sub hsub

theorem GetClientSubActualSID_some (h : GetClientSubActualSID sid head = some (some sub)) :
    sub ∈ head ∧ Begins sid sub := by
  induction head with
  | nil => cases h
  | cons next head ih =>
    rw [GetClientSubActualSID] at h
    split at h
    · cases h
    split at h
    · rename_i hbegins
      cases h
      exact ⟨List.mem_cons_self .., hbegins⟩
    · obtain ⟨hmem, hbegins⟩ := ih h
      exact ⟨List.mem_cons_of_mem _ hmem, hbegins⟩

/-! ## Delivery -/

/-- A message reads no byte past a string, calls the application at most once, and does so for a
subscription whose `ActualSID` is the value of the header. -/
structure DeliversRight (parse : CString → Bool) (ClientSubList again : Option
    (List ClientSubscription)) (request : NotifyMessage) : Prop where
  returns : ∃ r, genaNotifyReceived parse ClientSubList again request = some r
  once : ∀ r ∈ genaNotifyReceived parse ClientSubList again request, r.callbacks.length ≤ 1
  right : ∀ r ∈ genaNotifyReceived parse ClientSubList again request, ∀ e ∈ r.callbacks,
    (search_for_header request.header_list "SID".toList).map (·.text) = some e.1.ActualSID

/-- The lists that a message is looked up in tell their SIDs from its. -/
def Distinguished (parse : CString → Bool) (ClientSubList again : Option
    (List ClientSubscription)) (request : NotifyMessage) : Prop :=
  ∀ sid eventKey, notifyChecks parse request = .ok (sid, eventKey) → ∀ head ∈ ClientSubList,
    Distinguishes sid head ∧ (eventKey = 0 → (∀ sub ∈ head, ¬ Begins sid sub) →
      ∀ head ∈ again, Distinguishes sid head)

theorem sid_of_notifyChecks (h : notifyChecks parse request = .ok (sid, eventKey)) :
    (search_for_header request.header_list "SID".toList).map (·.text) = some sid := by
  unfold notifyChecks at h
  split at h
  · cases h
  rename_i hsid
  rw [hsid]
  split at h
  · cases h
  split at h
  · split at h
    · cases h
    split at h
    · cases h
    · cases h
      rfl
  · cases h

theorem delivers_refused {r : NotifyResponse}
    (h : genaNotifyReceived parse ClientSubList again request = some ⟨r, []⟩) :
    DeliversRight parse ClientSubList again request := by
  constructor
  · exact ⟨_, h⟩
  · rw [h]
    rintro _ ⟨⟩
    exact Nat.zero_le _
  · rw [h]
    rintro _ ⟨⟩ e he
    cases he

theorem delivers_receive_iff
    (h : genaNotifyReceived parse ClientSubList again request = some (receive sub eventKey))
    (hsid : (search_for_header request.header_list "SID".toList).map (·.text) = some sid) :
    DeliversRight parse ClientSubList again request ↔ sub.ActualSID = sid := by
  constructor
  · intro hright
    have hnamed := hright.right _ h _ (List.mem_singleton_self _)
    rw [hsid] at hnamed
    exact (Option.some.inj hnamed).symm
  · rintro rfl
    constructor
    · exact ⟨_, h⟩
    · rw [h]
      rintro _ ⟨⟩
      exact le_rfl
    · rw [h]
      rintro _ ⟨⟩ e he
      rw [List.mem_singleton.mp he]
      exact hsid

theorem not_delivers_fault (h : genaNotifyReceived parse ClientSubList again request = none) :
    ¬ DeliversRight parse ClientSubList again request := by
  intro hright
  obtain ⟨r, hr⟩ := hright.returns
  rw [h] at hr
  cases hr

/-- What comes of the look-up in one list, and of `rest` when nothing is found there. -/
theorem delivers_lookup_iff {rest : Option Notified} {p : Prop}
    (hsid : (search_for_header request.header_list "SID".toList).map (·.text) = some sid)
    (h : genaNotifyReceived parse ClientSubList again request =
      match GetClientSubActualSID sid head with
      | none => none
      | some (some subscription) => some (receive subscription eventKey)
      | some none => rest)
    (hrest : GetClientSubActualSID sid head = some none →
      (DeliversRight parse ClientSubList again request ↔ p)) :
    DeliversRight parse ClientSubList again request ↔
      Distinguishes sid head ∧ ((∀ sub ∈ head, ¬ Begins sid sub) → p) := by
  rw [distinguishes_iff]
  cases hfound : GetClientSubActualSID sid head with
  | none =>
    rw [hfound] at h
    refine iff_of_false (not_delivers_fault h) ?_
    rintro ⟨⟨_, ⟨⟩, _⟩, _⟩
  | some found =>
    cases found with
    | none =>
      rw [hrest hfound]
      constructor
      · exact fun hp ↦ ⟨⟨none, rfl, fun sub hsub ↦ by cases hsub⟩, fun _ ↦ hp⟩
      · exact fun hp ↦ hp.2 (GetClientSubActualSID_none hfound)
    | some sub =>
      rw [hfound] at h
      rw [delivers_receive_iff h hsid]
      obtain ⟨hmem, hbegins⟩ := GetClientSubActualSID_some hfound
      constructor
      · intro heq
        refine ⟨⟨some sub, rfl, ?_⟩, fun hnone ↦ absurd hbegins (hnone sub hmem)⟩
        rintro _ ⟨⟩
        exact heq
      · rintro ⟨⟨_, ⟨⟩, heq⟩, -⟩
        exact heq sub rfl

/-- A message is delivered to the subscription it names, within the strings, if and only if the
lists it is looked up in tell their SIDs from its. -/
theorem deliversRight_iff (parse : CString → Bool) (ClientSubList again : Option
    (List ClientSubscription)) (request : NotifyMessage) :
    DeliversRight parse ClientSubList again request ↔
      Distinguished parse ClientSubList again request := by
  cases hchecks : notifyChecks parse request with
  | error r =>
    have hrun : genaNotifyReceived parse ClientSubList again request = some ⟨r, []⟩ := by
      rw [genaNotifyReceived, hchecks]
    refine iff_of_true (delivers_refused hrun) fun sid eventKey hok ↦ ?_
    rw [hchecks] at hok
    cases hok
  | ok checked =>
    obtain ⟨sid, eventKey⟩ := checked
    have hsid := sid_of_notifyChecks hchecks
    have hdist : Distinguished parse ClientSubList again request ↔ ∀ head ∈ ClientSubList,
        Distinguishes sid head ∧ (eventKey = 0 → (∀ sub ∈ head, ¬ Begins sid sub) →
          ∀ head ∈ again, Distinguishes sid head) := by
      constructor
      · exact fun h ↦ h sid eventKey hchecks
      · intro h sid' eventKey' hok
        rw [hchecks] at hok
        cases hok
        exact h
    rw [hdist]
    cases ClientSubList with
    | none =>
      have hrun : genaNotifyReceived parse none again request = some ⟨.INVALID_SID, []⟩ := by
        rw [genaNotifyReceived, hchecks]
      exact iff_of_true (delivers_refused hrun) fun head hhead ↦ by cases hhead
    | some head =>
      have hlist : ∀ p : List ClientSubscription → Prop, (∀ head' ∈ some head, p head') ↔ p head :=
        fun p ↦ ⟨fun h ↦ h head rfl, by rintro h _ ⟨⟩; exact h⟩
      rw [hlist]
      refine (delivers_lookup_iff hsid (by rw [genaNotifyReceived, hchecks]) ?_).trans
        (and_congr_right' imp.swap)
      intro hnone
      have hrun : genaNotifyReceived parse (some head) again request =
          if eventKey = 0 then
            match again with
            | none => some ⟨.INVALID_SID, []⟩
            | some head =>
              match GetClientSubActualSID sid head with
              | none => none
              | some (some subscription) => some (receive subscription eventKey)
              | some none => some ⟨.INVALID_SID, []⟩
          else some ⟨.INVALID_SID, []⟩ := by
        rw [genaNotifyReceived, hchecks]
        dsimp only
        rw [hnone]
      by_cases hkey : eventKey = 0
      · rw [if_pos hkey] at hrun
        cases again with
        | none => exact iff_of_true (delivers_refused hrun) fun _ head hhead ↦ by cases hhead
        | some head' =>
          dsimp only at hrun
          have hsecond := delivers_lookup_iff (p := True) hsid hrun fun hnone' ↦
            iff_true_intro (delivers_refused (by rw [hrun, hnone']))
          rw [hsecond]
          constructor
          · rintro ⟨hhead, -⟩ _ _ ⟨⟩
            exact hhead
          · exact fun h ↦ ⟨h hkey head' rfl, fun _ ↦ trivial⟩
      · rw [if_neg hkey] at hrun
        exact iff_of_true (delivers_refused hrun) fun hzero ↦ absurd hzero hkey

/-- A notification of one changed variable, with the SID given. -/
def changed (sid NT NTS : String) : NotifyMessage where
  header_list :=
    [("NT".toList, ⟨NT.toList, "\r\n".toList⟩), ("NTS".toList, ⟨NTS.toList, "\r\n".toList⟩),
      ("SID".toList, ⟨sid.toList, "\r\n".toList⟩), ("SEQ".toList, ⟨"1".toList, "\r\n".toList⟩)]
  content := ⟨"<e:propertyset/>".toList, []⟩

/-- A subscription at the publisher. -/
def subscribed : ClientSubscription := ⟨"uuid:1".toList, "uuid:22".toList, "/e".toList, -1⟩

/-- A SID that begins another one receives its event. -/
theorem delivered_elsewhere : ¬ DeliversRight (fun _ ↦ true) (some [subscribed]) none
    (changed "uuid:" "upnp:event" "upnp:propchange") := by
  intro h
  have hrun : genaNotifyReceived (fun _ ↦ true) (some [subscribed]) none
      (changed "uuid:" "upnp:event" "upnp:propchange") = some (receive subscribed 1) := by
    decide +kernel
  have hnamed := h.right _ hrun _ (List.mem_singleton_self _)
  revert hnamed
  decide +kernel

/-! ## The type headers -/

/-- The value of the header of a subscription request is a whole one, case apart. -/
def WholeNT (request : Gena.HttpRequest) : Prop :=
  ∃ NT, request.header "NT".toList = some NT ∧
    (strcaseEq NT.text "upnp:event".toList ∨ strcaseEq NT.text "upnp:propchange".toList)

/-- Both headers of a notification are whole ones. -/
def WholeNTS (request : NotifyMessage) : Prop :=
  ∃ NT NTS, search_for_header request.header_list "NT".toList = some NT ∧
    search_for_header request.header_list "NTS".toList = some NTS ∧
      NT.text = "upnp:event".toList ∧ NTS.text = "upnp:propchange".toList

/-- The messages whose type headers are checked. -/
inductive GenaMessage where
  | subscribe (request : Gena.HttpRequest)
  | notify (request : NotifyMessage)

namespace GenaMessage

/-- The message can be accepted: with a service, memory, and a subscription, it is. -/
def Accepted : GenaMessage → Prop
  | subscribe request => ∃ samePath env s time_out sid info l svc,
    Gena.requestedService samePath s request = some (info, l, svc) ∧
      (Gena.genaSubscriptionRequest samePath env s request).2 = .respondOK time_out sid
  | notify request => ∃ parse ClientSubList again r,
    genaNotifyReceived parse ClientSubList again request = some r ∧ r.response = .HTTP_OK_CRLF

/-- The type headers have the values they are to have. -/
def Whole : GenaMessage → Prop
  | subscribe request => WholeNT request
  | notify request => WholeNTS request

/-- The messages that pass with other values. -/
def Slips : GenaMessage → Prop
  | subscribe request => (request.header "SID".toList) = none ∧
    (request.header "CALLBACK".toList).isSome ∧ ∃ NT, request.header "NT".toList = some NT ∧
      ∃ whole ∈ ["upnp:event".toList, "upnp:propchange".toList],
        NT.text.map Char.toLower <+: whole ∧ NT.text.length < whole.length
  | notify request => (search_for_header request.header_list "SID".toList).isSome ∧
    (∃ SEQ, search_for_header request.header_list "SEQ".toList = some SEQ ∧
      (strtol 10 SEQ.buff).isSome) ∧ request.content.text ≠ [] ∧
    ∃ NT NTS, search_for_header request.header_list "NT".toList = some NT ∧
      search_for_header request.header_list "NTS".toList = some NTS ∧
        (NT.text.length = 10 → NT.text = "upnp:event".toList ∧ NTS.text ≠ "upnp:propchange".toList) ∧
          (NT.text.length = 15 → NTS.text <+: "upnp:propchange".toList)

end GenaMessage

theorem acceptedNT_iff (NT : Gena.Token) : Gena.acceptedNT NT = true ↔
    ∃ whole ∈ ["upnp:event".toList, "upnp:propchange".toList],
      NT.text.map Char.toLower <+: whole := by
  have hbegins : ∀ whole : CString, whole.map Char.toLower = whole →
      (strncaseEq NT.text whole NT.text.length = true ↔ NT.text.map Char.toLower <+: whole) := by
    intro whole hlower
    rw [strncaseEq, strcaseEq, decide_eq_true_iff, List.take_length, List.map_take, hlower,
      List.prefix_iff_eq_take, List.length_map]
  rw [Gena.acceptedNT, Bool.or_eq_true, hbegins _ (by decide), hbegins _ (by decide)]
  constructor
  · rintro (h | h)
    · exact ⟨_, List.mem_cons_self .., h⟩
    · exact ⟨_, List.mem_cons_of_mem _ (List.mem_singleton_self _), h⟩
  · rintro ⟨whole, hmem, h⟩
    rcases List.mem_cons.mp hmem with rfl | hmem
    · exact .inl h
    · exact .inr (List.mem_singleton.mp hmem ▸ h)

/-- What is read of a subscription request before it is accepted. -/
theorem accepted_subscribe_iff {request : Gena.HttpRequest} :
    (GenaMessage.subscribe request).Accepted ↔
      (∃ NT, request.header "NT".toList = some NT ∧ Gena.acceptedNT NT = true) ∧
        request.header "SID".toList = none ∧ (request.header "CALLBACK".toList).isSome := by
  constructor
  · rintro ⟨samePath, env, s, time_out, sid, info, l, svc, hreq, hresult⟩
    refine ⟨(Gena.genaSubscriptionRequest_accepted hreq hresult).1, ?_⟩
    unfold Gena.genaSubscriptionRequest at hresult
    split at hresult
    · cases hresult
    split at hresult
    · cases hresult
    split at hresult
    · cases hresult
    rename_i hsid
    rw [hreq] at hresult
    dsimp only at hresult
    iterate 4
      split at hresult
      · cases hresult
    cases hcallback : request.header "CALLBACK".toList with
    | none =>
      rw [hcallback] at hresult
      cases hresult
    | some t => exact ⟨Option.not_isSome_iff_eq_none.mp hsid, rfl⟩
  · rintro ⟨⟨NT, hNT, haccepted⟩, hsid, hcallback⟩
    obtain ⟨t, ht⟩ := Option.isSome_iff_exists.mp hcallback
    refine ⟨fun _ _ ↦ true, Gena.plentiful, Gena.oneService,
      Gena.grantedTimeout (-1) (request.header "TIMEOUT".toList), "uuid:7".toList, _, (1, 0), _,
      rfl, ?_⟩
    rw [Gena.genaSubscriptionRequest, hNT, hsid, ht]
    dsimp only
    rw [haccepted]
    rfl

/-- The headers of a notification pass their checks. -/
structure Passes (request : NotifyMessage) (SID NT NTS : Gena.Token) (eventKey : Int) : Prop where
  sid : search_for_header request.header_list "SID".toList = some SID
  seq : ∃ SEQ, search_for_header request.header_list "SEQ".toList = some SEQ ∧
    strtol 10 SEQ.buff = some eventKey
  nt : search_for_header request.header_list "NT".toList = some NT
  nts : search_for_header request.header_list "NTS".toList = some NTS
  valid : invalidNT NT NTS = false
  content : request.content.text ≠ []

theorem passes_of_notifyChecks (h : notifyChecks parse request = .ok (sid, eventKey)) :
    ∃ SID NT NTS v, Passes request SID NT NTS v := by
  unfold notifyChecks at h
  split at h
  · cases h
  rename_i SID hsid
  split at h
  · cases h
  rename_i v hseq
  split at h
  · rename_i NT NTS hnt hnts
    split at h
    · cases h
    rename_i hvalid
    split at h
    · cases h
    rename_i hcontent
    rw [Bool.or_eq_true, not_or, decide_eq_true_iff] at hcontent
    exact ⟨SID, NT, NTS, v, hsid, Option.bind_eq_some_iff.mp hseq, hnt, hnts,
      Bool.eq_false_of_not_eq_true hvalid, hcontent.1⟩
  · cases h

theorem Passes.notifyChecks {SID NT NTS : Gena.Token} {v : Int} (h : Passes request SID NT NTS v) :
    notifyChecks (fun _ ↦ true) request = .ok (SID.text, wrap32 v) := by
  rw [GenaClient.notifyChecks, h.sid, h.nt, h.nts]
  dsimp only
  rw [Option.bind_eq_some_iff.mpr h.seq]
  dsimp only
  rw [h.valid, decide_eq_false h.content]
  rfl

theorem notifyChecks_error {r : NotifyResponse} (h : notifyChecks parse request = .error r) :
    r ≠ .HTTP_OK_CRLF := by
  rintro rfl
  unfold notifyChecks at h
  split at h
  · cases h
  split at h
  · cases h
  split at h
  · split at h
    · cases h
    split at h
    · cases h
    · cases h
  · cases h

/-- What is read of a notification before it is accepted. -/
theorem accepted_notify_iff :
    (GenaMessage.notify request).Accepted ↔ ∃ SID NT NTS v, Passes request SID NT NTS v := by
  constructor
  · rintro ⟨parse, ClientSubList, again, r, hrun, hresponse⟩
    rw [genaNotifyReceived] at hrun
    cases hchecks : notifyChecks parse request with
    | error refusal =>
      rw [hchecks] at hrun
      cases hrun
      exact absurd hresponse (notifyChecks_error hchecks)
    | ok checked => exact passes_of_notifyChecks hchecks
  · rintro ⟨SID, NT, NTS, v, h⟩
    let known : ClientSubscription := ⟨[], SID.text, [], 0⟩
    have hfound : GetClientSubActualSID SID.text [known] = some (some known) := by
      have hbegins : Begins SID.text known := List.prefix_append _ _
      rw [GetClientSubActualSID, if_neg (not_lt.mpr (Nat.le_succ _)), if_pos hbegins]
    refine ⟨fun _ ↦ true, some [known], none, receive known (wrap32 v), ?_, rfl⟩
    rw [genaNotifyReceived, h.notifyChecks]
    dsimp only
    rw [hfound]

theorem invalidNT_eq_false_iff {NT NTS : Gena.Token} : invalidNT NT NTS = false ↔
    (NT.text.length = 10 → NT.text = "upnp:event".toList) ∧
      (NT.text.length = 15 → NTS.text <+: "upnp:propchange".toList) := by
  have hbegins : ∀ value whole : CString,
      strnEq value whole value.length = true ↔ value <+: whole := by
    intro value whole
    rw [strnEq, decide_eq_true_iff, List.take_length, List.prefix_iff_eq_take]
  have hevent : NT.text.length = 10 →
      (NT.text <+: "upnp:event".toList ↔ NT.text = "upnp:event".toList) := by
    intro hlength
    constructor
    · exact fun h ↦ h.eq_of_length hlength
    · rintro h
      rw [h]
  rw [invalidNT, Bool.or_eq_false_iff, Bool.and_eq_false_imp, Bool.and_eq_false_imp]
  simp only [decide_eq_true_iff, Bool.not_eq_false', hbegins]
  exact and_congr (forall_congr' hevent) Iff.rfl

theorem wholeNT_iff {value : CString} :
    strcaseEq value "upnp:event".toList ∨ strcaseEq value "upnp:propchange".toList ↔
      value.map Char.toLower ∈ ["upnp:event".toList, "upnp:propchange".toList] := by
  rw [List.mem_cons, List.mem_singleton, strcaseEq, strcaseEq, decide_eq_true_iff,
    decide_eq_true_iff]
  exact Iff.rfl

/-- No whole value begins a longer one. -/
theorem whole_unextended {value whole : CString}
    (hvalue : value.map Char.toLower ∈ ["upnp:event".toList, "upnp:propchange".toList])
    (hwhole : whole ∈ ["upnp:event".toList, "upnp:propchange".toList])
    (hbegins : value.map Char.toLower <+: whole) : ¬ value.length < whole.length := by
  have hnone : ∀ v ∈ ["upnp:event".toList, "upnp:propchange".toList],
      ∀ w ∈ ["upnp:event".toList, "upnp:propchange".toList], v <+: w → ¬ v.length < w.length := by
    decide
  have hle := hnone _ hvalue _ hwhole hbegins
  rwa [List.length_map] at hle

/-- The messages that slip through are those that are accepted with other values. -/
theorem slips_iff (m : GenaMessage) : m.Slips ↔ m.Accepted ∧ ¬ m.Whole := by
  cases m with
  | subscribe request =>
    rw [accepted_subscribe_iff]
    constructor
    · rintro ⟨hsid, hcallback, NT, hNT, whole, hwhole, hbegins, hlt⟩
      refine ⟨⟨⟨NT, hNT, (acceptedNT_iff NT).mpr ⟨whole, hwhole, hbegins⟩⟩, hsid, hcallback⟩, ?_⟩
      rintro ⟨NT', hNT', hequal⟩
      rw [hNT] at hNT'
      cases hNT'
      have hlower := wholeNT_iff.mp hequal
      exact whole_unextended hlower hwhole hbegins hlt
    · rintro ⟨⟨⟨NT, hNT, haccepted⟩, hsid, hcallback⟩, hother⟩
      obtain ⟨whole, hwhole, hbegins⟩ := (acceptedNT_iff NT).mp haccepted
      refine ⟨hsid, hcallback, NT, hNT, whole, hwhole, hbegins, ?_⟩
      have hle := hbegins.length_le
      rw [List.length_map] at hle
      refine lt_of_le_of_ne hle fun hlength ↦ hother ⟨NT, hNT, wholeNT_iff.mpr ?_⟩
      rw [hbegins.eq_of_length ((List.length_map _).trans hlength)]
      exact hwhole
  | notify request =>
    rw [accepted_notify_iff]
    constructor
    · rintro ⟨hsid, ⟨SEQ, hseq, hnumber⟩, hcontent, NT, NTS, hNT, hNTS, hten, hfifteen⟩
      obtain ⟨SID, hsid⟩ := Option.isSome_iff_exists.mp hsid
      obtain ⟨v, hv⟩ := Option.isSome_iff_exists.mp hnumber
      refine ⟨⟨SID, NT, NTS, v, hsid, ⟨SEQ, hseq, hv⟩, hNT, hNTS,
        invalidNT_eq_false_iff.mpr ⟨fun h ↦ (hten h).1, hfifteen⟩, hcontent⟩, ?_⟩
      rintro ⟨NT', NTS', hNT', hNTS', hevent, hpropchange⟩
      rw [hNT] at hNT'
      rw [hNTS] at hNTS'
      cases hNT'
      cases hNTS'
      exact (hten (congrArg List.length hevent)).2 hpropchange
    · rintro ⟨⟨SID, NT, NTS, v, h⟩, hother⟩
      obtain ⟨SEQ, hseq, hv⟩ := h.seq
      obtain ⟨hten, hfifteen⟩ := invalidNT_eq_false_iff.mp h.valid
      refine ⟨Option.isSome_iff_exists.mpr ⟨SID, h.sid⟩, ⟨SEQ, hseq,
        Option.isSome_iff_exists.mpr ⟨v, hv⟩⟩, h.content, NT, NTS, h.nt, h.nts,
          fun hlength ↦ ⟨hten hlength, fun hpropchange ↦ ?_⟩, hfifteen⟩
      exact hother ⟨NT, NTS, h.nt, h.nts, hten hlength, hpropchange⟩

/-- A message is accepted with the type headers it is to have only, if and only if it is not one
of those that slip through. -/
theorem accepted_whole_iff (m : GenaMessage) : (m.Accepted → m.Whole) ↔ ¬ m.Slips := by
  rw [slips_iff, not_and, not_not]

/-- `subscribeRequest`, with a type of the length given. -/
def abbreviatedRequest (length : Nat) : Gena.HttpRequest := { Gena.subscribeRequest with
  header := fun h ↦
    if h = "NT".toList then some ⟨"upnp:event".toList.take length, "\r\n".toList⟩
    else Gena.subscribeRequest.header h }

/-- An empty type is accepted of a subscriber, and any type of another length of a publisher. -/
theorem unchecked_types :
    ¬ ((GenaMessage.subscribe (abbreviatedRequest 0)).Accepted →
      (GenaMessage.subscribe (abbreviatedRequest 0)).Whole) ∧
    ¬ ((GenaMessage.notify (changed "uuid:22" "none" "none")).Accepted →
      (GenaMessage.notify (changed "uuid:22" "none" "none")).Whole) := by
  rw [Classical.not_imp, Classical.not_imp, ← slips_iff, ← slips_iff]
  constructor
  · exact ⟨rfl, rfl, _, rfl, _, List.mem_cons_self .., List.nil_prefix, by decide⟩
  · refine ⟨by decide, ⟨_, rfl, by decide +kernel⟩, by decide, _, _, rfl, rfl, ?_, ?_⟩
    · intro h
      cases h
    · intro h
      cases h

end Upnp.GenaClient
