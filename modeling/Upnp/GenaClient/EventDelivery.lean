import Upnp.Gena.PropertySet
import Upnp.GenaClient.NotifyReceived
import Upnp.MiniServer.SentRequest
import Upnp.Soap.RoundTrip

/-!
# Events, from the device to the control point

The message of `genaNotify` is read by the mini server of the control point, and
`genaNotifyReceived` tells the application what the device set out.
-/

namespace Upnp.GenaClient

open Upnp.Lib
open HttpMessage (isLWS Stores parse_request_line)
open MiniServer (SentHeader SentRequest IsInLine memoryOf)
open Gena.PropertySet (Variable propertySetText propertySetSize Misread)

/-! ## The message -/

/-- `MAX_EVENTS` -/
def MAX_EVENTS : Nat := 20

/-- `full_size` of `genaNotify`. -/
def fullSize (headers propertySet : CString) : Nat :=
  headers.length + "SID: \r\n".length + Gena.SID_SIZE + "SEQ: \r\n\r\n".length + MAX_EVENTS +
    propertySet.length + 1

/-- What is formatted in `full_message`. -/
def fullText (headers propertySet sid : CString) (ToSendEventKey : Int) : CString :=
  headers ++ "SID: ".toList ++ sid ++ "\r\nSEQ: ".toList ++ decimal ToSendEventKey ++
    "\r\n\r\n".toList ++ propertySet

/-- `full_message` of `genaNotify`. -/
def fullMessage (ok : Bool) (headers propertySet sid : CString) (ToSendEventKey : Int) : Outcome :=
  format ok (wrap32 (fullSize headers propertySet))
    (fullText headers propertySet sid ToSendEventKey)

/-- The parts of the message are words of lines, and it has a length that is an `int`. -/
structure Notifiable (URL : ParsedURL) (sid propertySet : CString) : Prop where
  scheme : strcaseEq URL.scheme "http".toList = true
  path : ∀ c ∈ URL.path, IsInLine c ∧ isLWS c = false
  host_line : ∀ c ∈ URL.hostport, IsInLine c
  host_start : URL.hostport.head?.any (!isLWS ·) = true
  sid_line : ∀ c ∈ sid, IsInLine c
  sid_start : sid.head?.any (!isLWS ·) = true
  sid_length : sid.length ≤ Gena.SID_SIZE
  nul : '\x00' ∉ propertySet
  length : URL.path.length + URL.hostport.length + propertySet.length + 200 ≤ 2147483647

variable {URL : ParsedURL} {sid propertySet : CString} {key : Nat}

theorem path_ne_nil (URL : ParsedURL) : URL.path ≠ [] := by
  rw [ParsedURL.path]
  split
  · exact List.cons_ne_nil _ _
  · rename_i h
    exact fun hnil ↦ h (List.length_eq_zero_iff.mpr hnil)

theorem version_start : ∀ c ∈ "HTTP/1.1".toList.head?, isLWS c = false := by
  intro c hc
  cases hc
  decide

/-- The message, as a request. -/
def eventRequest (key : Nat) (h : Notifiable URL sid propertySet) : SentRequest where
  method := "NOTIFY".toList
  path := URL.path
  version := "HTTP/1.1".toList
  before :=
    [⟨"HOST".toList, URL.hostport, by decide, List.all_eq_true.mp (by decide), h.host_line,
        h.host_start⟩,
      ⟨"CONTENT-TYPE".toList, "text/xml".toList, by decide, List.all_eq_true.mp (by decide),
        forall_mem_of_all (by decide), by decide⟩]
  behind :=
    [⟨"NT".toList, "upnp:event".toList, by decide, List.all_eq_true.mp (by decide),
        forall_mem_of_all (by decide), by decide⟩,
      ⟨"NTS".toList, "upnp:propchange".toList, by decide, List.all_eq_true.mp (by decide),
        forall_mem_of_all (by decide), by decide⟩,
      ⟨"SID".toList, sid, by decide, List.all_eq_true.mp (by decide), h.sid_line, h.sid_start⟩,
      ⟨"SEQ".toList, decimal key, by decide, List.all_eq_true.mp (by decide),
        MiniServer.decimal_line key, MiniServer.decimal_start key⟩]
  body := propertySet
  method_token := ⟨by decide, List.all_eq_true.mp (by decide)⟩
  path_word := ⟨path_ne_nil URL, h.path⟩
  version_line := ⟨forall_mem_of_all (by decide), version_start⟩
  other := by
    intro s hs
    simp only [List.cons_append, List.nil_append, List.mem_cons, List.not_mem_nil, or_false] at hs
    rcases hs with rfl | rfl | rfl | rfl | rfl | rfl <;>
      · dsimp only
        decide
  body_nul := h.nul
  body_length := by
    have hlength := h.length
    unfold intMax
    omega

theorem length_fullText (headers propertySet sid : CString) (key : Int) :
    (fullText headers propertySet sid key).length =
      headers.length + sid.length + (decimal key).length + propertySet.length + 16 := by
  have h₁ : "SID: ".toList.length = 5 := length_literal rfl
  have h₂ : "\r\nSEQ: ".toList.length = 7 := length_literal rfl
  have h₃ : "\r\n\r\n".toList.length = 4 := length_literal rfl
  simp only [fullText, List.length_append, h₁, h₂, h₃]
  omega

theorem notifyHeaders_eq (propertySet : CString) : Gena.notifyHeaders propertySet =
    "CONTENT-TYPE: text/xml\r\nCONTENT-LENGTH: ".toList ++ decimal (propertySet.length + 1) ++
      "\r\nNT: upnp:event\r\nNTS: upnp:propchange\r\n".toList := rfl

theorem length_notifyHeaders (h : Notifiable URL sid propertySet) :
    (Gena.notifyHeaders propertySet).length ≤ 90 := by
  have hlength := h.length
  have h₁ : "CONTENT-TYPE: text/xml\r\nCONTENT-LENGTH: ".toList.length = 40 := length_literal rfl
  have h₂ : "\r\nNT: upnp:event\r\nNTS: upnp:propchange\r\n".toList.length = 40 :=
    length_literal rfl
  have hdigits := (@length_decimal_le (propertySet.length + 1) 10 (by decide)).mpr (by omega)
  rw [Nat.cast_succ] at hdigits
  rw [notifyHeaders_eq, List.length_append, List.length_append, h₁, h₂]
  omega

/-- What is sent is the request, with the NUL behind it. -/
theorem message_eq (h : Notifiable URL sid propertySet) : messageText "NOTIFY".toList
    (fullText (Gena.notifyHeaders propertySet) propertySet sid key ++ ['\x00']) URL =
      (eventRequest key h).document ++ ['\x00'] := by
  have hget : strcaseEq "NOTIFY".toList "GET".toList = false := by decide
  have hhost : " HTTP/1.1\r\nHOST: ".toList =
      ' ' :: ("HTTP/1.1".toList ++ ("\r\n".toList ++ ("HOST".toList ++ [':', ' ']))) := by decide
  have htype : "CONTENT-TYPE: text/xml\r\nCONTENT-LENGTH: ".toList =
      "CONTENT-TYPE".toList ++ (':' :: ' ' :: ("text/xml".toList ++ ("\r\n".toList ++
        ("CONTENT-LENGTH".toList ++ [':', ' '])))) := by
    decide
  have hnt : "\r\nNT: upnp:event\r\nNTS: upnp:propchange\r\n".toList =
      "\r\n".toList ++ ("NT".toList ++ (':' :: ' ' :: ("upnp:event".toList ++ ("\r\n".toList ++
        ("NTS".toList ++ (':' :: ' ' :: ("upnp:propchange".toList ++ "\r\n".toList))))))) := by
    decide
  have hsid : "SID: ".toList = "SID".toList ++ [':', ' '] := by decide
  have hseq : "\r\nSEQ: ".toList = "\r\n".toList ++ ("SEQ".toList ++ [':', ' ']) := by decide
  have hend : "\r\n\r\n".toList = "\r\n".toList ++ "\r\n".toList := by decide
  have htexts : (eventRequest key h).headers.map SentHeader.text =
      ["HOST".toList ++ ':' :: ' ' :: URL.hostport,
        "CONTENT-TYPE".toList ++ ':' :: ' ' :: "text/xml".toList,
        "CONTENT-LENGTH".toList ++ ':' :: ' ' :: decimal (propertySet.length + 1 : Nat),
        "NT".toList ++ ':' :: ' ' :: "upnp:event".toList,
        "NTS".toList ++ ':' :: ' ' :: "upnp:propchange".toList,
        "SID".toList ++ ':' :: ' ' :: sid, "SEQ".toList ++ ':' :: ' ' :: decimal key] := rfl
  have hline : (eventRequest key h).line =
      "NOTIFY".toList ++ ' ' :: (URL.path ++ ' ' :: "HTTP/1.1".toList) := rfl
  have hbody : (eventRequest key h).body = propertySet := rfl
  rw [SentRequest.document, htexts, hline, hbody, Nat.cast_succ, messageText, messagePieces, hget,
    if_neg Bool.false_ne_true, fullText, notifyHeaders_eq, hhost, htype, hnt, hsid, hseq, hend]
  have hblank : " ".toList = [' '] := by decide
  simp only [Soap.httpText_cons, Soap.httpText_nil, hblank, List.flatten_cons, List.flatten_nil,
    List.append_assoc, List.cons_append, List.nil_append, List.append_nil]

/-- The block is large enough. -/
theorem fullMessage_done (h : Notifiable URL sid propertySet) (hkey : key ≤ 2147483647) :
    ∃ full, fullMessage true (Gena.notifyHeaders propertySet) propertySet sid key = .done full ∧
      full.Holds (fullText (Gena.notifyHeaders propertySet) propertySet sid key) := by
  have hlength := h.length
  have hsid := h.sid_length
  have hheaders := length_notifyHeaders h
  have htext := @length_fullText (Gena.notifyHeaders propertySet) propertySet sid key
  have hdigits := (@length_decimal_le key 10 (by decide)).mpr (by omega)
  have hfull : fullSize (Gena.notifyHeaders propertySet) propertySet =
      (Gena.notifyHeaders propertySet).length + propertySet.length + 78 := by
    rw [fullSize]
    show _ + 7 + 41 + 9 + 20 + _ + 1 = _
    omega
  unfold Gena.SID_SIZE at hsid
  have hsize : wrap32 (fullSize (Gena.notifyHeaders propertySet) propertySet : Nat) =
      (fullSize (Gena.notifyHeaders propertySet) propertySet : Nat) :=
    wrap32_of_range (by omega) (by omega)
  have hfits : (fullText (Gena.notifyHeaders propertySet) propertySet sid key).length <
      (Buffer.alloc (fullSize (Gena.notifyHeaders propertySet) propertySet)).length := by
    rw [Buffer.length_alloc]
    omega
  obtain ⟨full, hfull'⟩ := Option.isSome_iff_exists.mp (Buffer.sprintf_isSome_iff.mpr hfits)
  refine ⟨full, ?_, Buffer.holds_of_sprintf hfull'⟩
  rw [fullMessage, format, hsize, malloc_true (Int.natCast_nonneg _), Int.toNat_natCast]
  dsimp only
  rw [hfull', written]

/-! ## What is received -/

/-- A token, with what is behind it in a string. -/
def tokenAt (memory : CString) (t : HttpMessage.Token) : Gena.Token :=
  match t.buff with
  | none => ⟨[], []⟩
  | some buff => ⟨t.text memory, (memory.drop (buff + t.size.toNat)).takeWhile (· ≠ '\x00')⟩

/-- The headers and the content of a document, behind its request line. -/
def notifyMessage (env : Uri.Env) (document : CString) (headers : HttpMessage.Headers) :
    NotifyMessage :=
  match parse_request_line env ((memoryOf document).length - 1 : Nat) (memoryOf document) with
  | some (some (temp, _)) =>
    ⟨headers.header_list.map fun h ↦ (h.header.text ((memoryOf document).drop temp),
      tokenAt ((memoryOf document).drop temp) h.value),
      tokenAt ((memoryOf document).drop temp) headers.content⟩
  | _ => ⟨[], ⟨[], []⟩⟩

variable {memory : CString} {hs : List SentHeader} {stored : List HttpMessage.HttpHeader}

/-- The value of a header that is stored. -/
theorem tokenAt_stored {h : SentHeader} {s : HttpMessage.HttpHeader}
    (hstored : Stores memory h.headerLine s) :
    ∃ more, tokenAt memory s.value = ⟨h.value, '\r' :: more⟩ := by
  have hvalue := hstored.value
  have hbehind := hstored.behind
  rw [h.dropWhile_value] at hvalue hbehind
  have hne : h.value ≠ [] := by
    intro hnil
    have hstart := h.value_start
    rw [hnil] at hstart
    cases hstart
  cases hbuff : s.value.buff with
  | none =>
    rw [HttpMessage.Token.text, hbuff] at hvalue
    exact absurd hvalue.symm hne
  | some buff =>
    obtain ⟨rest, hrest⟩ := hbehind buff hbuff
    have hsize : s.value.size.toNat = h.value.length := by
      have htake := hvalue
      rw [HttpMessage.Token.text, hbuff] at htake
      dsimp only at htake
      rw [hrest] at htake
      have hlength := congrArg List.length htake
      rw [List.length_take, List.length_append, List.length_cons] at hlength
      omega
    refine ⟨('\n' :: rest).takeWhile (· ≠ '\x00'), ?_⟩
    rw [tokenAt, hbuff]
    dsimp only
    rw [hvalue, ← List.drop_drop, hrest, hsize, List.drop_left,
      List.takeWhile_cons_of_pos (by decide)]

/-- The comparison of `search_for_header`. -/
def sameName (header name : CString) : Bool :=
  name.length = header.length && strncaseEq header name name.length

/-- The first header of a name is found. -/
theorem search_stored {header value : CString}
    (hall : List.Forall₂ (Stores memory) (hs.map SentHeader.headerLine) stored)
    (hfind : (hs.find? (sameName header ·.name)).map (·.value) = some value) : ∃ more,
    search_for_header (stored.map fun s ↦ (s.header.text memory, tokenAt memory s.value)) header =
      some ⟨value, '\r' :: more⟩ := by
  induction hs generalizing stored with
  | nil => cases hfind
  | cons h hs ih =>
    cases hall with
    | @cons _ s _ stored hstored hall =>
      have hname : sameName header (s.header.text memory) = sameName header h.name := by
        rw [hstored.name]
        rfl
      rw [List.find?_cons] at hfind
      rw [search_for_header, List.map_cons, List.find?_cons]
      dsimp only
      cases hsame : sameName header h.name with
      | true =>
        rw [hsame] at hfind
        cases hfind
        obtain ⟨more, hmore⟩ := tokenAt_stored hstored
        refine ⟨more, ?_⟩
        rw [hsame, sameName] at hname
        rw [hname]
        exact congrArg some hmore
      | false =>
        rw [hsame] at hfind
        obtain ⟨more, hmore⟩ := ih hall hfind
        refine ⟨more, ?_⟩
        rw [hsame, sameName] at hname
        rw [hname]
        exact hmore

/-- The request as it is received. -/
theorem notifyMessage_sent (r : SentRequest) {env : Uri.Env} {request : HttpMessage.HttpRequest}
    {headers : HttpMessage.Headers}
    (hrequest : parse_request_line env ((memoryOf r.document).length - 1 : Nat)
      (memoryOf r.document) = some (some (r.line.length + 2, request)))
    (hparsed : r.Parsed request headers) : notifyMessage env r.document headers =
      ⟨headers.header_list.map fun h ↦ (h.header.text r.block, tokenAt r.block h.value),
        ⟨r.body, []⟩⟩ := by
  have hcontent : tokenAt r.block headers.content = ⟨r.body, []⟩ := by
    rw [hparsed.content, tokenAt]
    dsimp only
    rw [HttpMessage.Token.text, Int.toNat_natCast]
    dsimp only
    rw [r.drop_block, List.take_left, ← List.drop_drop, r.drop_block, List.drop_left]
    rfl
  rw [notifyMessage, hrequest]
  dsimp only
  rw [r.drop_memoryOf, hcontent]

theorem strtol_decimal (key : Nat) (hkey : key ≤ 2147483647) (more : CString) :
    strtol 10 (decimal key ++ '\r' :: more) = some (key : Int) := by
  obtain ⟨hne, hdigits, hvalue⟩ := Util.shows_decimal (Int.natCast_nonneg key)
  have hends : EndsNumeral 10 ('\r' :: more) := by
    rintro c hc
    cases hc
    decide
  have hread := strtol_of_digits [] (List.forall_mem_nil _) hdigits hends hne
  rw [List.nil_append, hvalue] at hread
  rw [hread, clampLong, min_eq_right (by omega), max_eq_right (by omega)]

/-- The checks of the control point pass. -/
theorem notifyChecks_sent (h : Notifiable URL sid propertySet) (hkey : key ≤ 2147483647)
    (hne : propertySet ≠ []) {parse : CString → Bool} (hparse : parse propertySet = true)
    (hall : List.Forall₂ (Stores memory)
      ((eventRequest key h).headers.map SentHeader.headerLine) stored) :
    notifyChecks parse
        ⟨stored.map fun s ↦ (s.header.text memory, tokenAt memory s.value), ⟨propertySet, []⟩⟩ =
      .ok (sid, key) := by
  obtain ⟨more₁, hSID⟩ := @search_stored _ _ _ "SID".toList sid hall rfl
  obtain ⟨more₂, hSEQ⟩ := @search_stored _ _ _ "SEQ".toList (decimal key) hall rfl
  obtain ⟨more₃, hNT⟩ := @search_stored _ _ _ "NT".toList "upnp:event".toList hall rfl
  obtain ⟨more₄, hNTS⟩ := @search_stored _ _ _ "NTS".toList "upnp:propchange".toList hall rfl
  have hcontent : (propertySet = [] || !parse (Gena.Token.buff ⟨propertySet, []⟩)) = false := by
    rw [Gena.Token.buff, List.append_nil, hparse, decide_eq_false hne]
    rfl
  rw [notifyChecks]
  dsimp only
  rw [hSID, hSEQ, hNT, hNTS]
  dsimp only [Option.bind_some]
  rw [Gena.Token.buff, strtol_decimal key hkey]
  dsimp only
  have hNTok : invalidNT ⟨"upnp:event".toList, '\r' :: more₃⟩
      ⟨"upnp:propchange".toList, '\r' :: more₄⟩ = false := by rfl
  rw [hNTok, if_neg Bool.false_ne_true, wrap32_of_range (by omega) (by omega), hcontent]
  exact if_neg Bool.false_ne_true

/-- A subscription of the publisher's SID is found. -/
theorem GetClientSubActualSID_known {head : List ClientSubscription}
    (hfound : Distinguishes sid head) (hsub : ∃ sub ∈ head, sub.ActualSID = sid) :
    ∃ sub ∈ head, sub.ActualSID = sid ∧ GetClientSubActualSID sid head = some (some sub) := by
  obtain ⟨found, hget, hsid⟩ := distinguishes_iff.mp hfound
  cases found with
  | none =>
    obtain ⟨sub, hmem, rfl⟩ := hsub
    exact absurd (List.prefix_append ..) (GetClientSubActualSID_none hget sub hmem)
  | some sub =>
    exact ⟨sub, (GetClientSubActualSID_some hget).1, hsid sub rfl, hget⟩

/-- The mini server hands the message to `genaCallback`. -/
theorem callback_event (h : Notifiable URL sid propertySet) : MiniServer.MultiplexCommand
    (MiniServer.GetCommandType ((eventRequest key h).line ++ "\r\n".toList)) =
      some .gGenaCallback := by
  rfl

/-- It is a notification there. -/
theorem genaOperation_event (h : Notifiable URL sid propertySet)
    (request : HttpMessage.HttpRequest × HttpMessage.Headers) :
    MiniServer.genaOperation (memoryOf (eventRequest key h).document) 6 request =
      .genaNotifyReceived request := by
  rw [SentRequest.memoryOf_document]
  rfl

theorem isName_status : Xml.IsName "Status".toList :=
  Dom.isName_of_letters (by decide) (forall_mem_of_all (by decide))

theorem unescapes_one : Xml.Unescapes "1".toList "1".toList := Xml.unescapes_ascii (by decide)

/-- The lamp is on. -/
def status : Variable where
  name := "Status".toList
  text := "1".toList
  value := "1".toList
  isName := isName_status
  unescapes := unescapes_one
  lt_not_mem := by decide
  nonblank := .inr ⟨'1', by decide, by decide⟩

/-- Where the control point listens. -/
def listener : ParsedURL := ⟨"http".toList, "10.0.0.2:5000".toList, "/".toList⟩

/-- The subscriptions of the control point, the second to the lamp. -/
def subscriptions : List ClientSubscription :=
  [⟨"a".toList, "uuid:1".toList, [], 0⟩, ⟨"b".toList, "uuid:2".toList, [], 0⟩]

theorem status_notifiable : Notifiable listener "uuid:2".toList (propertySetText [status]) where
  scheme := by decide
  path := forall_mem_of_all (by decide)
  host_line := forall_mem_of_all (by decide)
  host_start := by decide
  sid_line := forall_mem_of_all (by decide)
  sid_start := by decide
  sid_length := by decide
  nul := by decide
  length := by decide

end Upnp.GenaClient
