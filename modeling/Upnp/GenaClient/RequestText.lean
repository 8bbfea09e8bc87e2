import Upnp.Gena.Request
import Upnp.Lib.Buffer

/-!
# The texts of outgoing requests

The arrays and blocks that `genaSubscribe`, `genaRenewSubscription`, `genaUnSubscribe` and
`transferHTTPparsedURL` format their requests in.  Each length is added up by hand, as an `int`,
before the text is written.
-/

namespace Upnp.GenaClient

open Upnp.Lib

/-- `MAX_SECONDS` -/
def MAX_SECONDS : Nat := 10

/-- `MAX_PORT_SIZE` -/
def MAX_PORT_SIZE : Nat := 10

/-- What becomes of a text. -/
inductive Outcome where
  /-- `UPNP_E_INVALID_URL` -/
  | invalidURL
  /-- There is no memory for it. -/
  | refused
  /-- A byte is written outside of its block. -/
  | fault
  | done (block : Buffer)

/-- `malloc` of an `int` number of bytes; a negative number is a size that no block has. -/
def malloc (ok : Bool) (size : Int) : Option Buffer :=
  if ok && 0 ≤ size then some (Buffer.alloc size.toNat) else none

/-- What the calls to `sprintf` leave in the block. -/
def written : Option Buffer → Outcome
  | none => .fault
  | some block => .done block

/-- A block of the size is allocated and the text formatted in it. -/
def format (ok : Bool) (size : Int) (text : CString) : Outcome :=
  match malloc ok size with
  | none => .refused
  | some block => written (block.sprintf text)

/-! ## The requests to a publisher -/

/-- The value of `timeout`. -/
def timeoutText : Option Int → CString
  | none => decimal Gena.DEFAULT_TIMEOUT
  | some TimeOut => if TimeOut ≥ 0 then decimal TimeOut else "infinite".toList

/-- `timeout` is formatted, and then the headers with it. -/
def formatHeaders (ok : Bool) (TimeOut : Option Int) (size : Int) (text : CString → CString) :
    Outcome :=
  match (Buffer.alloc MAX_SECONDS).sprintf (timeoutText TimeOut) with
  | none => .fault
  | some _ => format ok size (text (timeoutText TimeOut))

/-- `headers_size` of `genaSubscribe`. -/
def subscribeSize (LOCAL_HOST : CString) : Nat :=
  "CALLBACK: <http:///>\r\n".toList.length + LOCAL_HOST.length + 1 + MAX_PORT_SIZE +
    "NT: upnp:event\r\n".toList.length + "TIMEOUT: Second-\r\n\r\n".toList.length + MAX_SECONDS + 1

/-- `headers` of `genaSubscribe`. -/
def subscribeText (LOCAL_HOST : CString) (LOCAL_PORT : UInt16) (timeout : CString) : CString :=
  "CALLBACK: <http://".toList ++ LOCAL_HOST ++ ":".toList ++ decimal LOCAL_PORT.toNat ++
    "/>\r\nNT: upnp:event\r\nTIMEOUT: Second-".toList ++ timeout ++ "\r\n\r\n".toList

/-- `headers_size` of `genaRenewSubscription`. -/
def renewSize (ActualSID : CString) : Nat :=
  "SID: \r\n".toList.length + ActualSID.length + "TIMEOUT: Second-\r\n\r\n".toList.length +
    MAX_SECONDS + 1

/-- `headers` of `genaRenewSubscription`. -/
def renewText (ActualSID timeout : CString) : CString :=
  "SID: ".toList ++ ActualSID ++ "\r\nTIMEOUT: Second-".toList ++ timeout ++ "\r\n\r\n".toList

/-- `request_size` of `genaUnSubscribe`. -/
def unsubscribeSize (ActualSID : CString) : Nat :=
  "SID: \r\n\r\n".toList.length + ActualSID.length + 1

/-- `request` of `genaUnSubscribe`. -/
def unsubscribeText (ActualSID : CString) : CString :=
  "SID: ".toList ++ ActualSID ++ "\r\n\r\n".toList

/-! ## The message -/

/-- What `transferHTTPparsedURL` reads of a `uri_type`. -/
structure ParsedURL where
  scheme : CString
  hostport : CString
  pathquery : CString

/-- The path of the request line; `/` for none. -/
def ParsedURL.path (URL : ParsedURL) : CString :=
  if URL.pathquery.length = 0 then ['/'] else URL.pathquery

/-- `message_size`, added up as an `int`. -/
def messageSize (request toSend : CString) (URL : ParsedURL) : Int :=
  let request_length := wrap32 (request.length + 1 + URL.path.length + 8 + 1 + 2)
  let host_length := wrap32 (6 + URL.hostport.length + 2)
  wrap32 (wrap32 (request_length + host_length) + toSend.length)

/-- The pieces that are copied behind the method. -/
def messagePieces (request toSend : CString) (URL : ParsedURL) : List CString :=
  [URL.path,
    if strcaseEq request "GET".toList then " HTTP/1.0\r\nHOST: ".toList
    else " HTTP/1.1\r\nHOST: ".toList,
    URL.hostport, "\r\n".toList, toSend]

/-- The whole message. -/
def messageText (request toSend : CString) (URL : ParsedURL) : CString :=
  request ++ " ".toList ++ (messagePieces request toSend URL).flatten

/-- `transferHTTPparsedURL` up to the message that it sends, all of its `message_size` bytes. -/
def transferHTTPparsedURL (ok : Bool) (request toSend : CString) (URL : ParsedURL) : Outcome :=
  if !strcaseEq URL.scheme "http".toList then .invalidURL
  else if URL.hostport.length = 0 then .invalidURL
  else
    match malloc ok (messageSize request toSend URL) with
    | none => .refused
    | some message =>
      written ((message.sprintf (request ++ " ".toList)).bind
        (Buffer.memcpyAll (request.length + 1) (messagePieces request toSend URL)))

/-! ## Lengths -/

/-- The number of bytes, as an `int`, is that number, or negative. -/
def SizeKept (size : Nat) : Prop := size < 4294967296 ∨ wrap32 size < 0

/-- The value of `timeout` fits with its NUL. -/
def ShortTimeout (TimeOut : Option Int) : Prop := ∀ t ∈ TimeOut, t < 1000000000

theorem length_decimal_le {n k : Nat} (hk : 0 < k) : (decimal n).length ≤ k ↔ n < 10 ^ k :=
  Nat.length_toDigits_le_iff (by decide) hk

theorem length_timeoutText {TimeOut : Option Int} :
    (timeoutText TimeOut).length < MAX_SECONDS ↔ ShortTimeout TimeOut := by
  cases TimeOut with
  | none => exact iff_of_true (by decide) fun t ht ↦ by cases ht
  | some t =>
    have hshort : ShortTimeout (some t) ↔ t < 1000000000 :=
      ⟨fun h ↦ h t rfl, by rintro h _ ⟨⟩; exact h⟩
    rw [hshort, timeoutText]
    split
    · rename_i hpos
      obtain ⟨n, rfl⟩ := Int.eq_ofNat_of_zero_le hpos
      have hlength := @length_decimal_le n 9 (by decide)
      rw [MAX_SECONDS, Nat.lt_succ_iff, hlength]
      omega
    · exact iff_of_true (by decide) (by omega)

theorem length_port (LOCAL_PORT : UInt16) : (decimal LOCAL_PORT.toNat).length ≤ 5 := by
  rw [length_decimal_le (by decide)]
  exact LOCAL_PORT.toNat_lt.trans (by decide)

/-- A length within a few bytes of the size stays within what is allocated exactly when the size
is kept. -/
theorem lt_wrap32_iff {length size : Nat} (hlt : length < size) (hnear : size ≤ length + 100) :
    (0 ≤ wrap32 size → (length : Int) < wrap32 size) ↔ SizeKept size := by
  obtain ⟨hlow, hhigh⟩ := wrap32_range size
  obtain ⟨k, hk⟩ := wrap32_dvd size
  rw [SizeKept]
  constructor
  · intro h
    by_contra hnot
    rw [not_or] at hnot
    have hle := h (not_lt.mp hnot.2)
    omega
  · rintro (hsmall | hneg) hpos
    · omega
    · omega

/-! ## Outgoing requests -/

/-- The outcome is no fault, and a block that is filled is as it is to be. -/
def Outcome.Within (p : Buffer → Prop) : Outcome → Prop
  | .fault => False
  | .done block => p block
  | _ => True

/-- The functions that format, with all that goes into their texts. -/
inductive Outgoing where
  | genaSubscribe (LOCAL_HOST : CString) (LOCAL_PORT : UInt16) (TimeOut : Option Int)
  /-- The SID that `genaSubscribe` makes of a UUID. -/
  | out_sid (uuid : { text : CString // text.length = 36 })
  | genaRenewSubscription (ActualSID : CString) (TimeOut : Option Int)
  | genaUnSubscribe (ActualSID : CString)
  | transferHTTPparsedURL (request toSend : CString) (URL : ParsedURL)

namespace Outgoing

/-- What becomes of the text, where `ok` is what `malloc` answers. -/
def run (ok : Bool) : Outgoing → Outcome
  | genaSubscribe LOCAL_HOST LOCAL_PORT TimeOut =>
    formatHeaders ok TimeOut (wrap32 (subscribeSize LOCAL_HOST)) (subscribeText LOCAL_HOST LOCAL_PORT)
  | out_sid uuid => written ((Buffer.alloc 44).sprintf ("uuid:".toList ++ uuid.1))
  | genaRenewSubscription ActualSID TimeOut =>
    formatHeaders ok TimeOut (wrap32 (renewSize ActualSID)) (renewText ActualSID)
  | genaUnSubscribe ActualSID =>
    format ok (wrap32 (unsubscribeSize ActualSID)) (unsubscribeText ActualSID)
  | transferHTTPparsedURL request toSend URL =>
    GenaClient.transferHTTPparsedURL ok request toSend URL

/-- The block holds its text with the NUL; a message fills it. -/
def Complete : Outgoing → Buffer → Prop
  | genaSubscribe LOCAL_HOST LOCAL_PORT TimeOut =>
    (·.Holds (subscribeText LOCAL_HOST LOCAL_PORT (timeoutText TimeOut)))
  | out_sid uuid => (·.Holds ("uuid:".toList ++ uuid.1))
  | genaRenewSubscription ActualSID TimeOut =>
    (·.Holds (renewText ActualSID (timeoutText TimeOut)))
  | genaUnSubscribe ActualSID => (·.Holds (unsubscribeText ActualSID))
  | transferHTTPparsedURL request toSend URL =>
    (· = (messageText request toSend URL).map some)

/-- Whatever `malloc` answers, nothing is written outside, and the text is complete. -/
def Sized (o : Outgoing) : Prop := ∀ ok, (o.run ok).Within o.Complete

/-- The time-out is short, and the size is one that an `int` keeps. -/
def Small : Outgoing → Prop
  | genaSubscribe LOCAL_HOST _ TimeOut =>
    ShortTimeout TimeOut ∧ SizeKept (subscribeSize LOCAL_HOST)
  | out_sid _ => True
  | genaRenewSubscription ActualSID TimeOut =>
    ShortTimeout TimeOut ∧ SizeKept (renewSize ActualSID)
  | genaUnSubscribe ActualSID => SizeKept (unsubscribeSize ActualSID)
  | transferHTTPparsedURL request toSend URL =>
    strcaseEq URL.scheme "http".toList = true → URL.hostport.length ≠ 0 →
      SizeKept (request.length + URL.path.length + URL.hostport.length + toSend.length + 20)

end Outgoing

theorem within_sprintf_iff {text : CString} {block : Buffer} :
    (written (block.sprintf text)).Within (·.Holds text) ↔ text.length < block.length := by
  rw [← Buffer.sprintf_isSome_iff]
  cases h : block.sprintf text with
  | none => exact iff_of_false id Bool.false_ne_true
  | some block' => exact iff_of_true (Buffer.holds_of_sprintf h) rfl

theorem malloc_true {size : Int} (hpos : 0 ≤ size) :
    malloc true size = some (Buffer.alloc size.toNat) := by
  rw [malloc, Bool.true_and, if_pos (decide_eq_true hpos)]

/-- A block has the size that was asked for, which is not negative. -/
theorem malloc_cases (ok : Bool) (size : Int) :
    malloc ok size = none ∨ 0 ≤ size ∧ malloc ok size = some (Buffer.alloc size.toNat) := by
  rw [malloc]
  split
  · rename_i hok
    exact .inr ⟨of_decide_eq_true (Bool.and_eq_true_iff.mp hok).2, rfl⟩
  · exact .inl rfl

theorem within_format_iff {text : CString} {size : Nat} (hlt : text.length < size)
    (hnear : size ≤ text.length + 100) :
    (∀ ok, (format ok (wrap32 size) text).Within (·.Holds text)) ↔ SizeKept size := by
  rw [← lt_wrap32_iff hlt hnear]
  generalize wrap32 size = w
  constructor
  · intro h hpos
    have htext := h true
    rw [format, malloc_true hpos] at htext
    have hfits := within_sprintf_iff.mp htext
    rw [Buffer.length_alloc] at hfits
    omega
  · intro h ok
    rw [format]
    rcases malloc_cases ok w with hnone | ⟨hpos, hsome⟩
    · rw [hnone]
      trivial
    · rw [hsome]
      have hfits := h hpos
      dsimp only
      rw [within_sprintf_iff, Buffer.length_alloc]
      omega

theorem within_formatHeaders_iff {TimeOut : Option Int} {text : CString → CString} {size : Nat}
    (hlt : ∀ timeout : CString, timeout.length < MAX_SECONDS → (text timeout).length < size)
    (hnear : ∀ timeout : CString, size ≤ (text timeout).length + 100) :
    (∀ ok, (formatHeaders ok TimeOut (wrap32 size) text).Within
        (·.Holds (text (timeoutText TimeOut)))) ↔ ShortTimeout TimeOut ∧ SizeKept size := by
  cases htimeout : (Buffer.alloc MAX_SECONDS).sprintf (timeoutText TimeOut) with
  | none =>
    refine iff_of_false ?_ ?_
    · intro h
      have hfault := h true
      rw [formatHeaders, htimeout] at hfault
      exact hfault
    · rintro ⟨hshort, -⟩
      have hfits := Buffer.sprintf_isSome_iff.mpr
        ((length_timeoutText.mpr hshort).trans_eq (Buffer.length_alloc _).symm)
      rw [htimeout] at hfits
      cases hfits
  | some block =>
    have hfits := Buffer.sprintf_isSome_iff.mp (Option.isSome_iff_exists.mpr ⟨block, htimeout⟩)
    rw [Buffer.length_alloc] at hfits
    simp only [formatHeaders, htimeout]
    rw [within_format_iff (hlt _ hfits) (hnear _)]
    exact (and_iff_right (length_timeoutText.mp hfits)).symm

/-! ## The message -/

section Message

variable {request toSend : CString} {URL : ParsedURL}

theorem length_messagePieces : (messagePieces request toSend URL).flatten.length =
    URL.path.length + URL.hostport.length + toSend.length + 19 := by
  have hversion : (if strcaseEq request "GET".toList then " HTTP/1.0\r\nHOST: ".toList
      else " HTTP/1.1\r\nHOST: ".toList).length = 17 := by
    split <;> rfl
  have hcrlf : "\r\n".toList.length = 2 := rfl
  simp only [messagePieces, List.flatten_cons, List.flatten_nil, List.length_append, hversion,
    hcrlf, List.length_nil]
  omega

theorem length_messageText : (messageText request toSend URL).length =
    request.length + URL.path.length + URL.hostport.length + toSend.length + 20 := by
  have hblank : " ".toList.length = 1 := rfl
  rw [messageText, List.length_append, List.length_append, length_messagePieces, hblank]
  omega

theorem messageSize_eq :
    messageSize request toSend URL = wrap32 (messageText request toSend URL).length := by
  rw [length_messageText, messageSize]
  unfold wrap32
  simp only [Int.bmod_add_bmod, Int.add_bmod_bmod]
  congr 1
  push_cast
  omega

theorem path_pos (URL : ParsedURL) : 0 < URL.path.length := by
  rw [ParsedURL.path]
  split
  · exact one_pos
  · rename_i h
    exact Nat.pos_of_ne_zero h

/-- What is left of a block behind the method and a blank begins with the NUL of `sprintf`. -/
theorem sprintf_method {n : Nat} (h : request.length + 1 < n) :
    (Buffer.alloc n).sprintf (request ++ " ".toList) =
      some ((request ++ " ".toList).map some ++
        some '\x00' :: (Buffer.alloc n).drop (request.length + 2)) := by
  have hlength : (request ++ " ".toList ++ ['\x00']).length = request.length + 2 := by
    rw [List.length_append, List.length_append]
    rfl
  have hwrite := @Buffer.memcpy_append (request ++ " ".toList ++ ['\x00']) [] (Buffer.alloc n)
    (by rw [hlength, Buffer.length_alloc]; exact h)
  rw [hlength] at hwrite
  refine hwrite.trans (congrArg some ?_)
  rw [List.nil_append, List.map_append, List.append_assoc]
  rfl

/-- A block of at most the length of the message is filled exactly when it has that length. -/
theorem within_message_iff {n : Nat} (hle : n ≤ (messageText request toSend URL).length) :
    (written (((Buffer.alloc n).sprintf (request ++ " ".toList)).bind
      (Buffer.memcpyAll (request.length + 1) (messagePieces request toSend URL)))).Within
        (· = (messageText request toSend URL).map some) ↔
      n = (messageText request toSend URL).length := by
  have htext := @length_messageText request toSend URL
  have hpieces := @length_messagePieces request toSend URL
  have hpath := path_pos URL
  have hfront : ((request ++ " ".toList).map some : Buffer).length = request.length + 1 := by
    rw [List.length_map, List.length_append]
    rfl
  by_cases hmethod : request.length + 1 < n
  · have hrest : (some '\x00' :: (Buffer.alloc n).drop (request.length + 2)).length =
        n - (request.length + 1) := by
      rw [List.length_cons, List.length_drop, Buffer.length_alloc]
      omega
    rw [sprintf_method hmethod, Option.bind_some, ← hfront]
    rcases lt_or_eq_of_le hle with hlt | heq
    · rw [Buffer.memcpyAll_eq_none (by rw [hrest, hpieces]; omega)]
      exact iff_of_false id hlt.ne
    · have hfits : (messagePieces request toSend URL).flatten.length =
          (some '\x00' :: (Buffer.alloc n).drop (request.length + 2)).length := by
        rw [hrest, hpieces]
        omega
      rw [Buffer.memcpyAll_append hfits.le, hfits, List.drop_length, List.append_nil,
        ← List.map_append]
      exact iff_of_true rfl heq
  · have hfault : (Buffer.alloc n).sprintf (request ++ " ".toList) = none := by
      rw [← Option.not_isSome_iff_eq_none, Buffer.sprintf_isSome_iff, Buffer.length_alloc,
        List.length_append]
      exact hmethod
    rw [hfault, Option.bind_none]
    exact iff_of_false id (by omega)

theorem sized_message_iff :
    (Outgoing.transferHTTPparsedURL request toSend URL).Sized ↔
      (Outgoing.transferHTTPparsedURL request toSend URL).Small := by
  have hlength := @length_messageText request toSend URL
  have hsize := @messageSize_eq request toSend URL
  have hkept := @lt_wrap32_iff ((messageText request toSend URL).length - 1)
    (messageText request toSend URL).length (by omega) (by omega)
  have hle : 0 ≤ wrap32 (messageText request toSend URL).length →
      wrap32 (messageText request toSend URL).length ≤ (messageText request toSend URL).length := by
    obtain ⟨k, hk⟩ := wrap32_dvd (messageText request toSend URL).length
    have hrange := wrap32_range (messageText request toSend URL).length
    omega
  have hpass : ¬ (!true) = true := Bool.false_ne_true
  simp only [Outgoing.Sized, Outgoing.run, Outgoing.Complete, Outgoing.Small]
  rw [← hlength, ← hkept]
  simp only [transferHTTPparsedURL, hsize]
  generalize wrap32 (messageText request toSend URL).length = w at hle
  cases strcaseEq URL.scheme "http".toList with
  | false => exact iff_of_true (fun _ ↦ trivial) fun h ↦ absurd h Bool.false_ne_true
  | true =>
    by_cases hhost : URL.hostport.length = 0
    · refine iff_of_true (fun ok ↦ ?_) fun _ h ↦ absurd hhost h
      rw [if_neg hpass, if_pos hhost]
      trivial
    · constructor
      · intro h _ _ hpos
        have hfill := h true
        rw [if_neg hpass, if_neg hhost, malloc_true hpos] at hfill
        have hfilled := (within_message_iff (by have := hle hpos; omega)).mp hfill
        omega
      · intro h ok
        rw [if_neg hpass, if_neg hhost]
        rcases malloc_cases ok w with hnone | ⟨hpos, hsome⟩
        · rw [hnone]
          trivial
        · rw [hsome]
          have hless := h rfl hhost hpos
          have hmost := hle hpos
          refine (within_message_iff ?_).mpr ?_
          · omega
          · omega

end Message

/-! ## The headers -/

theorem length_subscribeText (LOCAL_HOST : CString) (LOCAL_PORT : UInt16) (timeout : CString) :
    (subscribeText LOCAL_HOST LOCAL_PORT timeout).length =
      LOCAL_HOST.length + (decimal LOCAL_PORT.toNat).length + timeout.length + 59 := by
  have hpieces : ∀ a b c d e f g : CString, (a ++ b ++ c ++ d ++ e ++ f ++ g).length =
      a.length + b.length + c.length + d.length + e.length + f.length + g.length := by
    intro a b c d e f g
    simp only [List.length_append]
  refine (hpieces _ _ _ _ _ _ _).trans ?_
  change 18 + LOCAL_HOST.length + 1 + (decimal LOCAL_PORT.toNat).length + 36 + timeout.length + 4 = _
  omega

theorem subscribeSize_eq (LOCAL_HOST : CString) :
    subscribeSize LOCAL_HOST = LOCAL_HOST.length + 80 := by
  change 22 + LOCAL_HOST.length + 1 + 10 + 16 + 20 + 10 + 1 = _
  omega

theorem length_renewText (ActualSID timeout : CString) :
    (renewText ActualSID timeout).length = ActualSID.length + timeout.length + 27 := by
  have hpieces : ∀ a b c d e : CString, (a ++ b ++ c ++ d ++ e).length =
      a.length + b.length + c.length + d.length + e.length := by
    intro a b c d e
    simp only [List.length_append]
  refine (hpieces _ _ _ _ _).trans ?_
  change 5 + ActualSID.length + 18 + timeout.length + 4 = _
  omega

theorem renewSize_eq (ActualSID : CString) : renewSize ActualSID = ActualSID.length + 38 := by
  change 7 + ActualSID.length + 20 + 10 + 1 = _
  omega

theorem length_unsubscribeText (ActualSID : CString) :
    (unsubscribeText ActualSID).length + 1 = unsubscribeSize ActualSID := by
  show ("SID: ".toList ++ ActualSID ++ "\r\n\r\n".toList).length + 1 = unsubscribeSize ActualSID
  rw [List.length_append, List.length_append]
  change 5 + ActualSID.length + 4 + 1 = 9 + ActualSID.length + 1
  omega

/-- What is formatted fits, and a message fills its block, if and only if the time-out is short
and the size is one that an `int` keeps. -/
theorem sized_iff (o : Outgoing) : o.Sized ↔ o.Small := by
  cases o with
  | genaSubscribe LOCAL_HOST LOCAL_PORT TimeOut =>
    have hport := length_port LOCAL_PORT
    refine within_formatHeaders_iff (fun timeout hshort ↦ ?_) fun timeout ↦ ?_
    · rw [MAX_SECONDS] at hshort
      rw [length_subscribeText, subscribeSize_eq]
      omega
    · rw [length_subscribeText, subscribeSize_eq]
      omega
  | out_sid uuid =>
    refine iff_of_true (fun _ ↦ within_sprintf_iff.mpr ?_) trivial
    rw [List.length_append, uuid.2, Buffer.length_alloc]
    decide
  | genaRenewSubscription ActualSID TimeOut =>
    refine within_formatHeaders_iff (fun timeout hshort ↦ ?_) fun timeout ↦ ?_
    · rw [MAX_SECONDS] at hshort
      rw [length_renewText, renewSize_eq]
      omega
    · rw [length_renewText, renewSize_eq]
      omega
  | genaUnSubscribe ActualSID =>
    have hlength := length_unsubscribeText ActualSID
    refine within_format_iff ?_ ?_
    · omega
    · omega
  | transferHTTPparsedURL request toSend URL => exact sized_message_iff

/-- A billion seconds have ten digits, and there is no room for the NUL. -/
theorem timeout_overflows :
    ¬ (Outgoing.genaSubscribe "10.0.0.2".toList 49152 (some 1000000000)).Sized := by
  intro h
  have hfault := h true
  have htimeout : (Buffer.alloc MAX_SECONDS).sprintf (timeoutText (some 1000000000)) = none := by
    decide
  rw [Outgoing.run, formatHeaders, htimeout] at hfault
  exact hfault

end Upnp.GenaClient
