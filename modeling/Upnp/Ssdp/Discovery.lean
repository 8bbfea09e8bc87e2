import Upnp.Advertise.Description
import Upnp.Lib.Substring
import Upnp.Ssdp.ReplyDelay
import Upnp.Ssdp.Search
import Upnp.Util.GmtDateRoundTrip

/-!
# Discovery

What `ssdplib.c` prints, `ssdpparser.c` reads: the packets of a device that a client is told of, and
the searches of a client that a device answers.
-/

namespace Upnp.Ssdp

open Upnp.Lib Exec
open Upnp.Advertise (Announcement Packet Request AdvertiseAndReply announcements)
open Upnp.Util (Tm padTwo DateToString)

/-! ## Packets -/

def SSDP_IP : CString := "239.255.255.250".toList
def SSDP_PORT : Int := 1900

/-- `struct utsname`, as far as it is printed. -/
structure utsname where
  sysname : CString
  release : CString
deriving DecidableEq, Repr

/-- What the packets have from the system: `uname`, and `gmtime` of the time. -/
structure Sender where
  sys_info : utsname
  current_tm : Tm

/-- The names of the days in `currentTmToHttpDate`. -/
def dayName : Int → Option CString
  | 0 => some "Sun".toList
  | 1 => some "Mon".toList
  | 2 => some "Tue".toList
  | 3 => some "Wed".toList
  | 4 => some "Thu".toList
  | 5 => some "Fri".toList
  | 6 => some "Sat".toList
  | _ => none

/-- The names of the months in `currentTmToHttpDate`. -/
def monthName : Int → Option CString
  | 0 => some "Jan".toList
  | 1 => some "Feb".toList
  | 2 => some "Mar".toList
  | 3 => some "Apr".toList
  | 4 => some "May".toList
  | 5 => some "Jun".toList
  | 6 => some "Jul".toList
  | 7 => some "Aug".toList
  | 8 => some "Sep".toList
  | 9 => some "Oct".toList
  | 10 => some "Nov".toList
  | 11 => some "Dec".toList
  | _ => none

/-- `%04d`. -/
def padFour (n : Int) : CString := List.replicate (4 - (decimal n).length) '0' ++ decimal n

/-- `currentTmToHttpDate`, to an array of 40 characters. -/
def currentTmToHttpDate (current_tm : Tm) : Exec CString := do
  let day ← follow (dayName current_tm.tm_wday)
  let month ← follow (monthName current_tm.tm_mon)
  let out := "DATE: ".toList ++ (day ++ (", ".toList ++ (padTwo current_tm.tm_mday ++ ' ' ::
    (month ++ ' ' :: (padFour (current_tm.tm_year + 1900) ++ ' ' ::
      (padTwo current_tm.tm_hour ++ ':' :: (padTwo current_tm.tm_min ++ ':' ::
        (padTwo current_tm.tm_sec ++ " GMT\r\n".toList))))))))
  copy 40 out
  pure out

/-- `strcat( RqstBuf, s )`. -/
def catRqst (RqstBuf s : CString) : Exec CString := do
  copy BUFSIZE (RqstBuf ++ s)
  pure (RqstBuf ++ s)

/-- A text is printed to `TempBuf` and appended. -/
def catTemp (RqstBuf s : CString) : Exec CString := do
  copy COMMAND_LEN s
  catRqst RqstBuf s

/-- `TempBuf` with the address of the multicast channel. -/
def hostText (name : CString) : CString :=
  name ++ (SSDP_IP ++ ':' :: (decimal SSDP_PORT ++ "\r\n".toList))

/-- `TempBuf` with the server. -/
def serverText (sys_info : utsname) : CString :=
  "SERVER: ".toList ++ (sys_info.sysname ++ '/' ::
    (sys_info.release ++ " UPnP/1.0 Intel UPnP SDK/1.0\r\n".toList))

/-- `CreateServiceRequestPacket` up to the `USN`, for a reply. -/
def replyHead (s : Sender) (NtSt Location : CString) (Duration : Int) (Date : CString) :
    Exec CString := do
  let RqstBuf ← catRqst [] "HTTP/1.1 200 OK\r\n".toList
  let RqstBuf ← catTemp RqstBuf
    ("CACHE-CONTROL: max-age=".toList ++ (decimal Duration ++ "\r\n".toList))
  let RqstBuf ← catRqst RqstBuf Date
  let RqstBuf ← catRqst RqstBuf "EXT:\r\n".toList
  let RqstBuf ← catTemp RqstBuf ("LOCATION: ".toList ++ (Location ++ "\r\n".toList))
  let RqstBuf ← catTemp RqstBuf (serverText s.sys_info)
  catTemp RqstBuf ("ST: ".toList ++ (NtSt ++ "\r\n".toList))

/-- The lines that both notifications begin with. -/
def notifyHead (NtSt Location : CString) (Duration : Int) : Exec CString := do
  let RqstBuf ← catRqst [] "NOTIFY * HTTP/1.1\r\n".toList
  let RqstBuf ← catTemp RqstBuf (hostText "HOST: ".toList)
  let RqstBuf ← catTemp RqstBuf
    ("CACHE-CONTROL: max-age=".toList ++ (decimal Duration ++ "\r\n".toList))
  let RqstBuf ← catTemp RqstBuf ("LOCATION: ".toList ++ (Location ++ "\r\n".toList))
  catTemp RqstBuf ("NT: ".toList ++ (NtSt ++ "\r\n".toList))

/-- The branches of `CreateServiceRequestPacket`. -/
def packetHead (s : Sender) (Notf : Nat) (NtSt Location : CString) (Duration : Int)
    (Date : CString) : Exec CString :=
  if Notf = 2 then replyHead s NtSt Location Duration Date
  else if Notf = 1 then do
    let RqstBuf ← notifyHead NtSt Location Duration
    let RqstBuf ← catRqst RqstBuf "NTS: ssdp:alive\r\n".toList
    catTemp RqstBuf (serverText s.sys_info)
  else do
    let RqstBuf ← notifyHead NtSt Location Duration
    catRqst RqstBuf "NTS: ssdp:byebye\r\n".toList

/-- `CreateServiceRequestPacket`; `Notf` is 0, 1 or 2. -/
def CreateServiceRequestPacket (s : Sender) (Notf : Nat) (NtSt Usn Location : CString)
    (Duration : Int) : Exec CString := do
  let Date ← currentTmToHttpDate s.current_tm
  let RqstBuf ← packetHead s Notf NtSt Location Duration Date
  let RqstBuf ← catTemp RqstBuf ("USN: ".toList ++ (Usn ++ "\r\n".toList))
  catRqst RqstBuf "\r\n\r\n".toList

/-- `CreateClientRequestPacket`, with a target. -/
def CreateClientRequestPacket (Mx : Int) (SearchTarget : CString) : Exec CString := do
  let RqstBuf ← catRqst [] "M-SEARCH * HTTP/1.1\r\n".toList
  let RqstBuf ← catTemp RqstBuf (hostText "HOST:".toList)
  let RqstBuf ← catRqst RqstBuf "MAN:\"ssdp:discover\"\r\n".toList
  let RqstBuf ←
    if 0 < Mx then catTemp RqstBuf ("MX:".toList ++ (decimal Mx ++ "\r\n".toList))
    else pure RqstBuf
  let RqstBuf ← catTemp RqstBuf ("ST:".toList ++ (SearchTarget ++ "\r\n".toList))
  catRqst RqstBuf "\r\n".toList

def DEFAULT_MX : Int := 5

/-- `UpnpSearchAsync` and `SearchByTarget`, of a client: the packet that is sent. -/
def UpnpSearchAsync (Mx : Int) (Target : CString) : Exec CString :=
  CreateClientRequestPacket (if Mx < 1 then DEFAULT_MX else Mx) Target

/-! ## What becomes of a packet -/

/-- `ListenMulticastChannel`, `StartEventHandler` and `TransferResEvent`, with one datagram. -/
def heard (datagram : CString) (evt : Event) (usec : Int) (gen : Generator) : Exec (List Act) :=
  let bytes := received datagram
  if 0 < bytes.length then do
    write BUFSIZE bytes.length
    let text := textOf bytes
    copy (text.length + 1) text
    TransferResEvent text evt usec gen
  else pure []

/-- The event of a callback behind the multicast channel. -/
def Act.callback : Act → Option Event
  | usleep _ => none
  | CallBackFn evt => some evt

/-- The event of a callback behind a search. -/
def SearchAct.callback : SearchAct → Option Event
  | CallBackFn evt => some evt
  | _ => none

/-- `SsdpCallbackEventHandler` for a search, when a device is registered: what `AdvertiseAndReply`
is called with. -/
def searchRequest (Evt : Event) : Option Request :=
  if Evt.ErrCode = 0 ∧ Evt.Cmd = .SEARCH then
    some ⟨0, Evt.RequestType, Evt.DeviceType, Evt.UDN, Evt.ServiceType⟩
  else none

/-- A packet of a device on the multicast channel, and what a client is told. -/
def notified (s : Sender) (Location : CString) (Duration : Int) (evt : Event) (usec : Int)
    (gen : Generator) (p : Packet) : Exec (List (Upnp_EventType × Option Upnp_Discovery)) := do
  let text ← CreateServiceRequestPacket s p.Notf p.names.Nt p.names.Usn Location Duration
  let acts ← heard text evt usec gen
  pure ((acts.filterMap Act.callback).filterMap SsdpCallbackEventHandler)

/-- A packet of a device to the socket of a search, and what the client is told. -/
def replied (s : Sender) (Location : CString) (Duration : Int) (evt : Event) (p : Packet) :
    Exec (List (Upnp_EventType × Option Upnp_Discovery)) := do
  let text ← CreateServiceRequestPacket s p.Notf p.names.Nt p.names.Usn Location Duration
  let (_, calls) ← receive text evt
  pure ((calls.filterMap SearchAct.callback).filterMap SsdpCallbackEventHandler)

/-- One run behind the other. -/
def inTurn {α β : Type} (f : α → Exec (List β)) : List α → Exec (List β)
  | [] => pure []
  | a :: as => do
    let bs ← f a
    let rest ← inTurn f as
    pure (bs ++ rest)

/-! ## Runs that stay in their arrays -/

namespace Exec

variable {α β : Type} {x : Exec α} {f : α → Exec β} {a : α} {b : β} {size : Nat} {s : CString}

/-- The run writes within its arrays, and `a` is its result. -/
structure Gives (x : Exec α) (a : α) : Prop where
  safe : x.Safe
  val : x.val = some a

theorem gives_pure (a : α) : (pure a : Exec α).Gives a := ⟨safe_pure a, rfl⟩

theorem gives_follow (a : α) : (follow (some a)).Gives a := ⟨safe_follow _, rfl⟩

theorem gives_copy (h : s.length < size) : (copy size s).Gives () := ⟨safe_copy.mpr h, rfl⟩

theorem Gives.bind (hx : x.Gives a) (hf : (f a).Gives b) : (x >>= f).Gives b := by
  refine ⟨safe_bind.mpr ⟨hx.safe, fun a' ha' ↦ ?_⟩, ?_⟩
  · obtain rfl := Option.some.inj (hx.val.symm.trans ha')
    exact hf.safe
  · rw [val_bind, hx.val]
    exact hf.val

theorem gives_ite {c : Prop} [Decidable c] {y : Exec α} (hx : c → x.Gives a)
    (hy : ¬ c → y.Gives a) : (if c then x else y).Gives a := by
  split
  · exact hx ‹_›
  · exact hy ‹_›

end Exec

theorem gives_inTurn {α β : Type} {f : α → Exec (List β)} {g : α → β} {as : List α}
    (h : ∀ a ∈ as, (f a).Gives [g a]) : (inTurn f as).Gives (as.map g) := by
  induction as with
  | nil => exact gives_pure []
  | cons a as ih =>
    obtain ⟨ha, has⟩ := List.forall_mem_cons.mp h
    exact ha.bind ((ih has).bind (gives_pure _))

/-! ## Lines -/

/-- The characters of a text that stands in a line. -/
def IsPlain (s : CString) : Prop := ∀ c ∈ s, c ≠ '\r' ∧ c ≠ '\x00'

theorem IsPlain.append {s t : CString} (hs : IsPlain s) (ht : IsPlain t) : IsPlain (s ++ t) :=
  List.forall_mem_append.mpr ⟨hs, ht⟩

theorem IsPlain.cons {c : Char} {s : CString} (hc : c ≠ '\r' ∧ c ≠ '\x00') (hs : IsPlain s) :
    IsPlain (c :: s) :=
  List.forall_mem_cons.mpr ⟨hc, hs⟩

theorem isPlain_of_digits {s : CString} (h : IsDigits 10 s) : IsPlain s := by
  intro c hc
  refine ⟨?_, ?_⟩ <;> rintro rfl <;> exact absurd (h _ hc) (by decide)

def crlf : CString := ['\r', '\n']

/-- Lines, each with its end. -/
def joined (lines : List CString) : CString := lines.flatMap (· ++ crlf)

/-- The lines of a packet that fits into the buffers, before it is sent and behind. -/
structure Printable (lines : List CString) : Prop where
  count : lines.length ≤ 9
  short : ∀ l ∈ lines, l.length ≤ 200
  plain : ∀ l ∈ lines, IsPlain l

variable {lines more : List CString} {line text RqstBuf v : CString} {evt evt' e : Event}
  {h : Header}

theorem joined_append : joined (lines ++ more) = joined lines ++ joined more :=
  List.flatMap_append

theorem joined_cons : joined (line :: lines) = line ++ '\r' :: '\n' :: joined lines := by
  rw [joined, List.flatMap_cons, List.append_assoc]
  rfl

theorem length_joined (hshort : ∀ l ∈ lines, l.length ≤ 200) :
    (joined lines).length ≤ 202 * lines.length := by
  induction lines with
  | nil => exact Nat.zero_le _
  | cons line lines ih =>
    obtain ⟨hline, hlines⟩ := List.forall_mem_cons.mp hshort
    have hrest := ih hlines
    rw [joined_cons, List.length_append, List.length_cons, List.length_cons, List.length_cons]
    omega

/-- The next line is appended to those that are done. -/
theorem Printable.catRqst (h : Printable lines) (n : Nat) (hline : lines[n]? = some line)
    (htext : text = line ++ crlf) :
    (catRqst (joined (lines.take n)) text).Gives (joined (lines.take (n + 1))) := by
  have hjoined : joined (lines.take n) ++ text = joined (lines.take (n + 1)) := by
    rw [List.take_add_one, hline, joined_append, htext, joined, joined]
    exact congrArg _ (List.flatMap_singleton _ _).symm
  have hlength := @length_joined (lines.take (n + 1)) fun l hl ↦
    h.short l (List.mem_of_mem_take hl)
  have hcount := (List.length_take_le' (n + 1) lines).trans h.count
  rw [Ssdp.catRqst, hjoined]
  refine (gives_copy (Nat.lt_of_le_of_lt hlength ?_)).bind (gives_pure _)
  unfold BUFSIZE
  omega

theorem Printable.catTemp (h : Printable lines) (n : Nat) (hline : lines[n]? = some line)
    (htext : text = line ++ crlf) :
    (catTemp (joined (lines.take n)) text).Gives (joined (lines.take (n + 1))) := by
  refine (gives_copy ?_).bind (h.catRqst n hline htext)
  have hshort := h.short line (List.mem_of_getElem? hline)
  rw [htext, List.length_append]
  exact Nat.lt_of_le_of_lt (Nat.add_le_add_right hshort 2) (by decide)

/-- The end of a packet. -/
theorem Printable.catEnd (h : Printable lines) (htext : text.length ≤ 4) :
    (Ssdp.catRqst (joined lines) text).Gives (joined lines ++ text) := by
  have hlength := length_joined h.short
  have hcount := h.count
  refine (gives_copy ?_).bind (gives_pure _)
  rw [List.length_append]
  unfold BUFSIZE
  omega

theorem crlfLines_line {s : CString} (hline : IsPlain line) :
    crlfLines (line ++ '\r' :: '\n' :: s) = line :: crlfLines s := by
  induction line with
  | nil => exact if_pos ⟨rfl, rfl⟩
  | cons c line ih =>
    obtain ⟨hc, hline⟩ := List.forall_mem_cons.mp hline
    have hcons : ∀ rest : CString, rest ≠ [] →
        crlfLines (c :: rest) = (crlfLines rest).modifyHead (c :: ·) := by
      intro rest hne
      obtain ⟨d, rest, rfl⟩ := List.exists_cons_of_ne_nil hne
      exact if_neg fun h ↦ hc.1 h.1
    rw [List.cons_append, hcons _ (by simp), ih hline]
    rfl

theorem crlfLines_joined {s : CString} (h : ∀ l ∈ lines, IsPlain l) :
    crlfLines (joined lines ++ s) = lines ++ crlfLines s := by
  induction lines with
  | nil => rfl
  | cons line lines ih =>
    obtain ⟨hline, hlines⟩ := List.forall_mem_cons.mp h
    rw [joined_cons, List.append_assoc, List.cons_append, List.cons_append, crlfLines_line hline,
      ih hlines, List.cons_append]

/-! ## Parsing lines -/

/-- The line of a header. -/
def field (h : Header) (v : CString) : CString := h.name ++ ':' :: v

/-- The lines behind the first make `evt` the event `evt'`. -/
def Parses (lines : List CString) (evt evt' : Event) : Prop :=
  ∀ size, (∀ l ∈ lines, l.length < size) → (headerLoop size lines 1 evt).Gives (1, evt')

theorem Parses.nil : Parses [] evt evt := fun _ _ ↦ gives_pure _

theorem StrTok_sep {c : Char} {s t : CString} (hs : c ∉ s) :
    StrTok (some (s ++ c :: t)) [c] = (some s, some t) := by
  have hstr : strstr (s ++ c :: t) [c] = some (c :: t) := by
    rw [strstr_append_of_notMem hs]
    exact strstr_of_prefix ⟨t, rfl⟩
  rw [StrTok]
  simp only [hstr]
  rw [List.length_append, Nat.add_sub_cancel_right, List.take_left']
  · rfl
  · rfl

theorem StrTok_last {c : Char} {s : CString} (hs : c ∉ s) :
    StrTok (some s) [c] = (some s, none) := by
  rw [StrTok, strstr_eq_none (List.cons_ne_nil _ _) fun h ↦ hs (h.subset List.mem_cons_self)]

theorem Header.colon_not_mem (h : Header) : ':' ∉ h.name := by
  cases h <;> decide

theorem findHeader_name (h : Header) : findHeader h.name = some h := by
  cases h <;> decide

theorem strchr_sep {c : Char} {s t : CString} (hs : c ∉ s) :
    strchr (s ++ c :: t) c = some (c :: t) := by
  induction s with
  | nil => exact if_pos rfl
  | cons d s ih =>
    rw [List.cons_append, strchr, if_neg fun h ↦ List.ne_of_not_mem_cons hs h.symm]
    exact ih (List.not_mem_of_not_mem_cons hs)

theorem Parses.field (hv : (h.parse v evt).Gives (1, e)) (hlines : Parses lines e evt') :
    Parses (field h v :: lines) evt evt' := by
  intro size hsize
  obtain ⟨hline, hrest⟩ := List.forall_mem_cons.mp hsize
  rw [headerLoop]
  refine (gives_copy hline).bind ?_
  rw [Ssdp.field, StrTok_sep h.colon_not_mem, strchr_sep h.colon_not_mem]
  refine (gives_follow h.name).bind ?_
  simp only [findHeader_name]
  refine (gives_follow (':' :: v)).bind (hv.bind ?_)
  exact hlines size hrest

/-- An empty line is no header. -/
theorem Parses.blank (hlines : Parses lines evt evt') : Parses ([] :: lines) evt evt' := by
  intro size hsize
  obtain ⟨hline, hrest⟩ := List.forall_mem_cons.mp hsize
  rw [headerLoop]
  exact (gives_copy hline).bind ((gives_follow []).bind (hlines size hrest))

theorem Parses.blanks (hblank : ∀ l ∈ lines, l = []) : Parses lines evt evt := by
  induction lines with
  | nil => exact .nil
  | cons line lines ih =>
    obtain ⟨rfl, hlines⟩ := List.forall_mem_cons.mp hblank
    exact .blank (ih hlines)

/-- The lines behind the first make `evt` an event with the property. -/
def Leads (lines : List CString) (evt : Event) (P : Event → Prop) : Prop :=
  ∃ e, Parses lines evt e ∧ P e

theorem Leads.field {P : Event → Prop} (hv : (h.parse v evt).Gives (1, e))
    (hlines : Leads lines e P) : Leads (field h v :: lines) evt P := by
  obtain ⟨e', hparses, hP⟩ := hlines
  exact ⟨e', .field hv hparses, hP⟩

theorem Leads.blanks {P : Event → Prop} (hblank : ∀ l ∈ lines, l = []) (hP : P evt) :
    Leads lines evt P :=
  ⟨evt, .blanks hblank, hP⟩

/-- A packet whose lines are parsed is analysed. -/
theorem gives_AnalyzeCommand {first tail : CString} (hp : Printable (first :: lines))
    (htail : (crlfLines tail).length ≤ 3 ∧ ∀ l ∈ crlfLines tail, l = [])
    (hfirst : (CheckHdr first InitEvent).Gives (1, e))
    (hlines : Parses (lines ++ crlfLines tail) e evt') (evt : Event) :
    (AnalyzeCommand (joined (first :: lines) ++ tail) evt).Gives (1, evt') := by
  have hcrlf : crlfLines (joined (first :: lines) ++ tail) = first :: (lines ++ crlfLines tail) :=
    crlfLines_joined hp.plain
  have hne : ¬ (joined (first :: lines) ++ tail).length = 0 := by
    rw [joined_cons]
    simp
  have hlength : ∀ l ∈ first :: (lines ++ crlfLines tail), l.length < COMMAND_LEN := by
    intro l hl
    rw [← List.cons_append] at hl
    rcases List.mem_append.mp hl with hl | hl
    · exact Nat.lt_of_le_of_lt (hp.short l hl) (by decide)
    · rw [htail.2 l hl]
      decide
  have hstore : (storeLoop 0 (first :: (lines ++ crlfLines tail))).Gives () := by
    refine ⟨(safe_storeLoop 0 _ (List.cons_ne_nil _ _)).mpr ⟨?_, hlength⟩, storeLoop_val _ _⟩
    have hcount := hp.count
    have htwo := htail.1
    rw [List.length_cons] at hcount ⊢
    rw [List.length_append]
    unfold NUM_TOKEN
    omega
  rw [AnalyzeCommand, if_neg hne]
  simp only [tokens_eq, hcrlf]
  refine (gives_copy (Nat.lt_add_of_pos_right (by decide))).bind (hstore.bind (hfirst.bind ?_))
  refine gives_ite (fun _ ↦ hlines _ fun l hl ↦ ?_) fun h ↦ absurd (show (1 : Int) ≠ 0 by decide) h
  have hle := length_le_of_mem_crlfLines (hcrlf ▸ List.mem_cons_of_mem first hl)
  exact Nat.lt_of_le_of_lt hle (Nat.lt_add_of_pos_right (by decide))

/-- What is received of a text that fits. -/
theorem textOf_received (hlength : text.length < BUFSIZE) (hnul : '\x00' ∉ text) :
    textOf (received text) = text := by
  rw [received, List.take_of_length_le hlength.le, textOf, List.takeWhile_eq_self_iff]
  exact fun c hc ↦ decide_eq_true fun h ↦ hnul (h ▸ hc)

/-- What is heard of a text that fits is the text. -/
theorem gives_heard {acts : List Act} {usec : Int} {gen : Generator} (hpos : 0 < text.length)
    (hlength : text.length < BUFSIZE) (hnul : '\x00' ∉ text)
    (hacts : (TransferResEvent text evt usec gen).Gives acts) :
    (heard text evt usec gen).Gives acts := by
  have htext := textOf_received hlength hnul
  have hreceived : received text = text := List.take_of_length_le hlength.le
  rw [heard]
  simp only [hreceived] at htext ⊢
  rw [if_pos hpos, htext]
  exact (gives_copy hlength).bind ((gives_copy (Nat.lt_succ_self _)).bind hacts)

theorem gives_receive {r : Int × Event} (hpos : 0 < text.length)
    (hlength : text.length < BUFSIZE) (hnul : '\x00' ∉ text)
    (hr : ∀ evt, (AnalyzeCommand text evt).Gives r) (hret : 0 ≤ r.1) :
    (receive text evt).Gives (r.2, [.CallBackFn r.2]) := by
  have htext := textOf_received hlength hnul
  have hreceived : received text = text := List.take_of_length_le hlength.le
  have hrun : (RequestHandler text evt).Gives (some r) := by
    rw [RequestHandler]
    simp only [hreceived] at htext ⊢
    rw [if_pos hpos, htext]
    exact (gives_copy hlength).bind ((hr _).bind (gives_pure _))
  rw [receive]
  refine hrun.bind ?_
  dsimp only
  rw [if_pos hret]
  exact gives_pure _

/-! ## The values of the headers -/

theorem gives_storeText {set : CString → Event → Event} (hpos : 0 < v.length)
    (hlength : v.length < LINE_SIZE) : (storeText set v evt).Gives (1, set v evt) :=
  gives_ite (fun _ ↦ (gives_copy hlength).bind (gives_pure _)) fun h ↦ absurd hpos h

theorem gives_Os (hne : v ≠ []) (hlength : v.length < LINE_SIZE) :
    (Os v evt).Gives (1, { evt with Os := v }) :=
  gives_storeText (List.length_pos_of_ne_nil hne) hlength

theorem gives_Host (hne : v ≠ []) (hlength : v.length < LINE_SIZE) :
    (Host v evt).Gives (1, { evt with HostAddr := v }) :=
  gives_storeText (List.length_pos_of_ne_nil hne) hlength

theorem gives_Fun_MAN (hne : v ≠ []) (hlength : v.length < LINE_SIZE) :
    (Fun_MAN v evt).Gives (1, { evt with Man := v }) :=
  gives_storeText (List.length_pos_of_ne_nil hne) hlength

theorem gives_Fun_Date (hne : v ≠ []) (hlength : v.length < LINE_SIZE) :
    (Fun_Date v evt).Gives (1, { evt with Date := v }) :=
  gives_storeText (List.length_pos_of_ne_nil hne) hlength

theorem gives_Fun_Ext_nil : (Fun_Ext [] evt).Gives (1, evt) := gives_pure _

theorem gives_Location_Header {Location : CString} (hpos : 7 ≤ Location.length)
    (hlength : Location.length ≤ 178) : (Location_Header (' ' :: Location) evt).Gives
      (1, { evt with Location := ' ' :: Location }) := by
  refine gives_ite (fun _ ↦ (gives_copy ?_).bind (gives_pure _)) fun h ↦ absurd ?_ h
  · exact Nat.lt_of_le_of_lt (Nat.succ_le_succ hlength) (by decide)
  · exact Nat.lt_succ_of_le hpos

/-- A number of seconds. -/
def IsDuration (n : Int) : Prop := 0 ≤ n ∧ n ≤ 2147483647

theorem neg_le_of_duration {n : Int} (hn : IsDuration n) : -2147483648 ≤ n :=
  le_trans (by decide) hn.1

/-- What is not a digit does not stand in a number. -/
theorem not_mem_decimal {n : Int} (hn : 0 ≤ n) {c : Char} (hc : digitVal 10 c = none) :
    c ∉ decimal n := by
  intro h
  have hdigit := (Util.shows_decimal hn).digits c h
  rw [hc] at hdigit
  exact absurd hdigit Bool.false_ne_true

theorem gives_Cache_Control {n : Int} (hn : IsDuration n) :
    (Cache_Control (" max-age=".toList ++ decimal n) evt).Gives
      (1, { evt with MaxAge := n }) := by
  have hsep : " max-age=".toList ++ decimal n = " max-age".toList ++ '=' :: decimal n := rfl
  have hlast : '=' ∉ decimal n := not_mem_decimal hn.1 (by decide)
  rw [Cache_Control, hsep, StrTok_sep (by decide)]
  simp only [StrTok_last hlast, Util.atoi_decimal (neg_le_of_duration hn) hn.2]
  exact gives_pure _

theorem gives_Notification_Sub_Type {token : CString} {Cmd : CmdType}
    (h : token = "alive".toList ∧ Cmd = .ALIVE ∨ token = "byebye".toList ∧ Cmd = .BYEBYE) :
    (Notification_Sub_Type (" ssdp".toList ++ ':' :: token) evt).Gives
      (1, { evt with Cmd := Cmd }) := by
  have hcolon : ':' ∉ token := by
    rcases h with ⟨rfl, -⟩ | ⟨rfl, -⟩ <;> decide
  rw [Notification_Sub_Type, StrTok_sep (by decide)]
  simp only [StrTok_last hcolon]
  refine (gives_follow token).bind ?_
  rcases h with ⟨rfl, rfl⟩ | ⟨rfl, rfl⟩
  · exact gives_ite (fun _ ↦ gives_pure _) fun h ↦ absurd (by decide) h
  · refine gives_ite (fun h ↦ absurd h (by decide)) fun _ ↦ ?_
    exact gives_ite (fun _ ↦ gives_pure _) fun h ↦ absurd (by decide) h

theorem gives_Max_Delay {Mx : Int} (hpos : 0 < Mx) (hMx : IsDuration Mx) :
    (Max_Delay (decimal Mx) evt).Gives (1, { evt with Mx := Mx }) := by
  have hne : decimal Mx ≠ [] := (Util.shows_decimal hMx.1).ne_nil
  have hcolon : ':' ∉ decimal Mx := not_mem_decimal hMx.1 (by decide)
  have hdot : '.' ∉ decimal Mx := not_mem_decimal hMx.1 (by decide)
  refine gives_ite (fun _ ↦ ?_) fun h ↦ absurd (List.length_pos_of_ne_nil hne) h
  rw [StrTok_last hcolon]
  simp only [Util.atoi_decimal (neg_le_of_duration hMx) hMx.2]
  refine gives_ite (fun h ↦ ?_) fun _ ↦ gives_pure _
  rcases h with h | h | h
  · exact absurd h hne
  · exact absurd hpos (Int.not_lt.mpr h)
  · exact absurd h hdot

/-! ## The names -/

/-- An identifier behind `uuid:` in which nothing begins that the parser looks for. -/
structure IsId (id : CString) : Prop where
  ne_nil : id ≠ []
  colon : ':' ∉ id
  urn : ¬ "urn".toList <:+: id
  schemas : ¬ "schemas".toList <+: id
  rootdevice : ¬ "rootdevice".toList <+: id
  service : id ≠ "service".toList
  device : id ≠ "device".toList

/-- The name of a device. -/
def IsUdn (u : CString) : Prop := ∃ id, u = "uuid".toList ++ ':' :: id ∧ IsId id

/-- A type with `kind` in it and nothing else that the parser looks for. -/
structure IsType (kind other t : CString) : Prop where
  urn : "urn:".toList <+: t
  kind : kind <:+: t
  other : ¬ other <:+: t
  uuid : ¬ "uuid".toList <:+: t
  all : ¬ "ssdp:all".toList <:+: t
  rootdevice : ¬ ":rootdevice".toList <:+: t

/-- What is searched for, or named behind the device. -/
inductive Target where
  | all
  | rootdevice
  | udn (u : CString)
  | device (t : CString)
  | service (t : CString)
deriving DecidableEq, Repr

namespace Target

def name : Target → CString
  | all => "ssdp:all".toList
  | rootdevice => "upnp:rootdevice".toList
  | udn u => u
  | device t => t
  | service t => t

def WellNamed : Target → Prop
  | all => True
  | rootdevice => True
  | udn u => IsUdn u
  | device t => IsType ":device:".toList ":service:".toList t
  | service t => IsType ":service:".toList ":device:".toList t

/-- The fields of the event that the parser fills in. -/
def set (evt : Event) : Target → Event
  | all => evt
  | rootdevice => evt
  | udn u => { evt with UDN := u }
  | device t => { evt with DeviceType := t }
  | service t => { evt with ServiceType := t }

def requestType : Target → SearchType
  | all => .ALL
  | rootdevice => .ROOTDEVICE
  | udn _ => .DEVICE
  | device _ => .DEVICE
  | service _ => .SERVICE

/-- It can stand behind the name of a device. -/
def Behind : Target → Prop
  | all => False
  | udn _ => False
  | _ => True

end Target

variable {id x p q kind other t u : CString} {target : Target} {f : CString → Event → Event}

theorem contains_of_isInfix (hne : p ≠ []) (h : p <:+: v) : Contains v p :=
  (strstr_ne_none_iff hne).mpr h

theorem not_contains (hne : p ≠ []) (h : ¬ p <:+: v) : ¬ Contains v p :=
  fun hv ↦ h ((strstr_ne_none_iff hne).mp hv)

/-- What is found with a colon in the name of a device. -/
theorem IsId.isInfix_udn (h : IsId id) (hp : ':' ∉ p)
    (hin : p ++ ':' :: q <:+: "uuid".toList ++ ':' :: id) : p <:+ "uuid".toList ∧ q <+: id := by
  refine (isInfix_append_sep (by decide) hp hin).resolve_right fun hid ↦ h.colon ?_
  exact hid.subset (List.mem_append_right _ List.mem_cons_self)

/-- What is found with a colon in a name with a target behind it. -/
theorem IsId.isInfix_usn (h : IsId id) (hp : ':' ∉ p)
    (hin : p ++ ':' :: q <:+: "uuid".toList ++ ':' :: (id ++ ':' :: ':' :: x)) :
    (p <:+ "uuid".toList ∧ q <+: id ++ ':' :: ':' :: x) ∨ (p <:+ id ∧ q <+: ':' :: x) ∨
      (p = [] ∧ q <+: x) ∨ p ++ ':' :: q <:+: x := by
  rcases isInfix_append_sep (by decide) hp hin with h₁ | hin
  · exact .inl h₁
  rcases isInfix_append_sep h.colon hp hin with h₂ | hin
  · exact .inr (.inl h₂)
  rcases @isInfix_append_sep [] _ _ _ _ List.not_mem_nil hp hin with ⟨hnil, hq⟩ | hin
  · exact .inr (.inr (.inl ⟨List.suffix_nil.mp hnil, hq⟩))
  · exact .inr (.inr (.inr hin))

theorem IsId.not_schemas_udn (h : IsId id) :
    ¬ "uuid:schemas".toList <:+: "uuid".toList ++ ':' :: id :=
  fun hin ↦ h.schemas (@isInfix_udn _ "uuid".toList "schemas".toList h (by decide) hin).2

theorem IsId.not_schemas_usn (h : IsId id) (hx : ¬ "uuid".toList <:+: x) :
    ¬ "uuid:schemas".toList <:+: "uuid".toList ++ ':' :: (id ++ ':' :: ':' :: x) := by
  intro hin
  rcases @isInfix_usn _ _ "uuid".toList "schemas".toList h (by decide) hin with
    ⟨-, hq⟩ | ⟨-, hq⟩ | ⟨hnil, -⟩ | hin
  · exact h.schemas ((isPrefix_append_sep (by decide)).mp hq)
  · exact absurd (List.cons_prefix_cons.mp hq).1 (by decide)
  · exact absurd hnil (by decide)
  · exact hx ((List.prefix_append _ _).isInfix.trans hin)

theorem IsId.not_urn_udn (h : IsId id) : ¬ "urn:".toList <:+: "uuid".toList ++ ':' :: id := by
  intro hin
  have hsuffix := (@isInfix_udn _ "urn".toList [] h (by decide) hin).1
  exact absurd hsuffix (by decide)

theorem IsId.urn_usn (h : IsId id) :
    Contains ("uuid".toList ++ ':' :: (id ++ ':' :: ':' :: x)) "urn:".toList ↔
      Contains x "urn:".toList := by
  unfold Contains
  rw [strstr_ne_none_iff (by decide), strstr_ne_none_iff (by decide)]
  constructor
  · intro hin
    rcases @isInfix_usn _ _ "urn".toList [] h (by decide) hin with
      ⟨hsuffix, -⟩ | ⟨hsuffix, -⟩ | ⟨hnil, -⟩ | hin
    · exact absurd hsuffix (by decide)
    · exact absurd hsuffix.isInfix h.urn
    · exact absurd hnil (by decide)
    · exact hin
  · intro hin
    refine hin.trans (List.IsSuffix.isInfix ?_)
    exact ⟨"uuid".toList ++ ':' :: (id ++ [':', ':']), by simp⟩

/-- The kind of a type is looked for in the target. -/
theorem IsId.kind_usn {w : CString} (h : IsId id) (hw : ':' ∉ w) (hne : w ≠ []) (hid : id ≠ w)
    (hx : ¬ w ++ [':'] <+: x) :
    Contains ("uuid".toList ++ ':' :: (id ++ ':' :: ':' :: x)) (':' :: (w ++ [':'])) ↔
      Contains x (':' :: (w ++ [':'])) := by
  unfold Contains
  rw [strstr_ne_none_iff (List.cons_ne_nil _ _), strstr_ne_none_iff (List.cons_ne_nil _ _)]
  constructor
  · intro hin
    rcases @isInfix_usn _ _ [] (w ++ [':']) h List.not_mem_nil hin with
      ⟨-, rest, hq⟩ | ⟨-, hq⟩ | ⟨-, hq⟩ | hin
    · rw [List.append_assoc, List.singleton_append] at hq
      exact absurd (append_sep_inj hw h.colon hq).1.symm hid
    · obtain ⟨c, w, rfl⟩ := List.exists_cons_of_ne_nil hne
      exact absurd (List.cons_prefix_cons.mp hq).1.symm (List.ne_of_not_mem_cons hw)
    · exact absurd hq hx
    · exact hin
  · intro hin
    refine hin.trans (List.IsSuffix.isInfix ?_)
    exact ⟨"uuid".toList ++ ':' :: (id ++ [':', ':']), by simp⟩

theorem IsId.strstr_urn_usn (h : IsId id) :
    strstr ("uuid".toList ++ ':' :: (id ++ ':' :: ':' :: x)) "urn".toList =
      strstr x "urn".toList := by
  rw [strstr_append_sep (by decide) (by decide), strstr_append_sep (by decide) h.urn]
  exact @strstr_append_sep [] _ _ _ (by decide) (by decide)

theorem IsId.strstr_colons (h : IsId id) :
    strstr ("uuid".toList ++ ':' :: (id ++ ':' :: ':' :: x)) "::".toList =
      some (':' :: ':' :: x) := by
  have hfirst : ¬ "::".toList <+: ':' :: (id ++ ':' :: ':' :: x) := by
    intro hin
    obtain ⟨c, id, rfl⟩ := List.exists_cons_of_ne_nil h.ne_nil
    exact List.ne_of_not_mem_cons h.colon
      (List.cons_prefix_cons.mp (List.cons_prefix_cons.mp hin).2).1
  have hskip : strstr ("uuid".toList ++ ':' :: (id ++ ':' :: ':' :: x)) "::".toList =
      strstr (':' :: (id ++ ':' :: ':' :: x)) "::".toList :=
    @strstr_append_of_notMem "uuid".toList _ [':'] ':' (by decide)
  have hid : strstr (id ++ ':' :: ':' :: x) "::".toList = strstr (':' :: ':' :: x) "::".toList :=
    @strstr_append_of_notMem _ _ [':'] _ h.colon
  rw [hskip, strstr_cons hfirst, hid]
  exact strstr_of_prefix ⟨x, rfl⟩

/-! ## The parts of a name -/

theorem gives_uuidName_usn (h : IsId id)
    (hlength : ("uuid".toList ++ ':' :: id).length < LINE_SIZE) :
    (uuidName ("uuid".toList ++ ':' :: (id ++ ':' :: ':' :: x)) evt).Gives
      ({ evt with UDN := "uuid".toList ++ ':' :: id }, true) := by
  have hsplit : "uuid".toList ++ ':' :: (id ++ ':' :: ':' :: x) =
      ("uuid".toList ++ ':' :: id) ++ ':' :: ':' :: x := by
    rw [List.append_assoc, List.cons_append]
  rw [uuidName, strstr_of_prefix (List.prefix_append _ _)]
  simp only [h.strstr_colons]
  rw [hsplit, List.length_append, Nat.add_sub_cancel_right, List.take_left]
  refine Gives.bind ⟨safe_write.mpr ?_, rfl⟩ (gives_pure _)
  omega

theorem gives_uuidName_udn (h : IsId id)
    (hlength : ("uuid".toList ++ ':' :: id).length < LINE_SIZE) :
    (uuidName ("uuid".toList ++ ':' :: id) evt).Gives
      ({ evt with UDN := "uuid".toList ++ ':' :: id }, true) := by
  have hcolons : strstr ("uuid".toList ++ ':' :: id) "::".toList = none := by
    refine strstr_eq_none (by decide) fun hin ↦ ?_
    obtain ⟨-, hq⟩ := @IsId.isInfix_udn _ [] [':'] h List.not_mem_nil hin
    exact h.colon (hq.subset List.mem_cons_self)
  rw [uuidName, strstr_of_prefix (List.prefix_append _ _)]
  simp only [hcolons]
  exact (gives_copy hlength).bind (gives_pure _)

theorem gives_uuidName_none (h : ¬ "uuid".toList <:+: v) :
    (uuidName v evt).Gives (evt, false) := by
  rw [uuidName, strstr_eq_none (by decide) h]
  exact gives_pure _

theorem gives_typeName_none (h : ¬ (Contains v "urn:".toList ∧ Contains v kind)) :
    (typeName kind f v evt).Gives (evt, false) := by
  rw [typeName, if_neg h]
  exact gives_pure _

theorem IsType.gives_typeName (h : IsType kind other t) (hne : kind ≠ [])
    (hlength : t.length < LINE_SIZE) : (typeName kind f t evt).Gives (f t evt, true) := by
  have hurn : strstr t "urn".toList = some t :=
    strstr_of_prefix (List.IsPrefix.trans (by decide) h.urn)
  rw [typeName, if_pos ⟨contains_of_isInfix (by decide) h.urn.isInfix,
    contains_of_isInfix hne h.kind⟩]
  simp only [hurn]
  exact (gives_copy hlength).bind (gives_pure _)

theorem IsType.gives_typeName_other (h : IsType kind other t) (hne : other ≠ []) :
    (typeName other f t evt).Gives (evt, false) :=
  gives_typeName_none fun hin ↦ not_contains hne h.other hin.2

/-- The type in a name is that of the target. -/
theorem IsId.typeName_usn {w : CString} (h : IsId id) (hw : ':' ∉ w) (hne : w ≠ []) (hid : id ≠ w)
    (hx : ¬ w ++ [':'] <+: x) :
    typeName (':' :: (w ++ [':'])) f ("uuid".toList ++ ':' :: (id ++ ':' :: ':' :: x)) evt =
      typeName (':' :: (w ++ [':'])) f x evt := by
  unfold typeName
  rw [h.strstr_urn_usn]
  have hfound := h.kind_usn hw hne hid hx
  exact ite_congr (propext (and_congr h.urn_usn hfound)) (fun _ ↦ rfl) fun _ ↦ rfl

/-- What `Unique_Service_Name` makes of the types in a name. -/
def Typed (v : CString) (evt e : Event) : Prop :=
  ∃ e₁ b₁ b₂,
    (typeName ":service:".toList (fun s evt ↦ { evt with ServiceType := s }) v evt).Gives (e₁, b₁) ∧
    (typeName ":device:".toList (fun s evt ↦ { evt with DeviceType := s }) v e₁).Gives (e, b₂)

theorem gives_Unique_Service_Name {uuid : Bool} {e₀ : Event}
    (hschemas : ¬ "uuid:schemas".toList <:+: v) (huuid : (uuidName v evt).Gives (e₀, uuid))
    (htyped : Typed v e₀ e) :
    ∃ ret, (Unique_Service_Name v evt).Gives (ret, e) ∧ (uuid = true → ret = 1) := by
  obtain ⟨e₁, service, device, hservice, hdevice⟩ := htyped
  have hname : (Unique_Service_Name v evt).Gives
      (if uuid || service || device then 1 else -1, e) := by
    rw [Unique_Service_Name, if_neg (not_contains (by decide) hschemas)]
    refine huuid.bind (hservice.bind (hdevice.bind ?_))
    dsimp only
    split <;> exact gives_pure _
  refine ⟨_, hname, ?_⟩
  rintro rfl
  rfl

/-! ## Names of targets -/

namespace Target

/-- The types that the parser takes from the name of a target, one behind the other. -/
theorem typed (h : target.WellNamed) (hlength : target.name.length < LINE_SIZE)
    (hudn : ∀ u, target ≠ .udn u) (evt : Event) : Typed target.name evt (target.set evt) := by
  cases target with
  | all =>
    exact ⟨_, _, _, gives_typeName_none (by decide), gives_typeName_none (by decide)⟩
  | rootdevice =>
    exact ⟨_, _, _, gives_typeName_none (by decide), gives_typeName_none (by decide)⟩
  | udn u => exact absurd rfl (hudn u)
  | device t =>
    exact ⟨_, _, _, h.gives_typeName_other (by decide), h.gives_typeName (by decide) hlength⟩
  | service t =>
    exact ⟨_, _, _, h.gives_typeName (by decide) hlength, h.gives_typeName_other (by decide)⟩

/-- The name of a target that can stand behind a device begins as no kind of type does. -/
theorem not_kind (h : target.WellNamed) (hbehind : target.Behind) {w : CString}
    (hw : w.head? ≠ some 'u') (hne : w ≠ []) : ¬ w ++ [':'] <+: target.name := by
  have hfirst : ∀ {r : CString}, "u".toList <+: r → ¬ w ++ [':'] <+: r := by
    rintro r ⟨r, rfl⟩ hprefix
    obtain ⟨c, w, rfl⟩ := List.exists_cons_of_ne_nil hne
    exact hw (congrArg some (List.cons_prefix_cons.mp hprefix).1)
  cases target with
  | all => exact hbehind.elim
  | rootdevice => exact hfirst (by decide)
  | udn u => exact hbehind.elim
  | device t => exact hfirst (List.IsPrefix.trans (by decide) h.urn)
  | service t => exact hfirst (List.IsPrefix.trans (by decide) h.urn)

theorem not_uuid (h : target.WellNamed) (hudn : ∀ u, target ≠ .udn u) :
    ¬ "uuid".toList <:+: target.name := by
  cases target with
  | all => decide
  | rootdevice => decide
  | udn u => exact absurd rfl (hudn u)
  | device t => exact h.uuid
  | service t => exact h.uuid

end Target

theorem gives_udn (h : IsUdn u) (hlength : u.length < LINE_SIZE) :
    (Unique_Service_Name u evt).Gives (1, { evt with UDN := u }) := by
  obtain ⟨id, rfl, hid⟩ := h
  obtain ⟨ret, hname, hret⟩ := gives_Unique_Service_Name hid.not_schemas_udn
    (gives_uuidName_udn hid hlength) ⟨_, _, _,
      gives_typeName_none fun hin ↦ not_contains (by decide) hid.not_urn_udn hin.1,
      gives_typeName_none fun hin ↦ not_contains (by decide) hid.not_urn_udn hin.1⟩
  rwa [hret rfl] at hname

/-- The name of a target is taken for what it is. -/
theorem Target.gives_name (h : target.WellNamed) (hlength : target.name.length < LINE_SIZE) :
    ∃ ret, (Unique_Service_Name target.name evt).Gives (ret, target.set evt) := by
  by_cases hudn : ∃ u, target = .udn u
  · obtain ⟨u, rfl⟩ := hudn
    exact ⟨1, gives_udn h hlength⟩
  · have hne := not_exists.mp hudn
    have huuid := not_uuid h hne
    have hschemas : ¬ "uuid:schemas".toList <:+: target.name := fun hin ↦
      huuid (List.IsInfix.trans (by decide) hin)
    obtain ⟨ret, hname, -⟩ := gives_Unique_Service_Name hschemas (gives_uuidName_none huuid)
      (typed h hlength hne evt)
    exact ⟨ret, hname⟩

/-- The name of a device and the target behind it are both found. -/
theorem Target.gives_usn (hu : IsUdn u) (hulength : u.length < LINE_SIZE) (h : target.WellNamed)
    (hbehind : target.Behind) (hlength : target.name.length < LINE_SIZE) :
    (Unique_Service_Name (u ++ "::".toList ++ target.name) evt).Gives
      (1, target.set { evt with UDN := u }) := by
  obtain ⟨id, rfl, hid⟩ := hu
  have hne : ∀ u, target ≠ .udn u := by
    rintro u rfl
    exact hbehind
  have husn : "uuid".toList ++ ':' :: id ++ "::".toList ++ target.name =
      "uuid".toList ++ ':' :: (id ++ ':' :: ':' :: target.name) := by
    rw [List.append_assoc, List.append_assoc]
    rfl
  rw [husn]
  obtain ⟨e₁, b₁, b₂, hservice, hdevice⟩ :=
    typed h hlength hne { evt with UDN := "uuid".toList ++ ':' :: id }
  have hkind {w : CString} (hw : w.head? ≠ some 'u') (hwne : w ≠ []) :=
    not_kind h hbehind hw hwne
  obtain ⟨ret, hname, hret⟩ := gives_Unique_Service_Name (hid.not_schemas_usn (not_uuid h hne))
    (gives_uuidName_usn hid hulength) ⟨e₁, b₁, b₂,
      (@IsId.typeName_usn _ _ _ _ "service".toList hid (by decide) (by decide) hid.service
        (hkind (by decide) (by decide))) ▸ hservice,
      (@IsId.typeName_usn _ _ _ _ "device".toList hid (by decide) (by decide) hid.device
        (hkind (by decide) (by decide))) ▸ hdevice⟩
  rwa [hret rfl] at hname

/-! ## Requests -/

theorem gives_then {c : Prop} [Decidable c] {α : Type} {x y : Exec α} {a : α} (h : c)
    (hx : x.Gives a) : (if c then x else y).Gives a :=
  gives_ite (fun _ ↦ hx) fun hc ↦ absurd h hc

theorem gives_else {c : Prop} [Decidable c] {α : Type} {x y : Exec α} {a : α} (h : ¬ c)
    (hy : y.Gives a) : (if c then x else y).Gives a :=
  gives_ite (fun hc ↦ absurd hc h) fun _ ↦ hy

/-- A target is taken for what it is, with its kind. -/
theorem Target.gives_Request_Tpye (h : target.WellNamed)
    (hlength : target.name.length < LINE_SIZE) :
    (Request_Tpye target.name evt).Gives (1, { target.set evt with
      ErrCode := NO_ERROR_FOUND, RequestType := target.requestType }) := by
  obtain ⟨ret, hname⟩ := @gives_name evt target h hlength
  rw [Request_Tpye]
  refine hname.bind ?_
  dsimp only
  cases target with
  | all => exact gives_then (by decide) (gives_pure _)
  | rootdevice =>
    exact gives_else (by decide) (gives_then (by decide) (gives_pure _))
  | udn u =>
    obtain ⟨id, rfl, hid⟩ := h
    refine gives_else (not_contains (by decide) fun hin ↦ ?_) (gives_else
      (not_contains (by decide) fun hin ↦ ?_) (gives_then
        (contains_of_isInfix (by decide) ⟨[], id, rfl⟩) (gives_pure _)))
    · have hsuffix := (@IsId.isInfix_udn _ "ssdp".toList "all".toList hid (by decide) hin).1
      exact absurd hsuffix (by decide)
    · exact hid.rootdevice
        (@IsId.isInfix_udn _ [] "rootdevice".toList hid List.not_mem_nil hin).2
  | device t =>
    have huuid : ¬ "uuid:".toList <:+: t := fun hin ↦ h.uuid (List.IsInfix.trans (by decide) hin)
    exact gives_else (not_contains (by decide) h.all) (gives_else
      (not_contains (by decide) h.rootdevice) (gives_else (not_contains (by decide) huuid)
        (gives_then ⟨contains_of_isInfix (by decide) h.urn.isInfix,
          contains_of_isInfix (by decide) h.kind⟩ (gives_pure _))))
  | service t =>
    have huuid : ¬ "uuid:".toList <:+: t := fun hin ↦ h.uuid (List.IsInfix.trans (by decide) hin)
    have hother := not_contains (by decide) h.other
    exact gives_else (not_contains (by decide) h.all) (gives_else
      (not_contains (by decide) h.rootdevice) (gives_else (not_contains (by decide) huuid)
        (gives_else (fun hin ↦ hother hin.2)
          (gives_then ⟨contains_of_isInfix (by decide) h.urn.isInfix,
            contains_of_isInfix (by decide) h.kind⟩ (gives_pure _)))))

/-- No pattern of the parser begins with a blank. -/
theorem strstr_blank (hne : p ≠ []) (hp : p.head? ≠ some ' ') :
    strstr (' ' :: v) p = strstr v p := by
  obtain ⟨c, p, rfl⟩ := List.exists_cons_of_ne_nil hne
  exact strstr_cons fun h ↦ hp (congrArg some (List.cons_prefix_cons.mp h).1)

theorem Unique_Service_Name_blank :
    Unique_Service_Name (' ' :: v) evt = Unique_Service_Name v evt := by
  unfold Unique_Service_Name schemasName uuidName typeName Contains
  simp (disch := decide) only [strstr_blank]

theorem Request_Tpye_blank : Request_Tpye (' ' :: v) evt = Request_Tpye v evt := by
  unfold Request_Tpye Contains
  simp (disch := decide) only [strstr_blank, Unique_Service_Name_blank]

/-! ## The lines of the packets -/

/-- `uname` gives names of 64 characters at most, and `gmtime` a date of four digits. -/
structure Sender.Valid (s : Sender) : Prop where
  sysname : s.sys_info.sysname.length ≤ 64 ∧ IsPlain s.sys_info.sysname
  release : s.sys_info.release.length ≤ 64 ∧ IsPlain s.sys_info.release
  time : s.current_tm.Valid

/-- A URL that is kept as it is: it is long enough for the parser and fits the event, behind a
blank. -/
structure IsLocation (Location : CString) : Prop where
  long : 7 ≤ Location.length
  short : Location.length ≤ 178
  plain : IsPlain Location
  dark : Location.head? ≠ some ' '

/-- What is printed as the server. -/
def server (sys_info : utsname) : CString :=
  sys_info.sysname ++ '/' :: (sys_info.release ++ " UPnP/1.0 Intel UPnP SDK/1.0".toList)

def replyLines (s : Sender) (NtSt Usn Location : CString) (Duration : Int) : List CString :=
  ["HTTP/1.1 200 OK".toList, field .CACHE_CONTROL (" max-age=".toList ++ decimal Duration),
    field .DATE (' ' :: DateToString s.current_tm), field .EXT [],
    field .LOCATION (' ' :: Location), field .SERVER (' ' :: server s.sys_info),
    field .ST (' ' :: NtSt), field .USN (' ' :: Usn)]

def notifyLines (NtSt Usn Location : CString) (Duration : Int) (more : List CString) :
    List CString :=
  "NOTIFY * HTTP/1.1".toList :: field .HOST (' ' :: (SSDP_IP ++ ':' :: decimal SSDP_PORT)) ::
    field .CACHE_CONTROL (" max-age=".toList ++ decimal Duration) ::
    field .LOCATION (' ' :: Location) :: field .NT (' ' :: NtSt) ::
    (more ++ [field .USN (' ' :: Usn)])

def aliveLines (s : Sender) (NtSt Usn Location : CString) (Duration : Int) : List CString :=
  notifyLines NtSt Usn Location Duration
    [field .NTS (" ssdp".toList ++ ':' :: "alive".toList), field .SERVER (' ' :: server s.sys_info)]

def byebyeLines (NtSt Usn Location : CString) (Duration : Int) : List CString :=
  notifyLines NtSt Usn Location Duration [field .NTS (" ssdp".toList ++ ':' :: "byebye".toList)]

variable {s : Sender} {NtSt Usn Location : CString} {Duration : Int}

theorem serverText_eq (sys_info : utsname) :
    serverText sys_info = field .SERVER (' ' :: server sys_info) ++ crlf := by
  unfold serverText server
  rw [field, List.append_assoc, List.cons_append, List.cons_append, List.append_assoc,
    List.cons_append, List.append_assoc]
  rfl

/-- A year of four digits is printed as it is. -/
theorem padFour_eq {n : Int} (hlow : 1000 ≤ n) (hhigh : n ≤ 9999) :
    padFour n = decimal n ∧ (decimal n).length = 4 := by
  obtain ⟨n, rfl⟩ := Int.eq_ofNat_of_zero_le (by omega : 0 ≤ n)
  have hle : (Nat.toDigits 10 n).length ≤ 4 :=
    (Nat.length_toDigits_le_iff (by decide) (by decide)).mpr (by omega)
  have hge : ¬ (Nat.toDigits 10 n).length ≤ 3 := by
    rw [Nat.length_toDigits_le_iff (by decide) (by decide)]
    omega
  have hlength : (decimal n).length = 4 := le_antisymm hle (Nat.lt_of_not_le hge)
  refine ⟨?_, hlength⟩
  rw [padFour, hlength]
  rfl

theorem dayName_eq {n : Int} (h : 0 ≤ n ∧ n ≤ 6) :
    dayName n = some (Util.GetDayOfWeekStr n) ∧ (Util.GetDayOfWeekStr n).length = 3 ∧
      IsPlain (Util.GetDayOfWeekStr n) := by
  obtain ⟨hlow, hhigh⟩ := h
  interval_cases n <;> exact ⟨rfl, rfl, forall_mem_of_all (by decide)⟩

theorem monthName_eq {n : Int} (h : 0 ≤ n ∧ n ≤ 11) :
    monthName n = some (Util.GetMonthStr n) ∧ (Util.GetMonthStr n).length = 3 ∧
      IsPlain (Util.GetMonthStr n) := by
  obtain ⟨hlow, hhigh⟩ := h
  interval_cases n <;> exact ⟨rfl, rfl, forall_mem_of_all (by decide)⟩

theorem padTwo_plain {n : Int} (hlow : 0 ≤ n) (hhigh : n < 100) :
    (padTwo n).length = 2 ∧ IsPlain (padTwo n) := by
  obtain ⟨d₁, d₂, heq⟩ := Util.exists_padTwo ⟨hlow, hhigh⟩
  refine ⟨congrArg List.length heq, isPlain_of_digits ?_⟩
  exact (Util.shows_padTwo ⟨hlow, hhigh⟩).digits

theorem DateToString_plain {date : Tm} (h : date.Valid) :
    (DateToString date).length = 29 ∧ IsPlain (DateToString date) := by
  obtain ⟨⟨hw, hw'⟩, ⟨hd, hd'⟩, ⟨hm, hm'⟩, ⟨hy, hy'⟩, ⟨hh, hh'⟩, ⟨hmin, hmin'⟩, ⟨hs, hs'⟩⟩ := h
  obtain ⟨-, hday, hdayPlain⟩ := dayName_eq ⟨hw, hw'⟩
  obtain ⟨-, hmonth, hmonthPlain⟩ := monthName_eq ⟨hm, hm'⟩
  obtain ⟨hmday, hmdayPlain⟩ := padTwo_plain (by omega : 0 ≤ date.tm_mday) (by omega)
  obtain ⟨hhour, hhourPlain⟩ := padTwo_plain hh (by omega)
  obtain ⟨hminute, hminutePlain⟩ := padTwo_plain hmin (by omega)
  obtain ⟨hsec, hsecPlain⟩ := padTwo_plain hs (by omega)
  have hyear := (padFour_eq (by omega : 1000 ≤ date.tm_year + 1900) hy').2
  have hyearPlain := isPlain_of_digits
    (Util.shows_decimal (by omega : 0 ≤ date.tm_year + 1900)).digits
  unfold DateToString Util.timeText
  constructor
  · simp [hday, hmonth, hmday, hhour, hminute, hsec, hyear]
  · have hchar {c : Char} (hr : c ≠ '\r') (h0 : c ≠ '\x00') {s : CString} (hs : IsPlain s) :
        IsPlain (c :: s) := hs.cons ⟨hr, h0⟩
    have hcomma : IsPlain ", ".toList := forall_mem_of_all (by decide)
    have hgmt : IsPlain " GMT".toList := forall_mem_of_all (by decide)
    exact ((hdayPlain.append hcomma).append hmdayPlain).append (hchar (by decide) (by decide)
      (hmonthPlain.append (hchar (by decide) (by decide) (hyearPlain.append
        (hchar (by decide) (by decide) ((hhourPlain.append (hchar (by decide) (by decide)
          (hminutePlain.append (hchar (by decide) (by decide) hsecPlain)))).append hgmt))))))

/-- The date is that of `DateToString`. -/
theorem gives_currentTmToHttpDate {current_tm : Tm} (h : current_tm.Valid) :
    (currentTmToHttpDate current_tm).Gives
      (field .DATE (' ' :: DateToString current_tm) ++ crlf) := by
  have hout : "DATE: ".toList ++ (Util.GetDayOfWeekStr current_tm.tm_wday ++ (", ".toList ++
      (padTwo current_tm.tm_mday ++ ' ' :: (Util.GetMonthStr current_tm.tm_mon ++ ' ' ::
        (padFour (current_tm.tm_year + 1900) ++ ' ' :: (padTwo current_tm.tm_hour ++ ':' ::
          (padTwo current_tm.tm_min ++ ':' ::
            (padTwo current_tm.tm_sec ++ " GMT\r\n".toList)))))))) =
      field .DATE (' ' :: DateToString current_tm) ++ crlf := by
    have hyear := h.year
    rw [(padFour_eq (by omega) hyear.2).1]
    unfold DateToString Util.timeText
    simp only [field, List.append_assoc, List.cons_append]
    rfl
  have hlength : (field .DATE (' ' :: DateToString current_tm) ++ crlf).length = 37 := by
    rw [field, List.length_append, List.length_append, List.length_cons, List.length_cons,
      (DateToString_plain h).1]
    rfl
  rw [currentTmToHttpDate, (dayName_eq h.wday).1, (monthName_eq h.mon).1]
  refine (gives_follow _).bind ((gives_follow _).bind ?_)
  rw [hout]
  refine (gives_copy ?_).bind (gives_pure _)
  rw [hlength]
  decide

theorem gives_replyPacket (hp : Printable (replyLines s NtSt Usn Location Duration))
    (htime : s.current_tm.Valid) :
    (CreateServiceRequestPacket s 2 NtSt Usn Location Duration).Gives
      (joined (replyLines s NtSt Usn Location Duration) ++ "\r\n\r\n".toList) := by
  rw [CreateServiceRequestPacket]
  refine (gives_currentTmToHttpDate htime).bind (Gives.bind ?_
    ((hp.catTemp 7 rfl rfl).bind (hp.catEnd (by decide))))
  rw [packetHead, if_pos rfl, replyHead]
  refine (hp.catRqst 0 rfl rfl).bind ?_
  refine (hp.catTemp 1 rfl rfl).bind ?_
  refine (hp.catRqst 2 rfl rfl).bind ?_
  refine (hp.catRqst 3 rfl rfl).bind ?_
  refine (hp.catTemp 4 rfl rfl).bind ?_
  refine (hp.catTemp 5 rfl (serverText_eq _)).bind ?_
  exact hp.catTemp 6 rfl rfl

/-- The lines that both notifications begin with are printed. -/
theorem gives_notifyHead {more : List CString}
    (hp : Printable (notifyLines NtSt Usn Location Duration more)) :
    (notifyHead NtSt Location Duration).Gives
      (joined ((notifyLines NtSt Usn Location Duration more).take 5)) := by
  rw [notifyHead]
  refine (hp.catRqst 0 rfl rfl).bind ?_
  refine (hp.catTemp 1 rfl rfl).bind ?_
  refine (hp.catTemp 2 rfl rfl).bind ?_
  refine (hp.catTemp 3 rfl rfl).bind ?_
  exact hp.catTemp 4 rfl rfl

theorem gives_alivePacket (hp : Printable (aliveLines s NtSt Usn Location Duration))
    (htime : s.current_tm.Valid) :
    (CreateServiceRequestPacket s 1 NtSt Usn Location Duration).Gives
      (joined (aliveLines s NtSt Usn Location Duration) ++ "\r\n\r\n".toList) := by
  rw [CreateServiceRequestPacket]
  refine (gives_currentTmToHttpDate htime).bind (Gives.bind ?_
    ((hp.catTemp 7 rfl rfl).bind (hp.catEnd (by decide))))
  rw [packetHead, if_neg (by decide), if_pos rfl]
  exact (gives_notifyHead hp).bind ((hp.catRqst 5 rfl rfl).bind
    (hp.catTemp 6 rfl (serverText_eq _)))

theorem gives_byebyePacket (hp : Printable (byebyeLines NtSt Usn Location Duration))
    (htime : s.current_tm.Valid) :
    (CreateServiceRequestPacket s 0 NtSt Usn Location Duration).Gives
      (joined (byebyeLines NtSt Usn Location Duration) ++ "\r\n\r\n".toList) := by
  rw [CreateServiceRequestPacket]
  refine (gives_currentTmToHttpDate htime).bind (Gives.bind ?_
    ((hp.catTemp 6 rfl rfl).bind (hp.catEnd (by decide))))
  rw [packetHead, if_neg (by decide), if_neg (by decide)]
  exact (gives_notifyHead hp).bind (hp.catRqst 5 rfl rfl)

/-! ## Announcements -/

/-- The device of an announcement. -/
def udnOf : Announcement → CString
  | .rootdevice UDN => Advertise.textOf UDN
  | .udn UDN => Advertise.textOf UDN
  | .device UDN _ => Advertise.textOf UDN
  | .service UDN _ _ => Advertise.textOf UDN

/-- What an announcement names. -/
def targetOf : Announcement → Target
  | .rootdevice _ => .rootdevice
  | .udn UDN => .udn (Advertise.textOf UDN)
  | .device _ deviceType => .device (Advertise.textOf deviceType)
  | .service _ _ serviceType => .service (Advertise.textOf serviceType)

/-- The names in an announcement are such that the parser finds them. -/
structure WellNamed (a : Announcement) : Prop where
  udn : IsUdn (udnOf a)
  target : (targetOf a).WellNamed
  plain : IsPlain (udnOf a) ∧ IsPlain (targetOf a).name

variable {a : Announcement}

theorem Nt_eq (a : Announcement) : a.Nt = (targetOf a).name := by
  cases a <;> rfl

/-- The name of a packet is its device, or has its device in front of what it names. -/
theorem Usn_cases (a : Announcement) :
    (∃ u, targetOf a = .udn u ∧ u = udnOf a ∧ a.Usn = u) ∨
      (targetOf a).Behind ∧ a.Usn = udnOf a ++ "::".toList ++ (targetOf a).name := by
  cases a with
  | rootdevice UDN =>
    refine .inr ⟨trivial, ?_⟩
    rw [List.append_assoc]
    rfl
  | udn UDN => exact .inl ⟨_, rfl, rfl, rfl⟩
  | device UDN deviceType => exact .inr ⟨trivial, rfl⟩
  | service UDN current_service serviceType => exact .inr ⟨trivial, rfl⟩

theorem WellNamed.gives_Usn (h : WellNamed a) (hfits : a.Fits) :
    (Unique_Service_Name a.Usn evt).Gives
      (1, (targetOf a).set { evt with UDN := udnOf a }) := by
  obtain ⟨hNt, hUsn⟩ := hfits
  rcases Usn_cases a with ⟨u, htarget, hu, heq⟩ | ⟨hbehind, heq⟩
  · rw [heq] at hUsn ⊢
    have hname := @gives_udn evt u (hu ▸ h.udn) hUsn
    rw [htarget, ← hu]
    exact hname
  · rw [heq] at hUsn ⊢
    rw [List.length_append, List.length_append] at hUsn
    have hudn : (udnOf a).length < LINE_SIZE := by
      unfold Advertise.LINE_SIZE at hUsn
      unfold LINE_SIZE
      omega
    exact Target.gives_usn h.udn hudn h.target hbehind (Nt_eq a ▸ hNt)

theorem WellNamed.gives_Nt (h : WellNamed a) (hfits : a.Fits) :
    (Request_Tpye a.Nt evt).Gives (1, { (targetOf a).set evt with
      ErrCode := NO_ERROR_FOUND, RequestType := (targetOf a).requestType }) := by
  rw [Nt_eq]
  exact Target.gives_Request_Tpye h.target (Nt_eq a ▸ hfits.1)

theorem WellNamed.plain_Nt (h : WellNamed a) : IsPlain a.Nt := Nt_eq a ▸ h.plain.2

theorem WellNamed.plain_Usn (h : WellNamed a) : IsPlain a.Usn := by
  rcases Usn_cases a with ⟨u, -, hu, heq⟩ | ⟨-, heq⟩
  · rw [heq, hu]
    exact h.plain.1
  · rw [heq]
    exact (h.plain.1.append (forall_mem_of_all (by decide))).append h.plain.2

/-! ## Packets that are understood -/

/-- A line that can be printed. -/
def IsLine (l : CString) : Prop := l.length ≤ 200 ∧ IsPlain l

theorem isLine_field (hlength : v.length ≤ 186) (hplain : IsPlain v) : IsLine (field h v) := by
  have hname : h.name.length ≤ 13 ∧ IsPlain h.name := by
    cases h <;> exact ⟨by decide, forall_mem_of_all (by decide)⟩
  refine ⟨?_, hname.2.append (hplain.cons (by decide))⟩
  have hle := hname.1
  rw [field, List.length_append, List.length_cons]
  omega

theorem isLine_blank (hlength : v.length ≤ 185) (hplain : IsPlain v) :
    IsLine (field h (' ' :: v)) :=
  isLine_field (Nat.succ_le_succ hlength) (hplain.cons (by decide))

theorem printable_of (hcount : lines.length ≤ 9) (h : ∀ l ∈ lines, IsLine l) : Printable lines :=
  ⟨hcount, fun l hl ↦ (h l hl).1, fun l hl ↦ (h l hl).2⟩

/-- What is announced is such that it is understood. -/
structure Announces (s : Sender) (Location : CString) (Duration : Int) (a : Announcement) :
    Prop where
  sender : s.Valid
  location : IsLocation Location
  duration : IsDuration Duration
  names : WellNamed a
  fits : a.Fits

theorem decimal_plain {n : Int} (h : IsDuration n) :
    (decimal n).length ≤ 10 ∧ IsPlain (decimal n) := by
  refine ⟨?_, isPlain_of_digits (Util.shows_decimal h.1).digits⟩
  obtain ⟨n, rfl⟩ := Int.eq_ofNat_of_zero_le h.1
  have hmax := h.2
  exact (Nat.length_toDigits_le_iff (by decide) (by decide)).mpr (by omega)

theorem isLine_maxAge (h : IsDuration Duration) :
    IsLine (field .CACHE_CONTROL (" max-age=".toList ++ decimal Duration)) := by
  obtain ⟨hle, hplain⟩ := decimal_plain h
  refine isLine_field ?_ (IsPlain.append (forall_mem_of_all (by decide)) hplain)
  rw [List.length_append]
  exact (Nat.add_le_add_left hle _).trans (by decide)

theorem Sender.Valid.isLine_server (h : s.Valid) :
    IsLine (field .SERVER (' ' :: server s.sys_info)) := by
  obtain ⟨hsysname, hsysnamePlain⟩ := h.sysname
  obtain ⟨hrelease, hreleasePlain⟩ := h.release
  refine isLine_blank ?_ (hsysnamePlain.append ((hreleasePlain.append
    (forall_mem_of_all (by decide))).cons (by decide)))
  rw [server, List.length_append, List.length_cons, List.length_append]
  have hliteral : " UPnP/1.0 Intel UPnP SDK/1.0".toList.length = 28 := rfl
  omega

namespace Announces

variable {Notf : Nat}

theorem isLine_location (h : Announces s Location Duration a) :
    IsLine (field .LOCATION (' ' :: Location)) :=
  isLine_blank (h.location.short.trans (by decide)) h.location.plain

theorem isLine_Nt (h : Announces s Location Duration a) {hd : Header} :
    IsLine (field hd (' ' :: a.Nt)) :=
  isLine_blank ((Nat.le_of_lt h.fits.1).trans (by decide)) h.names.plain_Nt

theorem isLine_Usn (h : Announces s Location Duration a) :
    IsLine (field .USN (' ' :: a.Usn)) :=
  isLine_blank ((Nat.le_of_lt h.fits.2).trans (by decide)) h.names.plain_Usn

theorem printable_reply (h : Announces s Location Duration a) :
    Printable (replyLines s a.Nt a.Usn Location Duration) := by
  obtain ⟨hdate, hdatePlain⟩ := DateToString_plain h.sender.time
  refine printable_of (by simp [replyLines]) ?_
  simp only [replyLines, List.forall_mem_cons]
  exact ⟨⟨by decide, forall_mem_of_all (by decide)⟩, isLine_maxAge h.duration,
    isLine_blank (hdate.le.trans (by decide)) hdatePlain, isLine_field (by decide) nofun,
    h.isLine_location, h.sender.isLine_server, h.isLine_Nt, h.isLine_Usn, nofun⟩

theorem isLine_NTS {token : CString} (htoken : token = "alive".toList ∨ token = "byebye".toList) :
    IsLine (field .NTS (" ssdp".toList ++ ':' :: token)) := by
  rcases htoken with rfl | rfl <;> exact isLine_field (by decide) (forall_mem_of_all (by decide))

theorem printable_notify (h : Announces s Location Duration a) {more : List CString}
    (hcount : more.length ≤ 2) (hmore : ∀ l ∈ more, IsLine l) :
    Printable (notifyLines a.Nt a.Usn Location Duration more) := by
  refine printable_of ?_ ?_
  · simp only [notifyLines, List.length_cons, List.length_append, List.length_nil]
    omega
  · simp only [notifyLines, List.forall_mem_cons]
    refine ⟨⟨by decide, forall_mem_of_all (by decide)⟩,
      isLine_blank (by decide) (forall_mem_of_all (by decide)),
      isLine_maxAge h.duration, h.isLine_location, h.isLine_Nt, ?_⟩
    exact List.forall_mem_append.mpr ⟨hmore, List.forall_mem_singleton.mpr h.isLine_Usn⟩

end Announces

/-- What a client is told of an announcement. -/
def discovery (s : Sender) (Notf : Nat) (Location : CString) (Duration : Int)
    (a : Announcement) : Upnp_Discovery where
  ErrCode := NO_ERROR_FOUND
  Expires := Duration
  DeviceId := udnOf a
  DeviceType := match targetOf a with
    | .device t => t
    | _ => []
  ServiceType := match targetOf a with
    | .service t => t
    | _ => []
  Location := Location
  Os := if Notf = 0 then [] else ' ' :: server s.sys_info
  Date := if Notf = 2 then ' ' :: DateToString s.current_tm else []
  Ext := []

/-- How a client is told of a packet. -/
def eventType (Notf : Nat) : Upnp_EventType :=
  if Notf = 2 then .UPNP_DISCOVERY_SEARCH_RESULT
  else if Notf = 1 then .UPNP_DISCOVERY_ADVERTISEMENT_ALIVE
  else .UPNP_DISCOVERY_ADVERTISEMENT_BYEBYE

/-- A packet is printed, and the client is told what it names, whatever the event held before. -/
structure Told (s : Sender) (Notf : Nat) (Location : CString) (Duration : Int)
    (a : Announcement) (text : CString) (e : Event) : Prop where
  printed : (CreateServiceRequestPacket s Notf a.Nt a.Usn Location Duration).Gives text
  pos : 0 < text.length
  length : text.length < BUFSIZE
  nul : '\x00' ∉ text
  analysed : ∀ evt, (AnalyzeCommand text evt).Gives (1, e)
  told : SsdpCallbackEventHandler e =
    some (eventType Notf, some (discovery s Notf Location Duration a))
  search : e.Cmd ≠ .SEARCH

theorem IsLocation.dropWhile (h : IsLocation Location) :
    (' ' :: Location).dropWhile (· = ' ') = Location := by
  cases Location with
  | nil => rfl
  | cons c rest =>
    have hc : c ≠ ' ' := fun hc ↦ h.dark (congrArg some hc)
    simp [hc]

/-- The text of printed lines. -/
theorem Printable.received {first tail : CString} (hp : Printable (first :: lines))
    (htail : tail.length ≤ 4) (hnul : '\x00' ∉ tail) :
    0 < (joined (first :: lines) ++ tail).length ∧
      (joined (first :: lines) ++ tail).length < BUFSIZE ∧
      '\x00' ∉ joined (first :: lines) ++ tail := by
  have hlength := length_joined hp.short
  have hcount := hp.count
  refine ⟨?_, ?_, ?_⟩
  · rw [joined_cons]
    simp
  · rw [List.length_append]
    unfold BUFSIZE
    omega
  · intro hmem
    rcases List.mem_append.mp hmem with hmem | hmem
    · obtain ⟨l, hl, hmem⟩ := List.mem_flatMap.mp hmem
      rcases List.mem_append.mp hmem with hmem | hmem
      · exact (hp.plain l hl _ hmem).2 rfl
      · exact absurd hmem (by decide)
    · exact hnul hmem

theorem crlfLines_end : crlfLines "\r\n\r\n".toList = [[], [], []] := by decide

theorem crlfLines_crlf : crlfLines "\r\n".toList = [[], []] := by decide

theorem Sender.Valid.server_length (h : s.Valid) :
    (' ' :: server s.sys_info).length < LINE_SIZE := by
  have hsysname := h.sysname.1
  have hrelease := h.release.1
  have hliteral : " UPnP/1.0 Intel UPnP SDK/1.0".toList.length = 28 := rfl
  rw [server, List.length_cons, List.length_append, List.length_cons, List.length_append]
  unfold LINE_SIZE
  omega

theorem gives_okLine : (CheckHdr "HTTP/1.1 200 OK".toList InitEvent).Gives
    (1, { InitEvent with Cmd := .OK }) :=
  ⟨safe_CheckHdr.mpr (by decide), by decide⟩

theorem gives_searchLine : (CheckHdr "M-SEARCH * HTTP/1.1".toList InitEvent).Gives
    (1, { InitEvent with Cmd := .SEARCH }) :=
  ⟨safe_CheckHdr.mpr (by decide), by decide⟩

theorem gives_notifyLine : (CheckHdr "NOTIFY * HTTP/1.1".toList InitEvent).Gives
    (1, { InitEvent with Cmd := .NOTIFY }) :=
  ⟨safe_CheckHdr.mpr (by decide), by decide⟩

namespace Announces

/-- A packet whose lines are parsed is one that the client is told of. -/
theorem told {first : CString} {Notf : Nat} (hp : Printable (first :: lines))
    (hprinted : (CreateServiceRequestPacket s Notf a.Nt a.Usn Location Duration).Gives
      (joined (first :: lines) ++ "\r\n\r\n".toList))
    (hfirst : (CheckHdr first InitEvent).Gives (1, evt))
    (hleads : Leads (lines ++ [[], [], []]) evt fun e ↦ SsdpCallbackEventHandler e =
      some (eventType Notf, some (discovery s Notf Location Duration a)) ∧ e.Cmd ≠ .SEARCH) :
    ∃ text e, Told s Notf Location Duration a text e := by
  obtain ⟨e, hlines, htold, hsearch⟩ := hleads
  obtain ⟨hpos, hlength, hnul⟩ :=
    hp.received (by decide : "\r\n\r\n".toList.length ≤ 4) (by decide)
  refine ⟨_, e, hprinted, hpos, hlength, hnul, gives_AnalyzeCommand hp ?_ hfirst ?_, htold, hsearch⟩
  · rw [crlfLines_end]
    decide
  · rw [crlfLines_end]
    exact hlines

theorem reply (h : Announces s Location Duration a) :
    ∃ text e, Told s 2 Location Duration a text e := by
  have hp := h.printable_reply
  have hdate : (' ' :: DateToString s.current_tm).length < LINE_SIZE := by
    rw [List.length_cons, (DateToString_plain h.sender.time).1]
    decide
  refine told hp (gives_replyPacket hp h.sender.time) gives_okLine ?_
  refine .field (gives_Cache_Control h.duration) ?_
  refine .field (gives_Fun_Date (List.cons_ne_nil _ _) hdate) ?_
  refine .field gives_Fun_Ext_nil ?_
  refine .field (gives_Location_Header h.location.long h.location.short) ?_
  refine .field (gives_Os (List.cons_ne_nil _ _) h.sender.server_length) ?_
  refine .field (Request_Tpye_blank ▸ h.names.gives_Nt h.fits) ?_
  refine .field (Unique_Service_Name_blank ▸ h.names.gives_Usn h.fits) ?_
  refine .blanks (by decide) ?_
  cases a <;> simp [SsdpCallbackEventHandler, param, targetOf, Target.set, h.location.dropWhile,
    discovery, eventType, InitEvent, udnOf, NO_ERROR_FOUND]

/-- The lines of a notification up to its kind are parsed. -/
theorem leads_notify (h : Announces s Location Duration a) {more : List CString}
    {P : Event → Prop}
    (hmore : Leads more { (targetOf a).set { InitEvent with
      Cmd := .NOTIFY, HostAddr := ' ' :: (SSDP_IP ++ ':' :: decimal SSDP_PORT), MaxAge := Duration
      Location := ' ' :: Location } with
      ErrCode := NO_ERROR_FOUND, RequestType := (targetOf a).requestType } P) :
    Leads (field .HOST (' ' :: (SSDP_IP ++ ':' :: decimal SSDP_PORT)) ::
      field .CACHE_CONTROL (" max-age=".toList ++ decimal Duration) ::
      field .LOCATION (' ' :: Location) :: field .NT (' ' :: a.Nt) :: more)
      { InitEvent with Cmd := .NOTIFY } P := by
  refine .field (gives_Host (List.cons_ne_nil _ _) (by decide)) ?_
  refine .field (gives_Cache_Control h.duration) ?_
  refine .field (gives_Location_Header h.location.long h.location.short) ?_
  refine .field (Request_Tpye_blank ▸ h.names.gives_Nt h.fits) ?_
  exact hmore

theorem alive (h : Announces s Location Duration a) :
    ∃ text e, Told s 1 Location Duration a text e := by
  have hp : Printable (aliveLines s a.Nt a.Usn Location Duration) :=
    h.printable_notify le_rfl (List.forall_mem_cons.mpr ⟨isLine_NTS (.inl rfl),
      List.forall_mem_singleton.mpr h.sender.isLine_server⟩)
  refine told hp (gives_alivePacket hp h.sender.time) gives_notifyLine ?_
  refine h.leads_notify ?_
  refine .field (gives_Notification_Sub_Type (.inl ⟨rfl, rfl⟩)) ?_
  refine .field (gives_Os (List.cons_ne_nil _ _) h.sender.server_length) ?_
  refine .field (Unique_Service_Name_blank ▸ h.names.gives_Usn h.fits) ?_
  refine .blanks (by decide) ?_
  cases a <;> simp [SsdpCallbackEventHandler, param, targetOf, Target.set, h.location.dropWhile,
    discovery, eventType, InitEvent, udnOf, NO_ERROR_FOUND]

theorem byebye (h : Announces s Location Duration a) :
    ∃ text e, Told s 0 Location Duration a text e := by
  have hp : Printable (byebyeLines a.Nt a.Usn Location Duration) :=
    h.printable_notify (by decide) (List.forall_mem_singleton.mpr (isLine_NTS (.inr rfl)))
  refine told hp (gives_byebyePacket hp h.sender.time) gives_notifyLine ?_
  refine h.leads_notify ?_
  refine .field (gives_Notification_Sub_Type (.inr ⟨rfl, rfl⟩)) ?_
  refine .field (Unique_Service_Name_blank ▸ h.names.gives_Usn h.fits) ?_
  refine .blanks (by decide) ?_
  cases a <;> simp [SsdpCallbackEventHandler, param, targetOf, Target.set, h.location.dropWhile,
    discovery, eventType, InitEvent, udnOf, NO_ERROR_FOUND]

end Announces

/-! ## What the client is told -/

theorem Told.notified {text : CString} {e : Event} {Notf : Nat}
    (h : Told s Notf Location Duration a text e) (evt : Event) (usec : Int) (gen : Generator) :
    (notified s Location Duration evt usec gen ⟨Notf, a⟩).Gives
      [(eventType Notf, some (discovery s Notf Location Duration a))] := by
  have hacts : (TransferResEvent text evt usec gen).Gives [.CallBackFn e] := by
    refine (h.analysed _).bind ?_
    dsimp only
    rw [if_pos (by decide), if_neg fun hsearch ↦ h.search hsearch.1,
      if_neg fun hsearch ↦ h.search hsearch.1]
    exact gives_pure _
  refine h.printed.bind ((gives_heard h.pos h.length h.nul hacts).bind ?_)
  have htold : List.filterMap SsdpCallbackEventHandler ([Act.CallBackFn e].filterMap Act.callback) =
      [(eventType Notf, some (discovery s Notf Location Duration a))] :=
    List.filterMap_cons_some h.told
  rw [htold]
  exact gives_pure _

theorem Told.replied {text : CString} {e : Event} {Notf : Nat}
    (h : Told s Notf Location Duration a text e) (evt : Event) :
    (replied s Location Duration evt ⟨Notf, a⟩).Gives
      [(eventType Notf, some (discovery s Notf Location Duration a))] := by
  refine h.printed.bind
    ((gives_receive h.pos h.length h.nul h.analysed (show (0 : Int) ≤ 1 by decide)).bind ?_)
  have htold : List.filterMap SsdpCallbackEventHandler
      ([SearchAct.CallBackFn e].filterMap SearchAct.callback) =
      [(eventType Notf, some (discovery s Notf Location Duration a))] :=
    List.filterMap_cons_some h.told
  dsimp only
  rw [htold]
  exact gives_pure _

/-- The names of what is sent fit into their buffers. -/
theorem fits_of_sent {r : Request} {doc : Dom.Found} {sent : List Packet}
    (hsent : AdvertiseAndReply r doc = some sent) : ∀ a ∈ announcements r doc, a.Fits := by
  intro a ha
  obtain ⟨item, hitem, ha⟩ := List.mem_flatMap.mp ha
  obtain ⟨-, hfits⟩ := (Advertise.AdvertiseAndReply_eq_some_iff.mp hsent).1 item hitem
  unfold Advertise.deviceAnnouncements at ha
  cases hhead : Advertise.headOf item.1 with
  | none =>
    rw [hhead] at ha
    cases ha
  | some head =>
    obtain ⟨devType, UDN⟩ := head
    obtain ⟨-, hnames, hservices⟩ := hfits devType UDN hhead
    rw [hhead] at ha
    rcases List.mem_append.mp ha with ha | ha
    · exact hnames a ha
    · obtain ⟨service, hservice, ha⟩ := List.mem_flatMap.mp ha
      unfold Advertise.serviceAnnouncements at ha
      cases hfirst : Advertise.firstText "serviceType".toList service with
      | none =>
        rw [hfirst] at ha
        cases ha
      | some servType =>
        rw [hfirst] at ha
        exact (hservices service hservice servType hfirst).2 a ha

/-- One packet behind the other, each is told of. -/
theorem gives_sent {r : Request} {doc : Dom.Found} {sent : List Packet}
    {f : Packet → Exec (List (Upnp_EventType × Option Upnp_Discovery))}
    (hsent : AdvertiseAndReply r doc = some sent)
    (hf : ∀ a ∈ announcements r doc, (f ⟨r.Notf, a⟩).Gives
      [(eventType r.Notf, some (discovery s r.Notf Location Duration a))]) :
    (inTurn f sent).Gives ((announcements r doc).map fun a ↦
      (eventType r.Notf, some (discovery s r.Notf Location Duration a))) := by
  obtain ⟨-, rfl⟩ := Advertise.AdvertiseAndReply_eq_some_iff.mp hsent
  have hmap : (announcements r doc).map (fun a ↦
      (eventType r.Notf, some (discovery s r.Notf Location Duration a))) =
      ((announcements r doc).map (Packet.mk r.Notf ·)).map fun p ↦
        (eventType p.Notf, some (discovery s p.Notf Location Duration p.names)) := by
    rw [List.map_map]
    rfl
  rw [hmap]
  refine gives_inTurn fun p hp ↦ ?_
  obtain ⟨a, ha, rfl⟩ := List.mem_map.mp hp
  exact hf a ha

/-- **What a device announces, a client is told**: for each packet that is sent of a description,
in their order, that the device is there, or that it leaves, under the names of the packet, with the
URL and the duration of the announcement.  Nothing is written outside of a buffer on the way. -/
theorem announcements_told {r : Request} {doc : Dom.Found} {sent : List Packet} (evt : Event)
    (usec : Int) (gen : Generator) (hflag : r.AdFlag ≠ 0)
    (hsent : AdvertiseAndReply r doc = some sent) (hs : s.Valid)
    (hlocation : IsLocation Location) (hduration : IsDuration Duration)
    (hnames : ∀ a ∈ announcements r doc, WellNamed a) :
    (inTurn (notified s Location Duration evt usec gen) sent).Gives
      ((announcements r doc).map fun a ↦
        (if r.AdFlag = 1 then .UPNP_DISCOVERY_ADVERTISEMENT_ALIVE
          else .UPNP_DISCOVERY_ADVERTISEMENT_BYEBYE,
        some (discovery s r.Notf Location Duration a))) := by
  have hfits := fits_of_sent hsent
  have hnotf : r.Notf = if r.AdFlag = 1 then 1 else 0 := if_neg hflag
  have htype : (if r.AdFlag = 1 then .UPNP_DISCOVERY_ADVERTISEMENT_ALIVE
      else .UPNP_DISCOVERY_ADVERTISEMENT_BYEBYE) = eventType r.Notf := by
    rw [hnotf]
    split <;> rfl
  rw [htype]
  refine gives_sent hsent fun a ha ↦ ?_
  have hannounces : Announces s Location Duration a :=
    ⟨hs, hlocation, hduration, hnames a ha, hfits a ha⟩
  rw [hnotf]
  split
  · obtain ⟨text, e, htold⟩ := hannounces.alive
    exact htold.notified evt usec gen
  · obtain ⟨text, e, htold⟩ := hannounces.byebye
    exact htold.notified evt usec gen

/-! ## A device to be found -/

/-- A lamp with a switch. -/
def lampDescription : Dom.Found :=
  ⟨[], .element "#document".toList,
    .node (.element "root".toList)
      (.node (.element "device".toList)
        (Advertise.element "deviceType" "urn:x:device:Lamp:1" <|
          Advertise.element "UDN" "uuid:lamp" <|
            .node (.element "serviceList".toList)
              (.node (.element "service".toList)
                (Advertise.element "serviceType" "urn:x:service:Switch:1" .null) .null) .null)
        .null) .null⟩

/-- A sender, on the first of September 2001. -/
def lampSender : Sender :=
  ⟨⟨"Linux".toList, "2.4.9".toList⟩, ⟨0, 0, 12, 1, 8, 101, 6⟩⟩

def lampLocation : CString := "http://10.0.0.1:80/lamp.xml".toList

theorem lampSender_valid : lampSender.Valid where
  sysname := ⟨by decide, forall_mem_of_all (by decide)⟩
  release := ⟨by decide, forall_mem_of_all (by decide)⟩
  time := by decide

theorem isLocation_lamp : IsLocation lampLocation where
  long := by decide
  short := by decide
  plain := forall_mem_of_all (by decide)
  dark := by decide

theorem isId_lamp : IsId "lamp".toList := by
  constructor <;> decide

theorem isUdn_lamp : IsUdn "uuid:lamp".toList := ⟨"lamp".toList, rfl, isId_lamp⟩

theorem isType_lamp :
    IsType ":device:".toList ":service:".toList "urn:x:device:Lamp:1".toList := by
  constructor <;> decide

theorem isType_switch :
    IsType ":service:".toList ":device:".toList "urn:x:service:Switch:1".toList := by
  constructor <;> decide

/-- All that the lamp can announce is named well. -/
theorem wellNamed_lamp {r : Request} (h : (announcements r lampDescription).all (fun a ↦
    udnOf a = "uuid:lamp".toList ∧ targetOf a ∈ [.rootdevice, .udn "uuid:lamp".toList,
      .device "urn:x:device:Lamp:1".toList, .service "urn:x:service:Switch:1".toList]) = true) :
    ∀ a ∈ announcements r lampDescription, WellNamed a := by
  intro a ha
  obtain ⟨hudn, htarget⟩ := of_decide_eq_true (List.all_eq_true.mp h a ha)
  have hplain : IsPlain (udnOf a) := hudn ▸ forall_mem_of_all (by decide)
  simp only [List.mem_cons, List.not_mem_nil, or_false] at htarget
  rcases htarget with htarget | htarget | htarget | htarget
  · exact ⟨hudn ▸ isUdn_lamp, htarget ▸ trivial, hplain, htarget ▸ forall_mem_of_all (by decide)⟩
  · exact ⟨hudn ▸ isUdn_lamp, htarget ▸ isUdn_lamp, hplain, htarget ▸ forall_mem_of_all (by decide)⟩
  · exact ⟨hudn ▸ isUdn_lamp, htarget ▸ isType_lamp, hplain,
      htarget ▸ forall_mem_of_all (by decide)⟩
  · exact ⟨hudn ▸ isUdn_lamp, htarget ▸ isType_switch, hplain,
      htarget ▸ forall_mem_of_all (by decide)⟩

/-- The lamp is announced. -/
theorem announcements_told_lamp : ∃ sent,
    AdvertiseAndReply ⟨1, .SERROR, [], [], []⟩ lampDescription = some sent ∧
      (inTurn (notified lampSender lampLocation 1800 InitEvent 0 constantGenerator) sent).Gives
        ((announcements ⟨1, .SERROR, [], [], []⟩ lampDescription).map fun a ↦
          (if (1 : Int) = 1 then .UPNP_DISCOVERY_ADVERTISEMENT_ALIVE
            else .UPNP_DISCOVERY_ADVERTISEMENT_BYEBYE,
          some (discovery lampSender 1 lampLocation 1800 a))) := by
  have hsome : (AdvertiseAndReply ⟨1, .SERROR, [], [], []⟩ lampDescription).isSome = true := by
    decide
  obtain ⟨sent, hsent⟩ := Option.isSome_iff_exists.mp hsome
  exact ⟨sent, hsent, announcements_told InitEvent 0 constantGenerator one_ne_zero hsent
    lampSender_valid isLocation_lamp ⟨by decide, by decide⟩ (wellNamed_lamp (by decide))⟩

/-! ## Searches -/

/-- The lines of a search. -/
def searchLines (Mx : Int) (SearchTarget : CString) : List CString :=
  ["M-SEARCH * HTTP/1.1".toList, field .HOST (SSDP_IP ++ ':' :: decimal SSDP_PORT),
    field .MAN "\"ssdp:discover\"".toList, field .MX (decimal Mx), field .ST SearchTarget]

/-- What `AdvertiseAndReply` is called with for a target. -/
def Target.request : Target → Request
  | all => ⟨0, .ALL, [], [], []⟩
  | rootdevice => ⟨0, .ROOTDEVICE, [], [], []⟩
  | udn u => ⟨0, .DEVICE, [], u, []⟩
  | device t => ⟨0, .DEVICE, t, [], []⟩
  | service t => ⟨0, .SERVICE, [], [], t⟩

/-- A search, up to what the device is asked for. -/
def searched (Mx : Int) (Target : CString) (evt : Event) (usec : Int) (gen : Generator) :
    Exec (List Request) := do
  let text ← UpnpSearchAsync Mx Target
  let acts ← heard text evt usec gen
  pure ((acts.filterMap Act.callback).filterMap searchRequest)

/-- The replies to a request, and what the client is told of them. -/
def answered (s : Sender) (Location : CString) (Duration : Int) (doc : Dom.Found) (evt : Event)
    (r : Request) : Exec (List (Upnp_EventType × Option Upnp_Discovery)) := do
  let sent ← follow (AdvertiseAndReply r doc)
  inTurn (replied s Location Duration evt) sent

/-- A search, and what the client is told of the replies. -/
def search (s : Sender) (Location : CString) (Duration : Int) (doc : Dom.Found) (Mx : Int)
    (Target : CString) (evt : Event) (usec : Int) (gen : Generator) :
    Exec (List (Upnp_EventType × Option Upnp_Discovery)) := do
  let requests ← searched Mx Target evt usec gen
  inTurn (answered s Location Duration doc evt) requests

variable {Mx : Int}

theorem gives_CreateClientRequestPacket {SearchTarget : CString}
    (hp : Printable (searchLines Mx SearchTarget)) (hMx : 0 < Mx) :
    (CreateClientRequestPacket Mx SearchTarget).Gives
      (joined (searchLines Mx SearchTarget) ++ "\r\n".toList) := by
  rw [CreateClientRequestPacket]
  refine (hp.catRqst 0 rfl rfl).bind ?_
  refine (hp.catTemp 1 rfl rfl).bind ?_
  refine (hp.catRqst 2 rfl rfl).bind (gives_then hMx ?_)
  refine (hp.catTemp 3 rfl rfl).bind ?_
  exact (hp.catTemp 4 rfl rfl).bind (hp.catEnd (by decide))

/-- A device is asked for the target of a search. -/
theorem gives_searched (htarget : target.WellNamed) (hplain : IsPlain target.name)
    (hlength : target.name.length < LINE_SIZE) (hMx : Mx ≤ 2147) (evt : Event) (usec : Int)
    (gen : Generator) : (searched Mx target.name evt usec gen).Gives [target.request] := by
  obtain ⟨n, hn, hnpos, hnmax⟩ : ∃ n, (if Mx < 1 then DEFAULT_MX else Mx) = n ∧ 0 < n ∧
      n ≤ 2147 := by
    refine ⟨_, rfl, ?_, ?_⟩ <;> split
    · decide
    · omega
    · decide
    · exact hMx
  have hduration : IsDuration n := ⟨hnpos.le, hnmax.trans (by decide)⟩
  have hp : Printable (searchLines n target.name) := by
    obtain ⟨hle, hdecimal⟩ := decimal_plain hduration
    refine printable_of (by simp [searchLines]) ?_
    simp only [searchLines, List.forall_mem_cons]
    exact ⟨⟨by decide, forall_mem_of_all (by decide)⟩,
      isLine_field (by decide) (forall_mem_of_all (by decide)),
      isLine_field (by decide) (forall_mem_of_all (by decide)),
      isLine_field (hle.trans (by decide)) hdecimal,
      isLine_field (hlength.le.trans (by decide)) hplain, nofun⟩
  obtain ⟨e, hlines, hrequest, hsearch, hman, hmx⟩ : Leads
      (field .HOST (SSDP_IP ++ ':' :: decimal SSDP_PORT) :: field .MAN "\"ssdp:discover\"".toList ::
        field .MX (decimal n) :: field .ST target.name :: [[], []])
      { InitEvent with Cmd := .SEARCH } fun e ↦
      searchRequest e = some target.request ∧ e.Cmd = .SEARCH ∧ e.Man ≠ [] ∧ e.Mx = n := by
    refine .field (gives_Host (by decide) (by decide)) ?_
    refine .field (gives_Fun_MAN (by decide) (by decide)) ?_
    refine .field (gives_Max_Delay hnpos hduration) ?_
    refine .field (target.gives_Request_Tpye htarget hlength) ?_
    refine .blanks (by decide) ?_
    cases target <;> exact ⟨rfl, rfl, List.cons_ne_nil _ _, rfl⟩
  obtain ⟨hpos, hshort, hnul⟩ :=
    hp.received (by decide : "\r\n".toList.length ≤ 4) (by decide)
  have hanalysed := gives_AnalyzeCommand hp (by rw [crlfLines_crlf]; decide) gives_searchLine
    (crlfLines_crlf ▸ hlines)
  obtain ⟨acts, hacts, hcalls⟩ : ∃ acts, (TransferResEvent _ evt usec gen).Gives acts ∧
      acts.filterMap Act.callback = [e] := by
    by_cases hlt : 1 < n
    · obtain ⟨d, hd, -⟩ := ((delayRight_iff hlt usec gen).mpr hnmax).delay
      refine ⟨[.usleep d, .CallBackFn e], (hanalysed _).bind (gives_then (by decide) ?_), rfl⟩
      refine gives_else ?_ (gives_then ?_ ?_)
      · rintro ⟨-, hneg | hnil⟩
        · omega
        · exact hman hnil
      · exact ⟨hsearch, hmx ▸ hlt⟩
      · rw [hmx, hd]
        exact (gives_follow d).bind (gives_pure _)
    · refine ⟨[.CallBackFn e], (hanalysed _).bind (gives_then (by decide) ?_), rfl⟩
      refine gives_else ?_ (gives_else ?_ (gives_pure _))
      · rintro ⟨-, hneg | hnil⟩
        · omega
        · exact hman hnil
      · exact fun h ↦ hlt (hmx ▸ h.2)
  rw [searched, UpnpSearchAsync, hn]
  refine (gives_CreateClientRequestPacket hp hnpos).bind
    ((gives_heard hpos hshort hnul hacts).bind ?_)
  rw [hcalls, List.filterMap_cons_some hrequest]
  exact gives_pure _

/-- An announcement is of what is searched for, whatever the case of the letters. -/
def Target.finds : Target → Announcement → Bool
  | all, _ => true
  | rootdevice, .rootdevice _ => true
  | udn u, .udn UDN => strcaseEq u (Advertise.textOf UDN)
  | device t, .device _ deviceType => strcaseEq t (Advertise.textOf deviceType)
  | service t, .service _ _ serviceType => strcaseEq t (Advertise.textOf serviceType)
  | _, _ => false

/-- Of the names of a device, a search for a target gets those that it finds. -/
theorem namesOfDevice_filter (hne : ∀ u, target = .udn u → u ≠ []) (i : Nat)
    (devType UDN : Dom.Found) :
    Advertise.namesOfDevice target.request i devType UDN =
      (Advertise.namesOfDevice Target.all.request i devType UDN).filter target.finds := by
  have hall : Advertise.namesOfDevice Target.all.request i devType UDN =
      Advertise.deviceNames devType (i = 0) UDN := if_pos (.inr rfl)
  have hsome (hsearch : target.request.SearchType ≠ .ALL) : ¬ target.request.Complete :=
    Request.not_complete (by cases target <;> rfl) hsearch
  rw [hall]
  cases target with
  | all =>
    rw [hall]
    exact (List.filter_eq_self.mpr fun a _ ↦ by cases a <;> rfl).symm
  | rootdevice =>
    have hnames : Advertise.namesOfDevice Target.rootdevice.request i devType UDN =
        if i = 0 then [.rootdevice UDN] else [] := if_neg (hsome (by decide))
    rw [hnames]
    by_cases hi : i = 0
    · subst hi
      rfl
    · simp [Advertise.deviceNames, Target.finds, hi]
  | udn u =>
    have hnames : Advertise.namesOfDevice (Target.udn u).request i devType UDN =
        if strcaseEq u (Advertise.textOf UDN) then [.udn UDN] else [] :=
      (if_neg (hsome fun h ↦ by cases h)).trans (if_pos (hne u rfl))
    rw [hnames]
    cases heq : strcaseEq u (Advertise.textOf UDN) <;> by_cases hi : i = 0 <;>
      simp [Advertise.deviceNames, Target.finds, heq, hi]
  | device t =>
    have hnames : Advertise.namesOfDevice (Target.device t).request i devType UDN =
        if strcaseEq t (Advertise.textOf devType) then [.device UDN devType] else [] :=
      (if_neg (hsome fun h ↦ by cases h)).trans (if_neg (not_not_intro rfl))
    rw [hnames]
    cases heq : strcaseEq t (Advertise.textOf devType) <;> by_cases hi : i = 0 <;>
      simp [Advertise.deviceNames, Target.finds, heq, hi]
  | service t =>
    have hnames : Advertise.namesOfDevice (Target.service t).request i devType UDN = [] :=
      if_neg (hsome fun h ↦ by cases h)
    rw [hnames]
    by_cases hi : i = 0 <;> simp [Advertise.deviceNames, Target.finds, hi]

theorem serviceAnnouncements_filter (UDN service : Dom.Found) :
    Advertise.serviceAnnouncements target.request UDN service =
      (Advertise.serviceAnnouncements Target.all.request UDN service).filter target.finds := by
  unfold Advertise.serviceAnnouncements
  cases Advertise.firstText "serviceType".toList service with
  | none => rfl
  | some servType =>
    dsimp only
    have hall : Advertise.namesOfService Target.all.request UDN service servType =
        [.service UDN service servType] := if_pos (.inl (.inr rfl))
    rw [hall]
    cases target with
    | all => rw [hall]; rfl
    | rootdevice => rfl
    | udn u => rfl
    | device t => rfl
    | service t => 
      cases heq : strcaseEq t (Advertise.textOf servType) <;>
        simp [Advertise.namesOfService, Target.finds, heq, Target.request, Request.Complete]

/-- Of all that a device can announce, a search gets what it finds. -/
theorem announcements_filter (hne : ∀ u, target = .udn u → u ≠ []) (doc : Dom.Found) :
    announcements target.request doc =
      (announcements Target.all.request doc).filter target.finds := by
  unfold announcements
  rw [List.filter_flatMap]
  refine List.flatMap_congr fun item _ ↦ ?_
  unfold Advertise.deviceAnnouncements
  cases Advertise.headOf item.1 with
  | none => rfl
  | some head =>
    dsimp only
    rw [List.filter_append, namesOfDevice_filter hne, List.filter_flatMap]
    exact congrArg _ (List.flatMap_congr fun service _ ↦ serviceAnnouncements_filter _ service)

/-- The type of the lamp, in other letters. -/
def lampTarget : Target := .device "urn:x:device:LAMP:1".toList

theorem lampTarget_wellNamed : lampTarget.WellNamed := by
  constructor <;> decide

end Upnp.Ssdp
