import Upnp.HttpMessage.HeaderBlock
import Upnp.MiniServer.Dispatch
import Upnp.MiniServer.RequestBody
import Upnp.Soap.Request
import Upnp.Util.GmtDateRoundTrip

/-!
# Requests that are sent

A request of a request line, headers and a body is read by the mini server from any segments, and
`parse_http_request` finds its parts.
-/

namespace Upnp.MiniServer

open Upnp.Lib
open Soap (httpText httpText_cons httpText_nil)
open HttpMessage (isToken isLWS blockText Stores parse_request_line parse_headers)

/-- A character of a line. -/
def IsInLine (c : Char) : Prop := c ≠ '\r' ∧ c ≠ '\n' ∧ c ≠ '\x00'

theorem isEol_crlf : NetReader1.IsEol ['\r', '\n'] := .inl rfl

instance : DecidablePred IsInLine := fun _ ↦ inferInstanceAs (Decidable (_ ∧ _))

/-- A line that ends with CRLF. -/
def sentLine (text : CString) (h : ∀ c ∈ text, IsInLine c) : TextLine where
  text := text
  eol := ['\r', '\n']
  isEol := isEol_crlf
  noCr hc := (h _ hc).1 rfl
  noLf hc := (h _ hc).2.1 rfl
  noNul hc := (h _ hc).2.2 rfl

theorem misread_of_isLengthHeader {text : CString} (h : IsLengthHeader text) : Misread text := by
  obtain ⟨name, value, rfl, hname⟩ := h
  rw [Misread, (hname.take _).1]
  exact hname.1

theorem statesLength_decimal {name blanks blanks' : CString} (hname : LengthName name)
    (hblanks : ∀ c ∈ blanks, isBlank c) (hblanks' : ∀ c ∈ blanks', isBlank c) (n : Nat) :
    StatesLength (name ++ ':' :: (blanks ++ (decimal n ++ blanks'))) n := by
  have hshows := Util.shows_decimal n.cast_nonneg
  exact ⟨name, blanks, decimal n, blanks', rfl, hname, hblanks, hblanks', hshows.ne_nil,
    hshows.digits, Int.ofNat_inj.mp hshows.value⟩

/-- A request of lines, whose body is sent with the NUL behind it. -/
structure SentLines where
  line : CString
  before : List CString
  lengthLine : CString
  behind : List CString
  body : CString
  plain : ∀ l ∈ line :: (before ++ lengthLine :: behind), ∀ c ∈ l, IsInLine c
  states : StatesLength lengthLine (body.length + 1)
  other : ∀ l ∈ before ++ behind, l ≠ [] ∧ ¬ Misread l
  body_nul : '\x00' ∉ body
  body_length : body.length < intMax

namespace SentLines

variable (r : SentLines)

/-- The document. -/
def document : CString := httpText (r.line :: (r.before ++ r.lengthLine :: r.behind)) r.body

theorem plain_line : ∀ c ∈ r.line, IsInLine c := r.plain _ List.mem_cons_self

theorem plain_lengthLine : ∀ c ∈ r.lengthLine, IsInLine c :=
  r.plain _ (List.mem_cons_of_mem _ (List.mem_append_right _ List.mem_cons_self))

theorem plain_before : ∀ l ∈ r.before, ∀ c ∈ l, IsInLine c := fun l hl ↦
  r.plain l (List.mem_cons_of_mem _ (List.mem_append_left _ hl))

theorem plain_behind : ∀ l ∈ r.behind, ∀ c ∈ l, IsInLine c := fun l hl ↦
  r.plain l (List.mem_cons_of_mem _ (List.mem_append_right _ (List.mem_cons_of_mem _ hl)))

/-- The request as the mini server reads it. -/
def request : Request (r.body.length + 1) where
  reqLine := sentLine r.line r.plain_line
  before := r.before.pmap sentLine r.plain_before
  lengthLine := sentLine r.lengthLine r.plain_lengthLine
  behind := r.behind.pmap sentLine r.plain_behind
  emptyLine := sentLine [] (List.forall_mem_nil IsInLine)
  states := r.states
  other := by
    intro line hline
    obtain ⟨l, hl, hl', rfl⟩ : ∃ l, ∃ _ : l ∈ r.before ++ r.behind, ∃ h, sentLine l h = line := by
      rcases List.mem_append.mp hline with h | h
      · obtain ⟨l, hl, rfl⟩ := List.mem_pmap.mp h
        exact ⟨l, List.mem_append_left _ hl, _, rfl⟩
      · obtain ⟨l, hl, rfl⟩ := List.mem_pmap.mp h
        exact ⟨l, List.mem_append_right _ hl, _, rfl⟩
    exact ⟨(r.other l hl).1, fun h ↦ (r.other l hl).2 (misread_of_isLengthHeader h)⟩
  isEmpty := rfl

theorem flatMap_chars (ls : List CString) (h : ∀ l ∈ ls, ∀ c ∈ l, IsInLine c) :
    (ls.pmap sentLine h).flatMap TextLine.chars = ls.flatMap (· ++ "\r\n".toList) := by
  induction ls with
  | nil => rfl
  | cons l ls ih =>
    rw [List.pmap_cons, List.flatMap_cons, List.flatMap_cons, ih]
    rfl

theorem document_eq : r.document = r.request.head ++ r.body := by
  have hlines : r.request.lines.flatMap TextLine.chars =
      (r.before ++ r.lengthLine :: r.behind).flatMap (· ++ "\r\n".toList) := by
    rw [Request.lines, List.flatMap_append, List.flatMap_cons, List.flatMap_append,
      List.flatMap_cons, ← flatMap_chars _ r.plain_before, ← flatMap_chars _ r.plain_behind]
    rfl
  have hfirst : r.request.reqLine.chars = r.line ++ "\r\n".toList := rfl
  have hempty : r.request.emptyLine.chars = "\r\n".toList := rfl
  rw [Request.head, hlines, hfirst, hempty, document, httpText_cons, httpText]
  simp only [List.append_assoc]

end SentLines

/-- A header: its value is not empty, and does not begin with white space. -/
structure SentHeader where
  name : CString
  value : CString
  name_ne_nil : name ≠ []
  name_token : ∀ c ∈ name, isToken c
  value_line : ∀ c ∈ value, IsInLine c
  value_start : value.head?.any (!isLWS ·) = true

namespace SentHeader

def text (h : SentHeader) : CString := h.name ++ ':' :: ' ' :: h.value

variable (h : SentHeader)

theorem isInLine_of_isToken {c : Char} (hc : isToken c) : IsInLine c := by
  refine ⟨?_, ?_, ?_⟩ <;>
    · rintro rfl
      exact absurd hc (by decide)

theorem text_line : ∀ c ∈ h.text, IsInLine c := by
  intro c hc
  rcases List.mem_append.mp hc with hc | hc
  · exact isInLine_of_isToken (h.name_token c hc)
  · rcases List.mem_cons.mp hc with rfl | hc
    · decide
    rcases List.mem_cons.mp hc with rfl | hc
    · decide
    exact h.value_line c hc

/-- The header as it is parsed. -/
def headerLine : HttpMessage.HeaderLine where
  name := h.name
  value := ' ' :: h.value
  name_ne_nil := h.name_ne_nil
  name_token := h.name_token
  value_line q hq := by
    have hmem := List.mem_of_getElem? hq.1
    rcases List.mem_cons.mp hmem with hc | hc
    · cases hc
    · exact (h.value_line _ hc).1 rfl

theorem dropWhile_value : h.headerLine.value.dropWhile isLWS = h.value := by
  have hstart := h.value_start
  rw [headerLine]
  dsimp only
  rw [List.dropWhile_cons_of_pos (by decide)]
  cases hvalue : h.value with
  | nil => rfl
  | cons c value =>
    rw [hvalue] at hstart
    have hc : ¬ isLWS c = true := by simpa using hstart
    rw [List.dropWhile_cons_of_neg hc]

theorem text_headerLine : h.headerLine.text = h.text ++ ['\r', '\n'] := by
  rw [HttpMessage.HeaderLine.text, headerLine, text]
  simp only [List.append_assoc, List.cons_append]

end SentHeader

theorem isDigit_of_mem_decimal {n : Nat} {c : Char} (hc : c ∈ decimal n) : c.isDigit = true :=
  Nat.isDigit_of_mem_toDigits (by decide) (by decide) hc

theorem decimal_line (n : Nat) : ∀ c ∈ decimal n, IsInLine c := by
  intro c hc
  have hdigit := isDigit_of_mem_decimal hc
  refine ⟨?_, ?_, ?_⟩ <;>
    · rintro rfl
      exact absurd hdigit (by decide)

theorem decimal_start (n : Nat) : (decimal n).head?.any (!isLWS ·) = true := by
  obtain ⟨c, value, hvalue⟩ := List.exists_cons_of_ne_nil (Util.shows_decimal n.cast_nonneg).ne_nil
  have hdigit := isDigit_of_mem_decimal (hvalue ▸ List.mem_cons_self)
  rw [hvalue, List.head?_cons, Option.any_some, Bool.not_eq_true', Bool.eq_false_iff]
  intro hlws
  rw [isLWS, Bool.or_eq_true, decide_eq_true_eq, decide_eq_true_eq] at hlws
  rcases hlws with rfl | rfl <;> exact absurd hdigit (by decide)

/-- The length of the body, with the NUL behind it. -/
def lengthHeader (n : Nat) : SentHeader where
  name := "CONTENT-LENGTH".toList
  value := decimal (n : Int)
  name_ne_nil := by decide
  name_token := List.all_eq_true.mp (by decide)
  value_line := decimal_line n
  value_start := decimal_start n

/-- A request whose body is sent with the NUL behind it. -/
structure SentRequest where
  method : CString
  path : CString
  version : CString
  before : List SentHeader
  behind : List SentHeader
  body : CString
  method_token : method ≠ [] ∧ ∀ c ∈ method, isToken c
  path_word : path ≠ [] ∧ ∀ c ∈ path, IsInLine c ∧ isLWS c = false
  version_line : (∀ c ∈ version, IsInLine c) ∧ ∀ c ∈ version.head?, isLWS c = false
  other : ∀ h ∈ before ++ behind, (h.name.take 14).map Char.toUpper ≠ "CONTENT-LENGTH".toList
  body_nul : '\x00' ∉ body
  body_length : body.length < intMax

namespace SentRequest

def headers (r : SentRequest) : List SentHeader :=
  r.before ++ lengthHeader (r.body.length + 1) :: r.behind

/-- The request line. -/
def line (r : SentRequest) : CString := r.method ++ ' ' :: (r.path ++ ' ' :: r.version)

/-- The document. -/
def document (r : SentRequest) : CString :=
  httpText (r.line :: r.headers.map SentHeader.text) r.body

variable (r : SentRequest)

theorem line_plain : ∀ c ∈ r.line, IsInLine c := by
  intro c hc
  rcases List.mem_append.mp hc with hc | hc
  · exact SentHeader.isInLine_of_isToken (r.method_token.2 c hc)
  rcases List.mem_cons.mp hc with rfl | hc
  · decide
  rcases List.mem_append.mp hc with hc | hc
  · exact (r.path_word.2 c hc).1
  rcases List.mem_cons.mp hc with rfl | hc
  · decide
  exact r.version_line.1 c hc

end SentRequest

/-! ## The mini server -/

variable {reads : List CString}

theorem SentHeader.name_of_misread {h : SentHeader} (hmis : Misread h.text) :
    (h.name.take 14).map Char.toUpper = "CONTENT-LENGTH".toList := by
  rw [Misread, SentHeader.text] at hmis
  rcases Nat.lt_or_ge h.name.length 14 with hlt | hge
  · -- a colon is among the first characters
    have hmem : ':' ∈ ((h.name ++ ':' :: ' ' :: h.value).take 14).map Char.toUpper := by
      refine List.mem_map.mpr ⟨':', ?_, by decide⟩
      rw [List.take_append, List.mem_append]
      right
      obtain ⟨k, hk⟩ := Nat.exists_eq_add_of_lt hlt
      have hsub : 14 - h.name.length = k + 1 := by omega
      rw [hsub, List.take_succ_cons]
      exact List.mem_cons_self
    rw [hmis] at hmem
    exact absurd hmem (by decide)
  · rwa [List.take_append_of_le_length hge] at hmis

/-- The body is read to the NUL behind it. -/
theorem readBody_terminated {text : CString} {contentLength : Int} {reader : NetReader1}
    {ps : List CString} (document : CString) (total : Nat) (hnul : '\x00' ∉ text)
    (hflat : ps.flatten = text ++ ['\x00'])
    (htotal : contentLength = total + (text.length + 1 : Nat)) (h : reader.Holds ps) :
    readBody contentLength reader document total = .ok (document ++ text) := by
  induction hlen : text.length using Nat.strong_induction_on
    generalizing text reader ps document total with
  | _ n ih =>
    cases ps with
    | nil => exact absurd hflat.symm (List.append_ne_nil_of_right_ne_nil _ (List.cons_ne_nil _ _))
    | cons p ps =>
      obtain ⟨c, p, rfl⟩ := List.exists_cons_of_ne_nil (h.ne_nil p List.mem_cons_self)
      obtain ⟨reader', hreader, hstep⟩ := readBody_cons document h
      rw [hstep]
      have htake : ((c :: p).take BUFSIZE).length = min BUFSIZE (c :: p).length := List.length_take
      have hpos : 0 < min BUFSIZE (c :: p).length := by simp [BUFSIZE]
      have hread : (c :: p).take BUFSIZE =
          (text ++ ['\x00']).take (min BUFSIZE (c :: p).length) := by
        rw [← hflat, List.flatten_cons, List.take_append_of_le_length (min_le_right ..),
          ← List.take_eq_take_min]
      have hall : min BUFSIZE (c :: p).length ≤ text.length + 1 := by
        have hlength := congrArg List.length hflat
        rw [List.flatten_cons, List.length_append, List.length_append, List.length_singleton]
          at hlength
        omega
      rw [htake]
      by_cases hlast : text.length < min BUFSIZE (c :: p).length
      · -- the read takes the rest of the text, and the NUL
        have heq : min BUFSIZE (c :: p).length = (text ++ ['\x00']).length := by
          rw [List.length_append, List.length_singleton]
          omega
        rw [if_pos (by omega), hread, heq, List.take_length, appendLimited,
          List.takeWhile_append_of_pos (fun d hd ↦ decide_eq_true (ne_of_mem_of_not_mem hd hnul)),
          List.takeWhile_cons_of_neg (by decide), List.append_nil]
      · have hfront : (c :: p).take BUFSIZE = text.take (min BUFSIZE (c :: p).length) := by
          rw [hread, List.take_append_of_le_length (not_lt.mp hlast)]
        have hnul' : '\x00' ∉ (c :: p).take BUFSIZE := by
          rw [hfront]
          exact fun hmem ↦ hnul (List.mem_of_mem_take hmem)
        have hrest : (dropBytes (min BUFSIZE (c :: p).length) ((c :: p) :: ps)).flatten =
            text.drop (min BUFSIZE (c :: p).length) ++ ['\x00'] := by
          rw [flatten_dropBytes, hflat, List.drop_append_of_le_length (not_lt.mp hlast)]
        have hshort : (text.drop (min BUFSIZE (c :: p).length)).length < n := by
          rw [List.length_drop]
          omega
        rw [if_neg (by omega), appendLimited_of_noNul document hnul',
          ih _ hshort _ _ (fun hmem ↦ hnul (List.mem_of_mem_drop hmem)) hrest (by
            rw [List.length_drop]
            omega) hreader rfl, List.append_assoc, hfront, List.take_append_drop]

namespace SentLines

variable (r : SentLines)

/-- **The document is read**, whatever the segments. -/
theorem ReadRequest_sent (hcmd : GetCommandType r.request.reqLine.chars ≠ .CMD_HTTP_UNKNOWN)
    (hreads : ∀ p ∈ reads, p ≠ []) (hflat : reads.flatten = r.document ++ ['\x00']) :
    ReadRequest (reads.map some) = .ok r.document := by
  have hlength : ((r.body.length + 1 : Nat) : Int) ≤ intMax := by
    have hbody := r.body_length
    unfold intMax at *
    omega
  have hcontent := contentLengthOf_of_le hlength
  have hstream : reads.flatten = r.request.head ++ (r.body ++ ['\x00']) := by
    rw [hflat, r.document_eq, List.append_assoc]
  have hnot : ¬ Refused r.request := by
    rintro (h | ⟨line, hline, hmis⟩ | ⟨hneg, -⟩)
    · exact hcmd h
    · obtain ⟨l, hl, rfl⟩ := List.mem_pmap.mp hline
      exact (r.other l (List.mem_append_left _ hl)).2 hmis
    · omega
  obtain ⟨reader, hholds, hread⟩ := (ReadRequest_spec r.request hreads hstream).2 hnot
  have hbody : (dropBytes r.request.head.length reads).flatten = r.body ++ ['\x00'] := by
    rw [flatten_dropBytes, hstream, List.drop_left]
  rw [hread, if_pos (by omega), readBody_terminated _ 0 r.body_nul hbody (by omega) hholds,
    ← r.document_eq]

theorem requestLine_sent (hreads : ∀ p ∈ reads, p ≠ [])
    (hflat : reads.flatten = r.document ++ ['\x00']) :
    requestLine (reads.map some) = some r.request.reqLine.chars := by
  have hfirst : reads.flatten = r.request.reqLine.chars ++
      (httpText (r.before ++ r.lengthLine :: r.behind) r.body ++ ['\x00']) := by
    have hchars : r.request.reqLine.chars = r.line ++ "\r\n".toList := rfl
    rw [hflat, document, httpText_cons, hchars]
    simp only [List.append_assoc]
  obtain ⟨reader, hline, -⟩ := r.request.reqLine.getLine (.refill hreads) hfirst
  rw [requestLine, hline]

/-- **The callback of the method gets the document.** -/
theorem HandleRequest_sent {callback : MiniServerCallback}
    (hcallback : MultiplexCommand (GetCommandType (r.line ++ "\r\n".toList)) = some callback)
    (hreads : ∀ p ∈ reads, p ≠ []) (hflat : reads.flatten = r.document ++ ['\x00']) :
    HandleRequest (reads.map some) = .ok (callback, r.document) := by
  have hchars : r.request.reqLine.chars = r.line ++ "\r\n".toList := rfl
  have hcmd : GetCommandType r.request.reqLine.chars ≠ .CMD_HTTP_UNKNOWN := by
    intro h
    rw [← hchars, h] at hcallback
    cases hcallback
  rw [HandleRequest, r.ReadRequest_sent hcmd hreads hflat, r.requestLine_sent hreads hflat, hchars]
  dsimp only
  rw [Option.bind_some, hcallback]

end SentLines

namespace SentRequest

/-- The lines of the request. -/
def lines (r : SentRequest) : SentLines where
  line := r.line
  before := r.before.map SentHeader.text
  lengthLine := (lengthHeader (r.body.length + 1)).text
  behind := r.behind.map SentHeader.text
  body := r.body
  plain := by
    have hheaders : ∀ l ∈ r.headers.map SentHeader.text, ∀ c ∈ l, IsInLine c := by
      intro l hl
      obtain ⟨h, -, rfl⟩ := List.mem_map.mp hl
      exact h.text_line
    rw [headers, List.map_append, List.map_cons] at hheaders
    exact List.forall_mem_cons.mpr ⟨r.line_plain, hheaders⟩
  states := by
    have hname : LengthName "CONTENT-LENGTH".toList := ⟨by decide, List.forall_mem_nil _⟩
    have hblanks : ∀ c ∈ [' '], isBlank c := List.forall_mem_singleton.mpr rfl
    have hstates := statesLength_decimal hname hblanks (List.forall_mem_nil _) (r.body.length + 1)
    rwa [List.append_nil] at hstates
  other := by
    intro l hl
    rw [← List.map_append] at hl
    obtain ⟨h, hmem, rfl⟩ := List.mem_map.mp hl
    exact ⟨List.append_ne_nil_of_left_ne_nil h.name_ne_nil _,
      fun hmis ↦ r.other h hmem (SentHeader.name_of_misread hmis)⟩
  body_nul := r.body_nul
  body_length := r.body_length

theorem document_lines (r : SentRequest) : r.lines.document = r.document := by
  rw [document, headers, List.map_append, List.map_cons]
  rfl

/-! ## Parsing -/

/-- The memory behind the request line. -/
def block (r : SentRequest) : CString :=
  blockText (r.headers.map SentHeader.headerLine) ++ '\r' :: '\n' :: (r.body ++ ['\x00'])

theorem blockText_headers (hs : List SentHeader) (body : CString) :
    httpText (hs.map SentHeader.text) body =
      blockText (hs.map SentHeader.headerLine) ++ '\r' :: '\n' :: body := by
  induction hs with
  | nil => rfl
  | cons h hs ih =>
    rw [List.map_cons, List.map_cons, httpText_cons, ih, HttpMessage.blockText_cons,
      h.text_headerLine]
    simp only [List.append_assoc]
    rfl

theorem nul_notMem_document (r : SentRequest) : '\x00' ∉ r.document := by
  have hend : '\x00' ∉ "\r\n".toList := by decide
  rw [document, httpText, List.mem_append, List.mem_append, not_or, not_or]
  refine ⟨⟨?_, hend⟩, r.body_nul⟩
  intro hmem
  obtain ⟨line, hline, hc⟩ := List.mem_flatMap.mp hmem
  rcases List.mem_append.mp hc with hc | hc
  · rcases List.mem_cons.mp hline with rfl | hline
    · exact (r.line_plain _ hc).2.2 rfl
    · obtain ⟨h, -, rfl⟩ := List.mem_map.mp hline
      exact (h.text_line _ hc).2.2 rfl
  · exact hend hc

theorem memoryOf_document (r : SentRequest) : memoryOf r.document = r.method ++ ' ' ::
    (r.path ++ ' ' :: (r.version ++ '\r' :: '\n' :: r.block)) := by
  rw [memoryOf, List.takeWhile_eq_self_iff.mpr fun c hc ↦
    decide_eq_true (ne_of_mem_of_not_mem hc r.nul_notMem_document), document, httpText_cons,
    blockText_headers, line, block]
  simp only [List.append_assoc, List.cons_append]
  rfl

theorem drop_memoryOf (r : SentRequest) :
    (memoryOf r.document).drop (r.line.length + 2) = r.block := by
  have hsplit : memoryOf r.document = r.line ++ '\r' :: '\n' :: r.block := by
    rw [memoryOf_document, line]
    simp only [List.append_assoc, List.cons_append]
  rw [hsplit, HttpMessage.drop_crlf]

theorem drop_block (r : SentRequest) :
    r.block.drop ((blockText (r.headers.map SentHeader.headerLine)).length + 2) =
      r.body ++ ['\x00'] := by
  rw [block, HttpMessage.drop_crlf]

/-- The request line, and the headers with the content. -/
structure Parsed (r : SentRequest) (request : HttpMessage.HttpRequest)
    (headers : HttpMessage.Headers) : Prop where
  method : request.method = ⟨some 0, r.method.length⟩
  stored : List.Forall₂ (Stores r.block) (r.headers.map SentHeader.headerLine) headers.header_list
  content : headers.content =
    ⟨some ((blockText (r.headers.map SentHeader.headerLine)).length + 2), r.body.length⟩

/-- **The request is parsed.** -/
theorem parse_http_request_sent (r : SentRequest) (env : Uri.Env) {malloc : Nat → Bool}
    (hmalloc : ∀ i, malloc i = true) : ∃ request headers,
    parse_request_line env ((memoryOf r.document).length - 1 : Nat) (memoryOf r.document) =
      some (some (r.line.length + 2, request)) ∧
    parse_http_request env malloc (memoryOf r.document) ((memoryOf r.document).length - 1) =
      some (.ok (request, headers)) ∧ r.Parsed request headers := by
  have hmemory := r.memoryOf_document
  have hline : r.line.length + 2 = r.method.length + r.path.length + r.version.length + 4 := by
    rw [line]
    simp only [List.length_append, List.length_cons]
    omega
  have hblock : r.block.length =
      (blockText (r.headers.map SentHeader.headerLine)).length + 2 + r.body.length + 1 := by
    rw [block]
    simp only [List.length_append, List.length_cons, List.length_nil]
    omega
  have hlength : (memoryOf r.document).length = r.line.length + 2 + r.block.length := by
    rw [hmemory, hline]
    simp only [List.length_append, List.length_cons]
    omega
  obtain ⟨request, hrequest, hmethod⟩ := HttpMessage.parse_request_line_words env r.method_token
    ⟨r.path_word.1, fun c hc ↦ (r.path_word.2 c hc).2⟩
    ⟨fun hc ↦ (r.version_line.1 _ hc).1 rfl, r.version_line.2⟩ r.block
    (show _ ≤ (memoryOf r.document).length - 1 by omega) (by
      rw [← hmemory]
      omega)
  rw [← hmemory, ← hline] at hrequest
  obtain ⟨headers, hheaders, hstored, hcontent⟩ := HttpMessage.parse_headers_block hmalloc
    (r.headers.map SentHeader.headerLine) r.body ['\x00']
  refine ⟨request, headers, hrequest, ?_, hmethod, hstored, hcontent⟩
  have hleft : (memoryOf r.document).length - 1 - (r.line.length + 2) =
      (blockText (r.headers.map SentHeader.headerLine)).length + 2 + r.body.length := by
    omega
  rw [parse_http_request, hrequest]
  dsimp only
  rw [r.drop_memoryOf, hleft, block, hheaders]

end SentRequest

end Upnp.MiniServer
