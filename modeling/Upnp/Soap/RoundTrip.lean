import Upnp.GenaClient.RequestText
import Upnp.Lib.Substring
import Upnp.Soap.Control
import Upnp.Soap.Envelope
import Upnp.Util.GmtDateRoundTrip

/-!
# Control, from the control point to the application and back

What a control point asks for is what the application of the device is asked, and what that answers
is what the control point gets.
-/

namespace Upnp.Soap

open Upnp.Lib Upnp.Dom Upnp.Xml Upnp.ServiceTable

/-! ## Headers -/

/-- The lines of a header: none is empty or has a carriage return. -/
def AreLines (lines : List CString) : Prop := ∀ line ∈ lines, line ≠ [] ∧ '\r' ∉ line

variable {parse : CString → Option Document} {line body xml : CString} {lines : List CString}

theorem strstr_httpText (hlines : AreLines (line :: lines)) (body : CString) :
    strstr (httpText (line :: lines) body) "\r\n\r\n".toList = some ("\r\n\r\n".toList ++ body) := by
  have hpattern : "\r\n\r\n".toList = '\r' :: "\n\r\n".toList := rfl
  induction lines generalizing line with
  | nil =>
    have hend : httpText [line] body = line ++ ("\r\n\r\n".toList ++ body) := by
      rw [httpText_cons, httpText_nil]
      rfl
    rw [hend]
    rw [hpattern, strstr_append_of_notMem (hlines line List.mem_cons_self).2, ← hpattern]
    exact strstr_of_prefix (List.prefix_append ..)
  | cons line' lines ih =>
    have hlines' : AreLines (line' :: lines) := fun l hl ↦ hlines l (List.mem_cons_of_mem _ hl)
    rw [httpText_cons, hpattern, strstr_append_of_notMem (hlines line List.mem_cons_self).2,
      ← hpattern, ← ih hlines']
    -- behind a line end there is another line, which does not begin with one
    obtain ⟨c, more, hmore, hc⟩ : ∃ c more, httpText (line' :: lines) body = c :: more ∧
        c ≠ '\r' := by
      obtain ⟨hne, hreturn⟩ := hlines' line' List.mem_cons_self
      obtain ⟨c, more, rfl⟩ := List.exists_cons_of_ne_nil hne
      refine ⟨c, _, httpText_cons .., ?_⟩
      rintro rfl
      exact hreturn List.mem_cons_self
    rw [hmore]
    have hfirst : ¬ "\r\n\r\n".toList <+: '\r' :: '\n' :: c :: more := by
      intro h
      have hhead := (List.cons_prefix_cons.mp (List.cons_prefix_cons.mp
        (List.cons_prefix_cons.mp h).2).2).1
      exact hc hhead.symm
    have hsecond : ¬ "\r\n\r\n".toList <+: '\n' :: c :: more := fun h ↦
      absurd (List.cons_prefix_cons.mp h).1 (by decide)
    exact (strstr_cons hfirst).trans (strstr_cons hsecond)

theorem infix_httpText (h : line ∈ lines) (body : CString) : line <:+: httpText lines body := by
  induction lines with
  | nil => cases h
  | cons line' lines ih =>
    rw [httpText_cons]
    rcases List.mem_cons.mp h with rfl | h
    · exact (List.prefix_append ..).isInfix
    · exact (ih h).trans ((List.suffix_append ..).trans (List.suffix_append ..)).isInfix

/-- A word of a line is found in the text. -/
theorem strstrcase_httpText {word : CString} (h : line ∈ lines) (hword : word <:+: line)
    (hne : word ≠ []) (body : CString) : strstrcase (httpText lines body) word ≠ none := by
  obtain ⟨front, behind, heq⟩ := hword.trans (infix_httpText h body)
  rw [← heq, List.append_assoc]
  exact strstrcase_ne_none front behind (decide_eq_true rfl) hne

/-- A word is not found in a text that lacks its first letter. -/
theorem strstrcase_eq_none {s Tok : CString} {d : Char} (h : ∀ c ∈ s, c.toLower ≠ d.toLower) :
    strstrcase s (d :: Tok) = none := by
  induction s with
  | nil => rfl
  | cons c s ih =>
    obtain ⟨hc, hs⟩ := List.forall_mem_cons.mp h
    rw [strstrcase_cons, if_neg, ih hs]
    intro heq
    rw [List.length_cons, List.take_succ_cons, strcaseEq, decide_eq_true_eq, List.map_cons,
      List.map_cons] at heq
    exact hc (List.cons.inj heq).1

/-- The document of a text with a header is that of its body. -/
theorem replyDocument_httpText (hlines : AreLines (line :: lines)) :
    replyDocument parse (httpText (line :: lines) body) = parse body := by
  rw [replyDocument, strstr_httpText hlines, Option.bind_some]
  rfl

/-- The first line is the line in front of the first line end. -/
theorem firstLine_httpText (hline : '\r' ∉ line) :
    firstLine (httpText (line :: lines) body) = line := by
  have hfound : strstr (httpText (line :: lines) body) "\r\n".toList =
      some ("\r\n".toList ++ httpText lines body) := by
    have hpattern : "\r\n".toList = '\r' :: "\n".toList := rfl
    rw [httpText_cons, hpattern, strstr_append_of_notMem hline, ← hpattern]
    exact strstr_of_prefix (List.prefix_append ..)
  rw [firstLine, hfound, httpText_cons, Option.getD_some, List.length_append, Nat.add_sub_cancel]
  exact List.take_left

/-! ## Replies -/

/-- The date is a line, and the names of the system are parts of one. -/
structure System.Plain (sys : System) (date : CString) : Prop where
  eq : sys.date = date ++ "\r\n".toList
  date_ne_nil : date ≠ []
  date_line : '\r' ∉ date
  sysname : '\r' ∉ sys.sysname
  release : '\r' ∉ sys.release

/-- The lines of a reply. -/
def replyLines (sys : System) (date status xml : CString) : List CString :=
  [status, "CONTENT-LENGTH:".toList ++ decimal (announced xml), "CONTENT-TYPE:text/xml".toList,
    date, "EXT:".toList, "SERVER:".toList ++ sys.sysname ++ "/".toList ++ sys.release ++
      " UPnP/1.0 Intel UPnP SDK/1.0".toList]

/-- The status line of a reply. -/
def Reply.statusLine : Reply → CString
  | action _ | value _ => "HTTP/1.1 200 OK".toList
  | failure .. => "HTTP/1.1 500 Internal Server Error".toList

/-- The text of a reply. -/
def replyText (sys : System) (date : CString) (reply : Reply) : CString :=
  httpText (replyLines sys date reply.statusLine reply.body) reply.body

variable {sys : System} {date : CString} {reply : Reply}

theorem statusLine_cases (reply : Reply) : reply.statusLine = "HTTP/1.1 200 OK".toList ∨
    reply.statusLine = "HTTP/1.1 500 Internal Server Error".toList := by
  cases reply with
  | action => exact .inl rfl
  | value => exact .inl rfl
  | failure => exact .inr rfl

theorem return_notMem_statusLine (reply : Reply) : '\r' ∉ reply.statusLine := by
  rcases statusLine_cases reply with h | h <;> rw [h] <;> decide

theorem length_statusLine (reply : Reply) : 15 ≤ reply.statusLine.length := by
  rcases statusLine_cases reply with h | h <;> rw [h] <;> decide

theorem status_eq (reply : Reply) : reply.status = reply.statusLine ++ "\r\n".toList := by
  cases reply with
  | action => exact literal_eq_append rfl
  | value => exact literal_eq_append rfl
  | failure => exact literal_eq_append rfl

theorem return_notMem_decimal (n : Int) : '\r' ∉ decimal n := by
  intro h
  rcases mem_decimal h with h | h
  · exact absurd h (by decide)
  · exact absurd h (by decide)

theorem areLines_replyLines (hsys : sys.Plain date) (reply : Reply) :
    AreLines (replyLines sys date reply.statusLine xml) := by
  have hlength := length_statusLine reply
  have hstatus : reply.statusLine ≠ [] := by
    intro heq
    rw [heq] at hlength
    exact absurd hlength (by decide)
  have hserver : '\r' ∉ "SERVER:".toList ++ sys.sysname ++ "/".toList ++ sys.release ++
      " UPnP/1.0 Intel UPnP SDK/1.0".toList := by
    simp only [List.mem_append, not_or]
    exact ⟨⟨⟨⟨by decide, hsys.sysname⟩, by decide⟩, hsys.release⟩, by decide⟩
  intro l hl
  simp only [replyLines, List.mem_cons, List.not_mem_nil, or_false] at hl
  rcases hl with rfl | rfl | rfl | rfl | rfl | rfl
  · exact ⟨hstatus, return_notMem_statusLine reply⟩
  · refine ⟨List.cons_ne_nil _ _, ?_⟩
    rw [List.mem_append, not_or]
    exact ⟨by decide, return_notMem_decimal _⟩
  · decide
  · exact ⟨hsys.date_ne_nil, hsys.date_line⟩
  · decide
  · exact ⟨List.cons_ne_nil _ _, hserver⟩

/-- The pieces of a reply are its text. -/
theorem replyText_eq (hsys : sys.Plain date) :
    (responsePieces sys reply.status reply.body).flatten = replyText sys date reply := by
  have h₁ : "CONTENT-TYPE:text/xml\r\n".toList =
      "CONTENT-TYPE:text/xml".toList ++ "\r\n".toList := literal_eq_append rfl
  have h₂ : "EXT:\r\nSERVER:".toList = "EXT:\r\n".toList ++ "SERVER:".toList :=
    literal_eq_append rfl
  have h₃ : "EXT:\r\n".toList = "EXT:".toList ++ "\r\n".toList := literal_eq_append rfl
  have h₄ : " UPnP/1.0 Intel UPnP SDK/1.0\r\n\r\n".toList =
      " UPnP/1.0 Intel UPnP SDK/1.0\r\n".toList ++ "\r\n".toList := literal_eq_append rfl
  have h₅ : " UPnP/1.0 Intel UPnP SDK/1.0\r\n".toList =
      " UPnP/1.0 Intel UPnP SDK/1.0".toList ++ "\r\n".toList := literal_eq_append rfl
  simp only [responsePieces, replyText, replyLines, httpText, status_eq, hsys.eq, h₁, h₂, h₃, h₄,
    h₅, List.flatten_cons, List.flatten_nil, List.flatMap_cons, List.flatMap_nil, List.append_assoc,
    List.append_nil]

/-- The reply is put together. -/
theorem respond_replyText (hsys : sys.Plain date) (InData : CString)
    (h : reply.body.length + 1 ≤ 2147483647) : ∃ block, respond sys InData reply = some block ∧
      block.Holds (replyText sys date reply) := by
  rw [← replyText_eq hsys]
  exact respond_holds sys InData reply h

theorem firstLine_replyText (reply : Reply) :
    firstLine (replyText sys date reply) = reply.statusLine :=
  firstLine_httpText (return_notMem_statusLine reply)

theorem replyDocument_replyText (hsys : sys.Plain date) :
    replyDocument parse (replyText sys date reply) = parse reply.body :=
  replyDocument_httpText (areLines_replyLines hsys reply)

/-- A reply is no short one. -/
theorem length_replyText : MIN_LEN < (replyText sys date reply).length := by
  have hlength : "CONTENT-LENGTH:".toList.length = 15 := by decide
  have hstatus := length_statusLine reply
  rw [replyText, replyLines, httpText_cons, httpText_cons]
  simp only [List.length_append, hlength, MIN_LEN]
  omega

/-- What the control point makes of the status line. -/
def Reply.code : Reply → Int
  | action _ | value _ => 1
  | failure .. => -1

theorem GetBufferErrorCode_replyText (hsys : sys.Plain date) {doc : Document}
    (hparse : parse reply.body = some doc) :
    GetBufferErrorCode (replyText sys date reply) = some reply.code := by
  have hfits : reply.statusLine.length < LINE_SIZE := by
    rcases statusLine_cases reply with h | h <;> rw [h] <;> decide
  have hok : strstr "HTTP/1.1 200 OK".toList "200".toList ≠ none := by decide
  have herror : strstr "HTTP/1.1 500 Internal Server Error".toList "200".toList = none := by decide
  rw [GetBufferErrorCode_eq ((replyDocument_replyText hsys).trans hparse), firstLine_replyText,
    if_pos hfits]
  cases reply with
  | action => exact congrArg some (if_neg hok)
  | value => exact congrArg some (if_neg hok)
  | failure => exact congrArg some (if_pos herror)

/-! ## Replies at the control point -/

variable {ActName RespStr : CString} {RespNode : Option Document} {doc : Document}
  {ErrCode : { code : Int // -2147483648 ≤ code ∧ code ≤ 2147483647 }}
  {ErrStr : { text : CString // text.length < LINE_SIZE }} {VarVal : Option CString}

theorem actionReply_replyText (hsys : sys.Plain date) (hparse : parse reply.body = some doc) :
    actionReply parse ActName (some (replyText sys date reply)) RespNode =
      (actionCode parse ActName (replyText sys date reply) doc RespNode).map fun r ↦
        ⟨r.1, r.2, [.XmlDoc, .RecvBuff]⟩ := by
  rw [actionReply, if_pos length_replyText, replyDocument_replyText hsys, hparse]

theorem queryReply_replyText (hsys : sys.Plain date) (hparse : parse reply.body = some doc) :
    queryReply parse (some (replyText sys date reply)) VarVal =
      (queryCode (replyText sys date reply) doc).map fun r ↦ ⟨r.1, r.2, [.RecvBuff, .XmlDoc]⟩ := by
  rw [queryReply, if_pos length_replyText, replyDocument_replyText hsys, hparse]

/-- The result of an action is found. -/
theorem actionReply_action {resp : Content} (hsys : sys.Plain date)
    (hname : strstr (nodeName resp) ActName ≠ none)
    (hparse : parse (Reply.action RespStr).body = some [envelope replyStyle [resp]])
    (hnode : parse (dump_doc resp) = some [resp]) :
    actionReply parse ActName (some (replyText sys date (.action RespStr))) RespNode =
      some ⟨UPNP_E_SUCCESS, some [resp], [.XmlDoc, .RecvBuff]⟩ := by
  have hfound : GetActionNode parse [envelope replyStyle [resp]] ActName = (true, some [resp]) := by
    rw [GetActionNode]
    exact (if_neg hname).trans (congrArg (Prod.mk true) hnode)
  rw [actionReply_replyText hsys hparse, actionCode, GetBufferErrorCode_replyText hsys hparse]
  dsimp only
  rw [if_pos (show 0 < (Reply.action RespStr).code from Int.one_pos), hfound]
  rfl

theorem not_pos_code : ¬ 0 < (Reply.failure ErrCode ErrStr).code := by
  show ¬ (0 : Int) < -1
  decide

theorem searchList_error : searchList "UPnPError".toList
    [envelope replyStyle [faultNode ErrCode.1 ErrStr.1]] = [errorNode ErrCode.1 ErrStr.1] := by
  rfl

/-- The code of a failure is found, and its error. -/
theorem actionReply_failure (hsys : sys.Plain date)
    (hparse : parse (Reply.failure ErrCode ErrStr).body =
      some [envelope replyStyle [faultNode ErrCode.1 ErrStr.1]])
    (hnode : parse (dump_doc (errorNode ErrCode.1 ErrStr.1)) =
      some [errorNode ErrCode.1 ErrStr.1]) :
    actionReply parse ActName (some (replyText sys date (.failure ErrCode ErrStr))) RespNode =
      some ⟨ErrCode.1, some [errorNode ErrCode.1 ErrStr.1], [.XmlDoc, .RecvBuff]⟩ := by
  have hfound : GetNode parse [envelope replyStyle [faultNode ErrCode.1 ErrStr.1]]
      "UPnPError".toList RespNode = (true, some [errorNode ErrCode.1 ErrStr.1]) := by
    rw [GetNode, searchList_error]
    exact congrArg (Prod.mk true) hnode
  have hcode : GetNodeValue [envelope replyStyle [faultNode ErrCode.1 ErrStr.1]]
      "errorCode".toList = some (some (decimal ErrCode.1)) := rfl
  rw [actionReply_replyText hsys hparse, actionCode, GetBufferErrorCode_replyText hsys hparse]
  dsimp only
  rw [if_neg not_pos_code, hfound]
  dsimp only
  rw [hcode]
  dsimp only
  rw [Util.atoi_decimal ErrCode.2.1 ErrCode.2.2]
  rfl

/-- The value of a variable is found. -/
theorem queryReply_value {CurrentVal : Option CString} {value : CString} (hsys : sys.Plain date)
    (hparse : parse (Reply.value CurrentVal).body = some [envelope replyStyle [valueNode value]]) :
    queryReply parse (some (replyText sys date (.value CurrentVal))) VarVal =
      some ⟨UPNP_E_SUCCESS, some value, [.RecvBuff, .XmlDoc]⟩ := by
  have hvalue : GetNodeValue [envelope replyStyle [valueNode value]] "return".toList =
      some (some value) := rfl
  rw [queryReply_replyText hsys hparse, queryCode, GetBufferErrorCode_replyText hsys hparse]
  dsimp only
  rw [if_pos (show 0 < (Reply.value CurrentVal).code from Int.one_pos), hvalue]
  rfl

theorem queryReply_failure (hsys : sys.Plain date)
    (hparse : parse (Reply.failure ErrCode ErrStr).body =
      some [envelope replyStyle [faultNode ErrCode.1 ErrStr.1]]) :
    queryReply parse (some (replyText sys date (.failure ErrCode ErrStr))) VarVal =
      some ⟨ErrCode.1, some ErrStr.1, [.RecvBuff, .XmlDoc]⟩ := by
  have hcode : GetNodeValue [envelope replyStyle [faultNode ErrCode.1 ErrStr.1]]
      "errorCode".toList = some (some (decimal ErrCode.1)) := rfl
  have hdescription : GetNodeValue [envelope replyStyle [faultNode ErrCode.1 ErrStr.1]]
      "errorDescription".toList = some (some ErrStr.1) := rfl
  rw [queryReply_replyText hsys hparse, queryCode, GetBufferErrorCode_replyText hsys hparse]
  dsimp only
  rw [if_neg not_pos_code, hcode]
  dsimp only
  rw [hdescription, Util.atoi_decimal ErrCode.2.1 ErrCode.2.2]
  rfl

/-! ## Requests at the device -/

/-- A path that the device finds in the request line, and whose characters it takes for nothing
else. -/
structure PlainPath (Path : CString) : Prop where
  chars : ∀ c ∈ Path, c ≠ '\x00' ∧ c ≠ ' ' ∧ c ≠ '#' ∧ c ≠ '\r'
  http : strstrcase Path "HTTP".toList = none
  length : Path.length < NAME_SIZE

variable {Path Host ServiceType rest : CString}

theorem GetCtrlUrl_request (h : PlainPath Path) (rest : CString) : ∃ Url, GetCtrlUrl
    ("POST".toList ++ ' ' :: (Path ++ ' ' :: ("HTTP/1.".toList ++ rest))) (Buffer.alloc LINE_SIZE) =
      some (1, Url) ∧ Url.str = Path := by
  have hchars : ∀ c ∈ Path, c ≠ '\x00' ∧ c ≠ ' ' := fun c hc ↦
    ⟨(h.chars c hc).1, (h.chars c hc).2.1⟩
  have hplain : UriPlain Path := by
    rw [UriPlain, h.http]
    exact Nat.lt_trans h.length (by decide)
  obtain ⟨Url, hUrl, hholds⟩ := (ctrlUrlRight_iff ⟨.POST, Path, rest, hchars⟩).mpr hplain
  exact ⟨Url, hUrl, Buffer.str_of_holds (fun hc ↦ (hchars _ hc).1 rfl)
    (hholds (Nat.lt_trans h.length (by decide)))⟩

/-- The name of an action is found behind the first `#`. -/
theorem GetActionName_request {before : CString} (hbefore : '#' ∉ before)
    (hword : strstrcase (before ++ '#' :: (ActName ++ '"' :: rest)) "SOAPACTION".toList ≠ none)
    (hname : ∀ c ∈ ActName, isName c = true) (hlength : ActName.length < NAME_SIZE) :
    ∃ Name, GetActionName (before ++ '#' :: (ActName ++ '"' :: rest)) (Buffer.alloc NAME_SIZE) =
      some (1, Name) ∧ some '\x00' ∈ Name ∧ Name.str = ActName := by
  have hnul : '\x00' ∉ ActName := by
    intro hc
    cases isName_nul.symm.trans (hname _ hc)
  have hrun : alnumRun (ActName ++ '"' :: rest) = ActName := by
    have hquote : isName '"' = false := by decide
    rw [alnumRun, List.takeWhile_append_of_pos hname, List.takeWhile_cons_of_neg (by
      rw [hquote]
      exact Bool.false_ne_true), List.append_nil]
  have hhash : HashNames (before ++ '#' :: (ActName ++ '"' :: rest)) ActName := by
    rw [HashNames, strstr_singleton hbefore]
    dsimp only
    rw [List.drop_succ_cons, List.drop_zero, hrun]
    exact ⟨hlength, fun _ ↦ rfl⟩
  obtain ⟨ret, Name, hName, hright⟩ := (nameRight_hash hword hnul).mpr hhash
  obtain ⟨rfl, hholds⟩ := hright hlength
  exact ⟨Name, hName,
    hholds.subset (List.mem_map_of_mem (List.mem_append_right _ List.mem_cons_self)),
    Buffer.str_of_holds hnul hholds⟩

/-! ## Actions -/

/-- An action that is asked for: an element whose name ends in that of the action. -/
structure Asked where
  nsPrefix : CString
  ActName : CString
  attributes : List (CString × CString)
  children : List Content

namespace Asked

/-- The element. -/
def node (a : Asked) : Content :=
  .element (a.nsPrefix ++ ':' :: a.ActName) a.attributes a.children

/-- The element, printed. -/
def text (a : Asked) : CString := dump_doc a.node

/-- The name is of letters and digits and fits its array, there is an attribute behind it, the
element is read back, and its text has no NUL and not the word that is looked for in a request. -/
structure Plain (a : Asked) : Prop where
  nsPrefix : ':' ∉ a.nsPrefix
  alnum : ∀ c ∈ a.ActName, isName c = true
  ne_nil : a.ActName ≠ []
  length : a.ActName.length < NAME_SIZE
  attributes : a.attributes ≠ []
  readable : Readable a.node
  nul : '\x00' ∉ a.text
  word : strstrcase a.text "SOAPACTION".toList = none

/-- The request. -/
def request (a : Asked) (Path ServiceType Host : CString) : CString :=
  (formatPieces Path ServiceType a.ActName Host (requestPieces a.text).flatten).flatten

/-- The parameter of the callback. -/
def call (a : Asked) (DevUDN ServiceID : CString) : Call :=
  .action DevUDN ServiceID a.ActName (some [a.node])

variable {a : Asked} {env : Uri.Env} {ActionURL : CString} {url : Uri.URI} {envs : Envs}
  {ServiceTable : Option (Option (List ServiceInfo))} {app : Call → Answered}
  {DevUDN ServiceID : CString}

/-- The name is copied from the printed element. -/
theorem Plain.actionName (h : a.Plain) : actionName a.text = some a.ActName := by
  obtain ⟨c, rest, htext, hblank, -⟩ :=
    dump_element (a.nsPrefix ++ ':' :: a.ActName) a.attributes a.children
  rw [hblank h.attributes, List.append_assoc, List.cons_append] at htext
  have hstart : strstr a.text ['<'] = some a.text := by
    refine strstr_of_prefix ?_
    rw [text, node, htext]
    exact List.cons_prefix_cons.mpr ⟨rfl, List.nil_prefix⟩
  have hcolon : strstr a.text [':'] = some (':' :: (a.ActName ++ ' ' :: rest)) := by
    rw [text, node, htext, ← List.cons_append]
    refine strstr_singleton ?_ _
    rw [List.mem_cons, not_or]
    exact ⟨by decide, h.nsPrefix⟩
  have hpart : namePart a.text = .copied a.ActName := by
    have hdark : ∀ d ∈ a.ActName, decide (d ≠ ' ') = true := by
      intro d hd
      rw [decide_eq_true_eq]
      rintro rfl
      exact absurd (h.alnum ' ' hd) (by decide)
    rw [namePart, h.word, hstart]
    dsimp only
    rw [hcolon]
    dsimp only
    rw [List.drop_succ_cons, List.drop_zero,
      if_pos (List.mem_append_right _ List.mem_cons_self), List.takeWhile_append_of_pos hdark,
      List.takeWhile_cons_of_neg (by decide), List.append_nil]
  rw [actionName_eq h.nul, hpart]
  exact if_pos h.length

/-- The parts of the request in front of the `#` and behind the name. -/
theorem request_eq (a : Asked) (Path ServiceType Host : CString) : ∃ rest,
    a.request Path ServiceType Host = ("POST ".toList ++ (Path ++
      (" HTTP/1.0\r\nContent-Type: text/xml\r\nSOAPACTION:\"".toList ++ ServiceType))) ++
        '#' :: (a.ActName ++ '"' :: rest) := by
  have hquote : "\"\r\nContent-Length: ".toList = '"' :: "\r\nContent-Length: ".toList := rfl
  rw [request, formatPieces, hquote]
  simp only [List.flatten_cons, List.append_assoc, List.cons_append, List.nil_append]
  exact ⟨_, rfl⟩

theorem areLines_request (hpath : PlainPath Path) (hservice : '\r' ∉ ServiceType)
    (hhost : '\r' ∉ Host) (h : a.Plain) {xml : CString} :
    AreLines ["POST ".toList ++ Path ++ " HTTP/1.0".toList, "Content-Type: text/xml".toList,
      "SOAPACTION:\"".toList ++ ServiceType ++ "#".toList ++ a.ActName ++ "\"".toList,
      "Content-Length: ".toList ++ decimal (announced xml), "Host: ".toList ++ Host] := by
  have hname : '\r' ∉ a.ActName := fun hc ↦ absurd (h.alnum _ hc) (by decide)
  have hPath : '\r' ∉ Path := fun hc ↦ (hpath.chars _ hc).2.2.2 rfl
  intro l hl
  simp only [List.mem_cons, List.not_mem_nil, or_false] at hl
  rcases hl with rfl | rfl | rfl | rfl | rfl
  · refine ⟨List.cons_ne_nil _ _, ?_⟩
    simp only [List.mem_append, not_or]
    exact ⟨⟨by decide, hPath⟩, by decide⟩
  · decide
  · refine ⟨List.cons_ne_nil _ _, ?_⟩
    simp only [List.mem_append, not_or]
    exact ⟨⟨⟨⟨by decide, hservice⟩, by decide⟩, hname⟩, by decide⟩
  · refine ⟨List.cons_ne_nil _ _, ?_⟩
    rw [List.mem_append, not_or]
    exact ⟨by decide, return_notMem_decimal _⟩
  · refine ⟨List.cons_ne_nil _ _, ?_⟩
    rw [List.mem_append, not_or]
    exact ⟨by decide, hhost⟩

/-- The device parses the request. -/
theorem replyDocument_request (hpath : PlainPath Path) (hservice : '\r' ∉ ServiceType)
    (hhost : '\r' ∉ Host) (h : a.Plain) : replyDocument parse (a.request Path ServiceType Host) =
      parse (requestPieces a.text).flatten := by
  rw [request, formatPieces_eq]
  exact replyDocument_httpText (areLines_request hpath hservice hhost h)

/-- **The device calls the application back with the action and its element.** -/
theorem answerRequest_action (h : a.Plain) (hpath : PlainPath Path)
    (hservice : ∀ c ∈ ServiceType, c ≠ '#' ∧ c ≠ '\r') (hhost : '\r' ∉ Host)
    (hquery : strstrcase (a.request Path ServiceType Host) "QueryStateVariable".toList = none)
    (hinfo : deviceInfo envs ServiceTable Path = some (some (DevUDN, ServiceID)))
    (hdoc : parse (requestPieces a.text).flatten = some [envelope requestStyle [a.node]])
    (hnode : parse (dump_doc a.node) = some [a.node]) :
    answerRequest ⟨parse, envs, ServiceTable⟩ app (a.request Path ServiceType Host) =
      some ⟨some (a.call DevUDN ServiceID), (app (a.call DevUDN ServiceID)).actionReply⟩ := by
  have hreturn : '\r' ∉ ServiceType := fun hc ↦ (hservice _ hc).2 rfl
  have hXmlDoc := (replyDocument_request hpath hreturn hhost h).trans hdoc
  obtain ⟨rest, htext⟩ := a.request_eq Path ServiceType Host
  obtain ⟨Url, hUrl, hstr⟩ := GetCtrlUrl_request hpath
    ("0\r\nContent-Type: text/xml\r\nSOAPACTION:\"".toList ++ ServiceType ++
      '#' :: (a.ActName ++ '"' :: rest))
  have hUrl' : GetCtrlUrl (a.request Path ServiceType Host) (Buffer.alloc LINE_SIZE) =
      some (1, Url) := by
    rw [htext, ← hUrl]
    simp only [List.append_assoc]
    rfl
  have hbefore : '#' ∉ "POST ".toList ++ (Path ++
      (" HTTP/1.0\r\nContent-Type: text/xml\r\nSOAPACTION:\"".toList ++ ServiceType)) := by
    simp only [List.mem_append, not_or]
    exact ⟨by decide, fun hc ↦ (hpath.chars _ hc).2.2.1 rfl, by decide,
      fun hc ↦ (hservice _ hc).1 rfl⟩
  have hword : strstrcase (a.request Path ServiceType Host) "SOAPACTION".toList ≠ none := by
    have hfront : "SOAPACTION".toList <+: "SOAPACTION:\"".toList := by decide
    rw [request, formatPieces_eq]
    refine strstrcase_httpText (List.mem_cons_of_mem _ (List.mem_cons_of_mem _ List.mem_cons_self))
      (hfront.trans ?_).isInfix (by decide) _
    simp only [List.append_assoc]
    exact List.prefix_append ..
  rw [htext] at hword
  obtain ⟨Name, hName, hnul, hname⟩ := GetActionName_request hbefore hword h.alnum h.length
  rw [← htext] at hName
  have hfound : GetActionNode parse [envelope requestStyle [a.node]] a.ActName =
      (true, some [a.node]) := by
    have hinfix : strstr (nodeName a.node) a.ActName ≠ none :=
      (strstr_ne_none_iff h.ne_nil).mpr ⟨a.nsPrefix ++ [':'], [], by
        rw [List.append_nil, List.append_assoc]
        rfl⟩
    rw [GetActionNode]
    exact (if_neg hinfix).trans (congrArg (Prod.mk true) hnode)
  rw [answerRequest]
  dsimp only
  rw [hXmlDoc, hUrl']
  dsimp only
  rw [if_pos Int.one_pos, if_pos hquery, answerAction, hName]
  dsimp only
  rw [if_neg (by decide), if_neg (mt contains_eq_false_iff.mp (not_not_intro hnul)), hname,
    hfound, hstr, hinfo]
  rfl

/-- The URL is parsed, the parts of the header fit, and the request is not taken for a query. -/
structure Sendable (a : Asked) (env : Uri.Env) (ActionURL ServiceType : CString) (url : Uri.URI) :
    Prop where
  parsed : Uri.parseString env ActionURL = some (.ok url)
  path : PlainPath (url.pathquery.text ActionURL)
  host : '\r' ∉ url.hostport.text.text ActionURL
  host_length : (url.hostport.text.text ActionURL).length < NAME_SIZE
  service : ∀ c ∈ ServiceType, c ≠ '#' ∧ c ≠ '\r'
  length : a.text.length + 2154 < 2147483648
  header : (url.pathquery.text ActionURL).length + ServiceType.length + a.ActName.length +
    (decimal (a.text.length + 154)).length + (url.hostport.text.text ActionURL).length ≤ 1916
  query : strstrcase (a.request (url.pathquery.text ActionURL) ServiceType
    (url.hostport.text.text ActionURL)) "QueryStateVariable".toList = none

theorem formatRequest_sent {ActName xml : CString} {block sent : Buffer}
    (hurl : Uri.parseString env ActionURL = some (.ok url))
    (hhost : (url.hostport.text.text ActionURL).length < NAME_SIZE)
    (hpath : (url.pathquery.text ActionURL).length < NAME_SIZE)
    (hsent : block.sprintf (formatPieces (url.pathquery.text ActionURL) ServiceType ActName
      (url.hostport.text.text ActionURL) xml).flatten = some sent) :
    formatRequest env ActionURL ServiceType ActName xml block = .sent sent := by
  obtain ⟨r, hr⟩ := Option.isSome_iff_exists.mp ((GetHostHeader_isSome_iff url).mpr ⟨hhost, hpath⟩)
  rw [formatRequest, hurl]
  dsimp only
  rw [hr, eq_of_GetHostHeader hr]
  dsimp only
  rw [hsent]

/-- The control point sends the request. -/
theorem Plain.sends (h : a.Plain) (hsend : a.Sendable env ActionURL ServiceType url) :
    ∃ sent, SoapSendAction env ActionURL ServiceType a.text = .sent sent ∧
      sent.Holds (a.request (url.pathquery.text ActionURL) ServiceType
        (url.hostport.text.text ActionURL)) := by
  have hlength := hsend.length
  have hsize : 0 ≤ wrap32 (a.text.length + 2154) := by
    rw [wrap32_of_range (by omega) (by omega)]
    omega
  have hfits := (format_isSome_iff (length_requestPieces a.text) hsize).mpr
    ⟨hlength.trans (by decide), hsend.header⟩
  rw [request, SoapSendAction_eq h.actionName h.ne_nil,
    allocRequest_eq (length_requestPieces a.text), if_pos hsize]
  generalize Buffer.alloc _ = block at hfits ⊢
  obtain ⟨sent, hsent⟩ := Option.isSome_iff_exists.mp hfits
  exact ⟨sent, formatRequest_sent hsend.parsed hsend.host_length hsend.path.length hsent,
    Buffer.holds_of_sprintf hsent⟩

end Asked

/-! ## Answers to actions -/

variable {n : NextNode}

namespace Answered

/-- What the control point is to get: the result, or the code and the error. -/
def outcome (a : Answered) : Int × Document :=
  match a.result with
  | some ActionResult => (UPNP_E_SUCCESS, ActionResult)
  | none => (a.ErrCode.1, [errorNode a.ErrCode.1 (a.errorText invalidRequest).1])

/-- A result is an element that is read back, whose name has that of the action and whose text has
a length that is an `int` with the envelope; an error text needs no escapes. -/
def ReadsBack (ActName : CString) (a : Answered) : Prop :=
  match a.result with
  | some ActionResult => ∃ resp, ActionResult = [resp] ∧ IsElement resp ∧ Readable resp ∧
      strstr (nodeName resp) ActName ≠ none ∧ (dump_doc resp).length + 157 ≤ 2147483647
  | none => Verbatim (a.errorText invalidRequest).1

end Answered

theorem newline_white : ∀ c ∈ ['\n'], c ∈ WHITESPACE := forall_mem_of_all (by decide)

theorem parses_failure (h : Verbatim ErrStr.1) (n : NextNode) :
    Parses n (Reply.failure ErrCode ErrStr).body
      [envelope replyStyle [faultNode ErrCode.1 ErrStr.1]] := by
  have hparses := parses_envelope (.inr rfl) (@shows_faultInner _ ErrCode.1 h) Parser.nil_white n
  rwa [← failureText_eq] at hparses

theorem length_failure_body : (Reply.failure ErrCode ErrStr).body.length + 1 ≤ 2147483647 :=
  (Nat.succ_le_succ (length_failure ErrCode.2.1 ErrCode.2.2 ErrStr.2)).trans (by decide)

theorem readable_errorNode (h : Verbatim ErrStr.1) : Readable (errorNode ErrCode.1 ErrStr.1) :=
  ⟨readableTag_of_hand (by decide),
    ⟨readableTag_of_hand (by decide), (verbatim_decimal ErrCode.1).readable, trivial⟩,
    trivial, ⟨readableTag_of_hand (by decide), h.readable, trivial⟩, trivial⟩

/-- **The control point gets what the application leaves**: the result of the action, or the code and
the error. -/
theorem action_replied (a : Answered) (h : a.ReadsBack ActName) (hsys : sys.Plain date)
    (n : NextNode) : ∃ reply, a.actionReply = some reply ∧ reply.body.length + 1 ≤ 2147483647 ∧
      ∃ least, ∀ fuel ≥ least, ∀ RespNode,
        actionReply (parseBuffer fuel n) ActName (some (replyText sys date reply)) RespNode =
          some ⟨a.outcome.1, some a.outcome.2, [.XmlDoc, .RecvBuff]⟩ := by
  rw [Answered.ReadsBack] at h
  rw [Answered.actionReply, Answered.outcome]
  cases hresult : a.result with
  | none =>
    rw [hresult] at h
    obtain ⟨least, hparse⟩ := (parses_failure h n).both
      (parses_dump (show IsElement (errorNode a.ErrCode.1 _) from trivial)
        (@readable_errorNode a.ErrCode _ h) n)
    refine ⟨_, rfl, length_failure_body, least, fun fuel hfuel RespNode ↦ ?_⟩
    exact actionReply_failure hsys (hparse fuel hfuel).1 (hparse fuel hfuel).2
  | some ActionResult =>
    rw [hresult] at h
    obtain ⟨resp, rfl, helement, hreadable, hname, hlength⟩ := h
    have hshows := shows_siblings (show ReadableElements [resp] from ⟨helement, hreadable, trivial⟩)
    have hdump : dumpSiblings [resp] = dump_doc resp := by
      rw [dumpSiblings, dumpSiblings, List.append_nil]
    have hbody : (Reply.action (dump_doc resp)).body =
        envelopeText replyStyle (['\n'] ++ dumpSiblings [resp]) [' '] := by
      rw [hdump, ← response_eq]
      rfl
    have hinner : Shows (['\n'] ++ dumpSiblings [resp]) [resp] :=
      (shows_white newline_white).append hshows
    obtain ⟨least, hparse⟩ := (parses_envelope (.inr rfl) hinner Parser.blank_white n).both
      (parses_dump helement hreadable n)
    rw [← hbody] at hparse
    have hprint : printDocument [resp] = some (dump_doc resp) := by
      rw [printDocument, hdump, if_neg]
      cases resp with
      | text => exact helement.elim
      | element =>
        rw [dump_doc]
        exact List.cons_ne_nil _ _
    refine ⟨.action (dump_doc resp), congrArg (Option.map Reply.action) hprint, ?_, least,
      fun fuel hfuel RespNode ↦ actionReply_action hsys hname (hparse fuel hfuel).1
        (hparse fuel hfuel).2⟩
    have hwhole := length_response (dump_doc resp)
    simp only [List.flatten_cons, List.flatten_nil, List.append_nil, List.length_append] at hwhole
    simp only [Reply.body, List.length_append]
    omega

variable {a : Asked} {env : Uri.Env} {ActionURL : CString} {url : Uri.URI} {envs : Envs}
  {ServiceTable : Option (Option (List ServiceInfo))} {app : Call → Answered}
  {DevUDN ServiceID : CString}

theorem linux_plain : linux.Plain "DATE: Mon, 30 Apr 1979 08:49:37 GMT".toList where
  eq := literal_eq_append rfl
  date_ne_nil := by decide
  date_line := by decide
  sysname := by decide
  release := by decide

/-- A system that finds every host. -/
def net : Uri.Env := ⟨true, fun _ ↦ some 1⟩

/-- The service of a lamp. -/
def lamp : ServiceInfo where
  serviceType := some "urn:schemas-upnp-org:service:SwitchPower:1".toList
  serviceId := some "urn:upnp-org:serviceId:SwitchPower".toList
  SCPDURL := some "/SwitchPower.xml".toList
  controlURL := some "http://h/c".toList
  eventURL := some "/e".toList
  UDN := some "uuid:lamp".toList
  active := true

theorem lamp_info : deviceInfo (fun _ ↦ net) (some (some [lamp])) "/c".toList =
    some (some ("uuid:lamp".toList, "urn:upnp-org:serviceId:SwitchPower".toList)) := by
  decide

/-- A lamp is to be switched on. -/
def power : Asked where
  nsPrefix := ['u']
  ActName := "SetTarget".toList
  attributes := [("xmlns:u".toList, "urn:schemas-upnp-org:service:SwitchPower:1".toList)]
  children := []

/-- What is answered. -/
def done : Content := .element "u:SetTargetResponse".toList
  [("xmlns:u".toList, "urn:schemas-upnp-org:service:SwitchPower:1".toList)] []

/-- An application that switches the lamp on, and tells that it is. -/
def switch (_ : Call) : Answered where
  ErrCode := ⟨0, by decide⟩
  ErrStr := ⟨[], by decide⟩
  ActionResult := some [done]
  CurrentVal := some "on".toList

theorem power_plain : power.Plain where
  nsPrefix := by decide
  alnum := List.all_eq_true.mp (show power.ActName.all isName = true by decide)
  ne_nil := by decide
  length := by decide
  attributes := by decide
  readable := ⟨readableTag_of_hand (by decide), trivial⟩
  nul := by decide
  word := by decide


theorem plainPath_c : PlainPath "/c".toList where
  chars := forall_mem_of_all (by decide)
  http := by decide
  length := by decide

def lampURL : CString := "http://h/c".toList

def serviceURN : CString := "urn:schemas-upnp-org:service:SwitchPower:1".toList

/-- The URL of the lamp, parsed. -/
def lampURI : Uri.URI where
  type := .ABSOLUTE
  scheme := ⟨some 0, 4⟩
  path_type := .ABS_PATH
  pathquery := ⟨some 8, 2⟩
  fragment := ⟨none, 0⟩
  hostport := ⟨⟨some 7, 1⟩, 80, 1⟩

theorem lampURI_parsed : Uri.parseString net lampURL = some (.ok lampURI) := by decide

set_option maxRecDepth 8000 in
theorem power_sendable : power.Sendable net lampURL serviceURN lampURI where
  parsed := lampURI_parsed
  path := plainPath_c
  host := by decide
  host_length := by decide
  service := forall_mem_of_all (by decide)
  length := by decide
  header := by decide
  query := strstrcase_eq_none (forall_mem_of_all (by decide))

/-- The system finds the host, the table has the service, and the device parses. -/
def lampDevice (fuel : Nat) : Device :=
  ⟨parseBuffer fuel .reset, fun _ ↦ net, some (some [lamp])⟩

def powerCall : Call :=
  power.call "uuid:lamp".toList "urn:upnp-org:serviceId:SwitchPower".toList

theorem outcome_powerCall : (switch powerCall).outcome = (UPNP_E_SUCCESS, [done]) := rfl

theorem readsBack_powerCall : (switch powerCall).ReadsBack power.ActName :=
  ⟨done, rfl, trivial, ⟨readableTag_of_hand (by decide), trivial⟩, by decide, by decide⟩

/-- The lines of a query. -/
def queryLines (VarName : CString) (blanks : Nat) : List CString :=
  ["CONTENT-LENGTH:".toList ++ decimal ((queryMsg VarName).length + 1) ++
      List.replicate blanks ' ', "CONTENT-TYPE:text/xml".toList,
    "SOAPACTION:urn:schemas-upnp-org:control-1-0#QueryStateVariable".toList]

/-- The control point puts the query together. -/
theorem SoapGetServiceVarStatus_sent {VarName : CString} (hnul : '\x00' ∉ VarName)
    (hlength : VarName.length < NAME_SIZE) : ∃ InBuff blanks,
      SoapGetServiceVarStatus VarName = .sent InBuff ∧
        InBuff.Holds (httpText (queryLines VarName blanks) (queryMsg VarName)) ∧
        (httpText (queryLines VarName blanks) (queryMsg VarName)).length =
          VarName.length + 380 := by
  unfold NAME_SIZE at hlength
  have hmsg := length_queryMsg VarName
  have hwrap : wrap32 ((HEADER_LENGTH : Int) + VarName.length) = VarName.length + 2000 := by
    unfold HEADER_LENGTH
    rw [wrap32_of_range (by omega) (by omega)]
    omega
  have hsize : 0 ≤ wrap32 ((HEADER_LENGTH : Int) + VarName.length) := by
    rw [hwrap]
    omega
  have hblock : VarName.length + 380 <
      (Buffer.alloc (wrap32 ((HEADER_LENGTH : Int) + VarName.length)).toNat).length := by
    rw [Buffer.length_alloc, hwrap]
    omega
  have hdigits : (decimal ((queryMsg VarName).length + 1)).length ≤ 5 := by
    have hle : (decimal ((queryMsg VarName).length + 1)).length ≤ 5 ↔
        (queryMsg VarName).length + 1 < 10 ^ 5 :=
      Nat.length_toDigits_le_iff (by decide) (by decide)
    rw [hle, hmsg]
    omega
  rw [SoapGetServiceVarStatus, if_pos hsize]
  generalize Buffer.alloc _ = block at hblock ⊢
  obtain ⟨rest, hrequest⟩ := queryRequest_eq hblock
  rw [announced_of_lt (by omega)] at hrequest
  obtain ⟨InBuff, hsent, hholds⟩ := @writeNumber_holds (decimal ((queryMsg VarName).length + 1))
    (queryHeader ++ queryMsg VarName) rest (Nat.lt_succ_of_le (hdigits.trans (by decide)))
  obtain ⟨blanks, htext⟩ : ∃ blanks, queryText (decimal ((queryMsg VarName).length + 1)) VarName =
      httpText (queryLines VarName blanks) (queryMsg VarName) := by
    have hshape := isRequest_queryText hnul hdigits
    simpa only [Sending.IsRequest, Sending.body, queryLines] using hshape
  refine ⟨InBuff, blanks, hrequest.trans hsent, ?_, ?_⟩
  · rw [← htext, queryText]
    exact hholds
  · rw [← htext]
    exact length_queryText (hdigits.trans (by decide))

/-- `transferHTTP` sends the bytes behind its own lines. -/
theorem transferHTTP_sent {request toSend : CString} {URL : GenaClient.ParsedURL}
    (hscheme : strcaseEq URL.scheme "http".toList = true) (hhost : URL.hostport.length ≠ 0)
    (hlength : (GenaClient.messageText request toSend URL).length ≤ 2147483647) :
    GenaClient.transferHTTPparsedURL true request toSend URL =
      .done ((GenaClient.messageText request toSend URL).map some) := by
  have hsize : wrap32 (GenaClient.messageText request toSend URL).length =
      (GenaClient.messageText request toSend URL).length :=
    wrap32_of_range (by omega) (by omega)
  have hwithin := (@GenaClient.within_message_iff request toSend URL _ le_rfl).mpr rfl
  rw [GenaClient.transferHTTPparsedURL, GenaClient.messageSize_eq, hsize,
    GenaClient.malloc_true (Int.natCast_nonneg _), hscheme, Int.toNat_natCast]
  rw [if_neg (show ¬ (!true) = true from Bool.false_ne_true), if_neg hhost]
  dsimp only
  cases hfilled : ((Buffer.alloc (GenaClient.messageText request toSend URL).length).sprintf
      (request ++ " ".toList)).bind
        (Buffer.memcpyAll (request.length + 1) (GenaClient.messagePieces request toSend URL)) with
  | none =>
    rw [hfilled] at hwithin
    exact hwithin.elim
  | some block =>
    rw [hfilled] at hwithin
    exact congrArg GenaClient.Outcome.done hwithin

/-- The URL, when it is parsed. -/
def parsedURL (url : Uri.URI) (Url : CString) : GenaClient.ParsedURL :=
  ⟨url.scheme.text Url, url.hostport.text.text Url, url.pathquery.text Url⟩

/-- `transferHTTP` up to the message that it sends; an error is that of `parse_uri`. -/
def transferHTTP (env : Uri.Env) (ok : Bool) (request toSend Url : CString) :
    Option (Except Int GenaClient.Outcome) :=
  match Uri.parseString env Url with
  | none => none
  | some (.error code) => some (.error code)
  | some (.ok url) =>
    some (.ok (GenaClient.transferHTTPparsedURL ok request toSend (parsedURL url Url)))

section Query

variable {VarName : CString} {URL : GenaClient.ParsedURL} {blanks : Nat}

/-- The lines of a query in front of those of the control point. -/
def messageLines (URL : GenaClient.ParsedURL) (lines : List CString) : List CString :=
  ("POST ".toList ++ URL.path ++ " HTTP/1.1".toList) :: ("HOST: ".toList ++ URL.hostport) :: lines

theorem messageText_httpText (URL : GenaClient.ParsedURL) (lines : List CString)
    (body : CString) : GenaClient.messageText "POST".toList (httpText lines body) URL =
      httpText (messageLines URL lines) body := by
  have hget : strcaseEq "POST".toList "GET".toList = false := by decide
  have hversion : " HTTP/1.1\r\nHOST: ".toList = " HTTP/1.1\r\n".toList ++ "HOST: ".toList :=
    literal_eq_append rfl
  have hend : " HTTP/1.1\r\n".toList = " HTTP/1.1".toList ++ "\r\n".toList := literal_eq_append rfl
  have hpost : "POST ".toList = "POST".toList ++ " ".toList := literal_eq_append rfl
  rw [GenaClient.messageText, GenaClient.messagePieces, hget, if_neg Bool.false_ne_true,
    messageLines, httpText_cons, httpText_cons, hversion, hend, hpost]
  simp only [List.flatten_cons, List.flatten_nil, List.append_nil, List.append_assoc]

theorem areLines_query (hpath : PlainPath URL.path) (hhost : '\r' ∉ URL.hostport) :
    AreLines (messageLines URL (queryLines VarName blanks)) := by
  have hPath : '\r' ∉ URL.path := fun hc ↦ (hpath.chars _ hc).2.2.2 rfl
  have hblanks : '\r' ∉ List.replicate blanks ' ' := by
    intro h
    cases List.eq_of_mem_replicate h
  intro l hl
  simp only [messageLines, queryLines, List.mem_cons, List.not_mem_nil, or_false] at hl
  rcases hl with rfl | rfl | rfl | rfl | rfl
  · refine ⟨List.cons_ne_nil _ _, ?_⟩
    simp only [List.mem_append, not_or]
    exact ⟨⟨by decide, hPath⟩, by decide⟩
  · refine ⟨List.cons_ne_nil _ _, ?_⟩
    rw [List.mem_append, not_or]
    exact ⟨by decide, hhost⟩
  · refine ⟨List.cons_ne_nil _ _, ?_⟩
    simp only [List.mem_append, not_or]
    exact ⟨⟨by decide, return_notMem_decimal _⟩, hblanks⟩
  · decide
  · decide

/-- The device takes the message for a query. -/
theorem strstrcase_query (URL : GenaClient.ParsedURL) (body : CString) :
    strstrcase (httpText (messageLines URL (queryLines VarName blanks)) body)
      "QueryStateVariable".toList ≠ none := by
  have hlast : "SOAPACTION:urn:schemas-upnp-org:control-1-0#QueryStateVariable".toList =
      "SOAPACTION:urn:schemas-upnp-org:control-1-0#".toList ++ "QueryStateVariable".toList :=
    literal_eq_append rfl
  have hmem : "SOAPACTION:urn:schemas-upnp-org:control-1-0#QueryStateVariable".toList ∈
      messageLines URL (queryLines VarName blanks) := by
    simp only [messageLines, queryLines, List.mem_cons, true_or, or_true]
  refine strstrcase_httpText hmem ?_ (by decide) body
  rw [hlast]
  exact (List.suffix_append ..).isInfix

/-- **The device calls the application back with the name of the variable.** -/
theorem answerRequest_query (hpath : PlainPath URL.path) (hhost : '\r' ∉ URL.hostport)
    (hlength : VarName.length < NAME_SIZE)
    (hinfo : deviceInfo envs ServiceTable URL.path = some (some (DevUDN, ServiceID)))
    (hdoc : parse (queryMsg VarName) = some [envelope requestStyle [queryNode VarName]]) :
    answerRequest ⟨parse, envs, ServiceTable⟩ app
        (httpText (messageLines URL (queryLines VarName blanks)) (queryMsg VarName)) =
      some ⟨some (.query DevUDN ServiceID VarName),
        some (app (.query DevUDN ServiceID VarName)).valueReply⟩ := by
  have hXmlDoc := (replyDocument_httpText (@areLines_query VarName URL blanks hpath hhost)).trans hdoc
  obtain ⟨Url, hUrl, hstr⟩ := GetCtrlUrl_request hpath ('1' :: ("\r\n".toList ++
    httpText (("HOST: ".toList ++ URL.hostport) :: queryLines VarName blanks) (queryMsg VarName)))
  have hUrl' : GetCtrlUrl (httpText (messageLines URL (queryLines VarName blanks))
      (queryMsg VarName)) (Buffer.alloc LINE_SIZE) = some (1, Url) := by
    rw [← hUrl, messageLines, httpText_cons]
    simp only [List.append_assoc]
    rfl
  have hvar : GetVarName [envelope requestStyle [queryNode VarName]] = some (some VarName) := by
    have hname : strstr "u:QueryStateVariable".toList "QueryStateVariable".toList ≠ none := by decide
    rw [GetVarName]
    exact if_neg hname
  rw [messageLines] at hUrl' ⊢
  generalize hInData : httpText _ (queryMsg VarName) = InData at *
  have hfits : fitsArray (BuffLen InData).toNat (some VarName) = true := by
    have hle := le_BuffLen InData
    unfold HEADER_LENGTH at hle
    unfold NAME_SIZE at hlength
    rw [fitsArray_some_iff]
    omega
  rw [answerRequest]
  dsimp only
  rw [hXmlDoc, hUrl']
  dsimp only
  rw [if_pos Int.one_pos, if_neg (hInData ▸ strstrcase_query URL _), answerQuery, hvar]
  dsimp only
  rw [if_pos hfits, hstr, hinfo]
  dsimp only
  rw [if_pos (fitsArray_some_iff.mpr hlength)]

end Query

/-- What the control point is to get for a variable: its value, or the code and the error. -/
def Answered.valueOutcome (a : Answered) : Int × CString :=
  if a.ErrCode.1 = UPNP_E_SUCCESS then (UPNP_E_SUCCESS, a.CurrentVal.getD "NULL".toList)
  else (a.ErrCode.1, (a.errorText unknownError).1)

theorem parses_value {CurrentVal : Option CString}
    (h : Verbatim (CurrentVal.getD "NULL".toList)) (n : NextNode) :
    Parses n (Reply.value CurrentVal).body
      [envelope replyStyle [valueNode (CurrentVal.getD "NULL".toList)]] := by
  have hparses := parses_envelope (.inr rfl) (shows_valueInner h) Parser.blank_white n
  rwa [← query_eq] at hparses

/-- **The control point gets the value that the application leaves**, or the code and the error. -/
theorem value_replied (a : Answered) (h : Verbatim a.valueOutcome.2)
    (hlength : a.valueOutcome.2.length + 279 ≤ 2147483647) (hsys : sys.Plain date)
    (n : NextNode) : a.valueReply.body.length + 1 ≤ 2147483647 ∧
      ∃ least, ∀ fuel ≥ least, ∀ VarVal,
        queryReply (parseBuffer fuel n) (some (replyText sys date a.valueReply)) VarVal =
          some ⟨a.valueOutcome.1, some a.valueOutcome.2, [.RecvBuff, .XmlDoc]⟩ := by
  rw [Answered.valueOutcome] at h hlength ⊢
  rw [Answered.valueReply]
  by_cases hok : a.ErrCode.1 = UPNP_E_SUCCESS
  · rw [if_pos hok] at h hlength ⊢
    rw [if_pos hok]
    have hwhole := length_query (a.CurrentVal.getD "NULL".toList)
    simp only [List.flatten_cons, List.flatten_nil, List.append_nil, List.length_append] at hwhole
    obtain ⟨least, hparse⟩ := parses_value h n
    refine ⟨?_, least, fun fuel hfuel VarVal ↦ queryReply_value hsys (hparse fuel hfuel)⟩
    dsimp only at hlength
    simp only [Reply.body, List.length_append]
    omega
  · rw [if_neg hok] at h hlength ⊢
    rw [if_neg hok]
    obtain ⟨least, hparse⟩ := parses_failure h n
    exact ⟨length_failure_body, least,
      fun fuel hfuel VarVal ↦ queryReply_failure hsys (hparse fuel hfuel)⟩

/-- The URL is parsed, the message has a length that is an `int`, and the name of the variable needs
no escapes. -/
structure Queryable (env : Uri.Env) (ActionURL VarName : CString) (url : Uri.URI) : Prop where
  parsed : Uri.parseString env ActionURL = some (.ok url)
  scheme : strcaseEq (parsedURL url ActionURL).scheme "http".toList = true
  path : PlainPath (parsedURL url ActionURL).path
  host : '\r' ∉ (parsedURL url ActionURL).hostport
  host_length : (parsedURL url ActionURL).hostport.length ≠ 0
  name : Verbatim VarName
  name_length : VarName.length < NAME_SIZE
  length : (parsedURL url ActionURL).path.length + (parsedURL url ActionURL).hostport.length +
    VarName.length + 405 ≤ 2147483647

theorem length_messageText (toSend : CString) (URL : GenaClient.ParsedURL) :
    (GenaClient.messageText "POST".toList toSend URL).length =
      URL.path.length + URL.hostport.length + toSend.length + 24 := by
  have hget : strcaseEq "POST".toList "GET".toList = false := by decide
  have h₁ : "POST".toList.length = 4 := length_literal rfl
  have h₂ : " ".toList.length = 1 := length_literal rfl
  have h₃ : " HTTP/1.1\r\nHOST: ".toList.length = 17 := length_literal rfl
  have h₄ : "\r\n".toList.length = 2 := length_literal rfl
  rw [GenaClient.messageText, GenaClient.messagePieces, hget, if_neg Bool.false_ne_true]
  simp only [List.flatten_cons, List.flatten_nil, List.length_append, List.length_nil, h₁, h₂, h₃,
    h₄]
  omega

theorem httpText_append (lines : List CString) (body behind : CString) :
    httpText lines (body ++ behind) = httpText lines body ++ behind := by
  simp only [httpText, List.append_assoc]

theorem transferHTTP_parsed (h : Uri.parseString env ActionURL = some (.ok url)) (ok : Bool)
    (request toSend : CString) : transferHTTP env ok request toSend ActionURL =
      some (.ok (GenaClient.transferHTTPparsedURL ok request toSend (parsedURL url ActionURL))) := by
  rw [transferHTTP, h]

/-- `transferHTTP` sends the query behind its own lines. -/
theorem Queryable.transferHTTP_eq {VarName : CString} {blanks : Nat}
    (h : Queryable env ActionURL VarName url)
    (hlength : (httpText (queryLines VarName blanks) (queryMsg VarName)).length =
      VarName.length + 380) :
    Soap.transferHTTP env true "POST".toList
        (httpText (queryLines VarName blanks) (queryMsg VarName) ++ ['\x00']) ActionURL =
      some (.ok (.done ((httpText (messageLines (parsedURL url ActionURL)
        (queryLines VarName blanks)) (queryMsg VarName) ++ ['\x00']).map some))) := by
  have hmessage : (GenaClient.messageText "POST".toList
      (httpText (queryLines VarName blanks) (queryMsg VarName) ++ ['\x00'])
      (parsedURL url ActionURL)).length ≤ 2147483647 := by
    have hbound := h.length
    have hcount := length_messageText (httpText (queryLines VarName blanks) (queryMsg VarName) ++
      ['\x00']) (parsedURL url ActionURL)
    rw [List.length_append, hlength, List.length_singleton] at hcount
    omega
  rw [transferHTTP_parsed h.parsed, transferHTTP_sent h.scheme h.host_length hmessage,
    ← httpText_append, messageText_httpText, httpText_append]

theorem Queryable.transferHTTP {VarName : CString} {blanks : Nat}
    (h : Queryable env ActionURL VarName url)
    (hlength : (httpText (queryLines VarName blanks) (queryMsg VarName)).length =
      VarName.length + 380) : ∃ message,
    Soap.transferHTTP env true "POST".toList
        (httpText (queryLines VarName blanks) (queryMsg VarName) ++ ['\x00']) ActionURL =
      some (.ok (.done message)) ∧
    message.Holds (httpText (messageLines (parsedURL url ActionURL) (queryLines VarName blanks))
      (queryMsg VarName)) :=
  ⟨_, h.transferHTTP_eq hlength, List.prefix_rfl⟩

theorem power_queryable : Queryable net lampURL "Target".toList lampURI where
  parsed := lampURI_parsed
  scheme := by decide
  path := plainPath_c
  host := by decide
  host_length := by decide
  name := verbatim_of_plain (forall_mem_of_all (by decide)) ⟨'T', by decide, by decide⟩
  name_length := by decide
  length := by decide

def targetCall : Call :=
  .query "uuid:lamp".toList "urn:upnp-org:serviceId:SwitchPower".toList "Target".toList

theorem valueOutcome_targetCall :
    (switch targetCall).valueOutcome = (UPNP_E_SUCCESS, "on".toList) := rfl

end Upnp.Soap
