import Upnp.Lib.Strcat
import Upnp.Soap.CtrlUrl

/-!
# Replies to control requests

The reply is put together in a block that is sized from the request and from what the application
returns, in `int`s.  The body is sent with its NUL, which its `CONTENT-LENGTH` counts.
-/

namespace Upnp.Soap

open Upnp.Lib

def HEADER_LENGTH : Nat := 2000

/-! ## The texts -/

/-- What the reply takes from the system: the date line and the names that `uname` gives, in their
arrays. -/
structure System where
  date : CString
  sysname : CString
  release : CString
  date_length : date.length < 40
  sysname_length : sysname.length < 65
  release_length : release.length < 65

/-- The number that `CONTENT-LENGTH` announces for a body: a `size_t` printed by `%d`. -/
def announced (xml : CString) : Int := wrap32 (xml.length + 1)

/-- The pieces that `AddResponseHeader` writes one behind the other. -/
def responsePieces (sys : System) (First xml : CString) : List CString :=
  [First ++ "CONTENT-LENGTH:".toList ++ decimal (announced xml) ++ "\r\n".toList,
    "CONTENT-TYPE:text/xml\r\n".toList ++ sys.date ++ "EXT:\r\nSERVER:".toList ++ sys.sysname ++
      "/".toList ++ sys.release ++ " UPnP/1.0 Intel UPnP SDK/1.0\r\n\r\n".toList,
    xml]

/-- `AddResponseHeader`. -/
def AddResponseHeader (sys : System) (First : CString) (OutBuff : Buffer) (XmlBuff : CString) :
    Option Buffer :=
  OutBuff.strcatAll 0 (responsePieces sys First XmlBuff)

/-- `XmlBuf` is allocated for a text and an allowance, the pieces are put together in it, and the
header is put in front. -/
def createReply (sys : System) (First : CString) (OutBuf : Buffer) (len : Nat)
    (xmlPieces : List CString) : Option Buffer :=
  ((Buffer.alloc (HEADER_LENGTH + len)).strcatAll 0 xmlPieces).bind fun _ ↦
    AddResponseHeader sys First OutBuf xmlPieces.flatten

/-- `S` of `CreateControlResponse`. -/
def responseStart : CString :=
  "<s:Envelope xmlns:s=\"http://schemas.xmlsoap.org/soap/envelope/\" s:encodingStyle=\"http://schemas.xmlsoap.org/soap/encoding/\"><s:Body>\n".toList

/-- `E` of `CreateControlResponse`. -/
def responseEnd : CString := "</s:Body> </s:Envelope>".toList

/-- `CreateControlResponse`. -/
def CreateControlResponse (sys : System) (OutBuf : Buffer) (ActBuf : CString) : Option Buffer :=
  createReply sys "HTTP/1.1 200 OK\r\n".toList OutBuf ActBuf.length
    [responseStart, ActBuf, responseEnd]

/-- `S` of `CreateControlFailure`. -/
def failureStart : CString :=
  "<s:Envelope xmlns:s=\"http://schemas.xmlsoap.org/soap/envelope/\" s:encodingStyle=\"http://schemas.xmlsoap.org/soap/encoding/\"><s:Body><s:Fault><faultcode>s:Client</faultcode><faultstring>UPnPError</faultstring><detail><UPnPError xmlns=\"urn:schemas-upnp-org:control-1-0\"><errorCode>".toList

/-- `E` of `CreateControlFailure`. -/
def failureEnd : CString := "</UPnPError></detail></s:Fault></s:Body></s:Envelope>".toList

/-- The one piece that `CreateControlFailure` formats. -/
def failureText (ErrCode : Int) (ErrStr : CString) : CString :=
  failureStart ++ decimal ErrCode ++ "</errorCode><errorDescription>".toList ++ ErrStr ++
    "</errorDescription>".toList ++ failureEnd

/-- `CreateControlFailure`; its callers give it an error string. -/
def CreateControlFailure (sys : System) (OutBuf : Buffer) (ErrCode : Int) (ErrStr : CString) :
    Option Buffer :=
  createReply sys "HTTP/1.1 500 Internal Server Error\r\n".toList OutBuf ErrStr.length
    [failureText ErrCode ErrStr]

/-- `S` of `CreateControlQueryResponse`. -/
def queryStart : CString :=
  "<s:Envelope xmlns:s=\"http://schemas.xmlsoap.org/soap/envelope/\" s:encodingStyle=\"http://schemas.xmlsoap.org/soap/encoding/\"><s:Body><u:QueryStateVariableResponse xmlns:u=\"urn:schemas-upnp-org:control-1-0\"><return>".toList

/-- `E` of `CreateControlQueryResponse`. -/
def queryEnd : CString :=
  "</return> </u:QueryStateVariableResponse> </s:Body> </s:Envelope>".toList

/-- `CreateControlQueryResponse`. -/
def CreateControlQueryResponse (sys : System) (OutBuf : Buffer) (Var : CString) : Option Buffer :=
  createReply sys "HTTP/1.1 200 OK\r\n".toList OutBuf Var.length [queryStart, Var, queryEnd]

/-! ## The block of the reply -/

/-- What is replied: the printed result of an action, the value of a variable (`none` for the null
pointer), or an error, of which the description is in an array of `LINE_SIZE` or a literal. -/
inductive Reply where
  | action (RespStr : CString)
  | value (CurrentVal : Option CString)
  | failure (ErrCode : { code : Int // -2147483648 ≤ code ∧ code ≤ 2147483647 })
      (ErrStr : { text : CString // text.length < LINE_SIZE })

/-- `BuffLen` for a request. -/
def BuffLen (InData : CString) : Int :=
  let len := wrap32 (InData.length + 1)
  if len < HEADER_LENGTH then HEADER_LENGTH else len

/-- The size of `InStr` when a text goes into the reply: that of the request, or a new one. -/
def inStrSize (InData text : CString) : Nat :=
  if wrap32 text.length > |BuffLen InData - HEADER_LENGTH| then text.length + HEADER_LENGTH
  else (BuffLen InData).toNat

/-- The reply that `ProcessSoapEventPacket` puts together in `InStr`. -/
def respond (sys : System) (InData : CString) : Reply → Option Buffer
  | .action RespStr =>
    CreateControlResponse sys (Buffer.alloc (inStrSize InData RespStr)) RespStr
  | .value (some CurrentVal) =>
    CreateControlQueryResponse sys (Buffer.alloc (inStrSize InData CurrentVal)) CurrentVal
  | .value none =>
    CreateControlQueryResponse sys (Buffer.alloc (BuffLen InData).toNat) "NULL".toList
  | .failure ErrCode ErrStr =>
    CreateControlFailure sys (Buffer.alloc (BuffLen InData).toNat) ErrCode.1 ErrStr.1

namespace Reply

/-- The body of the reply. -/
def body : Reply → CString
  | action RespStr => responseStart ++ RespStr ++ responseEnd
  | value CurrentVal => queryStart ++ CurrentVal.getD "NULL".toList ++ queryEnd
  | failure ErrCode ErrStr => failureText ErrCode.1 ErrStr.1

/-- The status line. -/
def status : Reply → CString
  | action _ | value _ => "HTTP/1.1 200 OK\r\n".toList
  | failure .. => "HTTP/1.1 500 Internal Server Error\r\n".toList

end Reply

/-! ## Lengths -/

variable {sys : System} {InData xml First text : CString} {OutBuf : Buffer} {n len : Nat}
  {xmlPieces : List CString}

/-- An `int` has at most ten digits and a sign. -/
theorem length_decimal_int {x : Int} (hl : -2147483648 ≤ x) (hu : x ≤ 2147483647) :
    (decimal x).length ≤ 11 := by
  cases x with
  | ofNat n =>
    have hn : (Nat.toDigits 10 n).length ≤ 10 := by
      rw [Nat.length_toDigits_le_iff (by decide) (by decide)]
      have hu' : (n : Int) ≤ 2147483647 := hu
      omega
    exact Nat.le_succ_of_le hn
  | negSucc n =>
    have hn : (Nat.toDigits 10 (n + 1)).length ≤ 10 := by
      rw [Nat.length_toDigits_le_iff (by decide) (by decide)]
      omega
    exact Nat.succ_le_succ hn

theorem length_announced (xml : CString) : (decimal (announced xml)).length ≤ 11 :=
  length_decimal_int (wrap32_range _).1 (wrap32_range _).2

/-- The lines in front of a body. -/
theorem length_responsePieces (sys : System) (First xml : CString) :
    (responsePieces sys First xml).flatten.length ≤ First.length + xml.length + 264 := by
  have h₁ : "CONTENT-LENGTH:".toList.length = 15 := length_literal rfl
  have h₂ : "\r\n".toList.length = 2 := length_literal rfl
  have h₃ : "CONTENT-TYPE:text/xml\r\n".toList.length = 23 := length_literal rfl
  have h₄ : "EXT:\r\nSERVER:".toList.length = 13 := length_literal rfl
  have h₅ : "/".toList.length = 1 := length_literal rfl
  have h₆ : " UPnP/1.0 Intel UPnP SDK/1.0\r\n\r\n".toList.length = 32 := length_literal rfl
  have hdecimal := length_announced xml
  have hdate := sys.date_length
  have hsysname := sys.sysname_length
  have hrelease := sys.release_length
  simp only [responsePieces, List.flatten_cons, List.flatten_nil, List.length_append,
    List.length_nil, h₁, h₂, h₃, h₄, h₅, h₆]
  omega

/-- A reply whose parts fit is put together whole. -/
theorem createReply_holds (hne : xmlPieces ≠ [])
    (hxml : xmlPieces.flatten.length < HEADER_LENGTH + len) (hFirst : First.length ≤ 36)
    (hout : xmlPieces.flatten.length + 300 < OutBuf.length) :
    ∃ block, createReply sys First OutBuf len xmlPieces = some block ∧
      block.Holds (responsePieces sys First xmlPieces.flatten).flatten := by
  obtain ⟨XmlBuf, hXmlBuf, -, -⟩ := @Buffer.strcatAll_holds _ (Buffer.alloc (HEADER_LENGTH + len))
    hne (by rwa [Buffer.length_alloc])
  have hlen := length_responsePieces sys First xmlPieces.flatten
  obtain ⟨block, hblock, hholds, -⟩ := @Buffer.strcatAll_holds
    (responsePieces sys First xmlPieces.flatten) OutBuf (List.cons_ne_nil _ _) (by omega)
  refine ⟨block, ?_, hholds⟩
  rw [createReply, hXmlBuf, Option.bind_some, AddResponseHeader, hblock]

theorem le_BuffLen (InData : CString) : (HEADER_LENGTH : Int) ≤ BuffLen InData := by
  rw [BuffLen]
  split
  · exact le_rfl
  · rename_i h
    exact not_lt.mp h

/-- The block has room for a text and an allowance of `HEADER_LENGTH`. -/
theorem le_inStrSize (InData : CString) (h : text.length ≤ 2147483647) :
    text.length + HEADER_LENGTH ≤ inStrSize InData text := by
  have hlen := le_BuffLen InData
  rw [inStrSize]
  generalize BuffLen InData = len at *
  rw [wrap32_of_range (by omega) (by omega), abs_of_nonneg (by omega)]
  split <;> omega

set_option maxRecDepth 4000 in
theorem length_query (text : CString) :
    ([queryStart, text, queryEnd] : List CString).flatten.length = text.length + 278 := by
  have h₁ : queryStart.length = 213 := length_literal rfl
  have h₂ : queryEnd.length = 65 := length_literal rfl
  simp only [List.flatten_cons, List.flatten_nil, List.length_append, List.length_nil, h₁, h₂]
  omega

set_option maxRecDepth 4000 in
theorem length_response (text : CString) :
    ([responseStart, text, responseEnd] : List CString).flatten.length = text.length + 156 := by
  have h₁ : responseStart.length = 133 := length_literal rfl
  have h₂ : responseEnd.length = 23 := length_literal rfl
  simp only [List.flatten_cons, List.flatten_nil, List.length_append, List.length_nil, h₁, h₂]
  omega

set_option maxRecDepth 4000 in
theorem length_failure {ErrCode : Int} {ErrStr : CString} (hl : -2147483648 ≤ ErrCode)
    (hu : ErrCode ≤ 2147483647) (hErrStr : ErrStr.length < LINE_SIZE) :
    (failureText ErrCode ErrStr).length ≤ 571 := by
  have h₁ : failureStart.length = 279 := length_literal rfl
  have h₂ : failureEnd.length = 53 := length_literal rfl
  have h₃ : "</errorCode><errorDescription>".toList.length = 30 := length_literal rfl
  have h₄ : "</errorDescription>".toList.length = 19 := length_literal rfl
  have hdecimal := length_decimal_int hl hu
  simp only [failureText, List.length_append, h₁, h₂, h₃, h₄]
  unfold LINE_SIZE at hErrStr
  omega

/-! ## Replies -/

/-- What is to hold of a reply: its text is put together within the blocks, and announces the body
with the NUL that is sent with it. -/
def ResponseRight (sys : System) (InData : CString) (reply : Reply) : Prop :=
  ∃ block, respond sys InData reply = some block ∧
    block.Holds (responsePieces sys reply.status reply.body).flatten ∧
    announced reply.body = reply.body.length + 1

theorem respond_holds (sys : System) (InData : CString) (reply : Reply)
    (h : reply.body.length + 1 ≤ 2147483647) : ∃ block, respond sys InData reply = some block ∧
      block.Holds (responsePieces sys reply.status reply.body).flatten := by
  have hok : "HTTP/1.1 200 OK\r\n".toList.length ≤ 36 :=
    (length_literal rfl).trans_le (Nat.le_add_right 17 19)
  have herror : "HTTP/1.1 500 Internal Server Error\r\n".toList.length ≤ 36 :=
    (length_literal rfl).trans_le le_rfl
  have hsize := le_BuffLen InData
  cases reply with
  | action RespStr =>
    have hxml := length_response RespStr
    have hbody : (Reply.action RespStr).body =
        ([responseStart, RespStr, responseEnd] : List CString).flatten := by
      simp [Reply.body]
    rw [hbody, hxml] at h
    have hroom := @le_inStrSize RespStr InData (by omega)
    rw [hbody, respond, CreateControlResponse]
    unfold HEADER_LENGTH at hroom
    refine createReply_holds (List.cons_ne_nil _ _) ?_ hok ?_
    · unfold HEADER_LENGTH
      omega
    · rw [Buffer.length_alloc]
      omega
  | value CurrentVal =>
    have hxml := length_query (CurrentVal.getD "NULL".toList)
    have hbody : (Reply.value CurrentVal).body =
        ([queryStart, CurrentVal.getD "NULL".toList, queryEnd] : List CString).flatten := by
      simp [Reply.body]
    rw [hbody, hxml] at h
    rw [hbody]
    cases CurrentVal with
    | none =>
      rw [respond, CreateControlQueryResponse]
      have hnull : "NULL".toList.length = 4 := length_literal rfl
      rw [Option.getD_none, hnull] at hxml
      unfold HEADER_LENGTH at hsize
      refine createReply_holds (List.cons_ne_nil _ _) ?_ hok ?_
      · unfold HEADER_LENGTH
        omega
      · rw [Buffer.length_alloc, hxml]
        omega
    | some CurrentVal =>
      rw [Option.getD_some] at h hxml
      have hroom := @le_inStrSize CurrentVal InData (by omega)
      rw [respond, CreateControlQueryResponse]
      unfold HEADER_LENGTH at hroom
      refine createReply_holds (List.cons_ne_nil _ _) ?_ hok ?_
      · unfold HEADER_LENGTH
        omega
      · rw [Buffer.length_alloc]
        omega
  | failure ErrCode ErrStr =>
    have hxml := length_failure ErrCode.2.1 ErrCode.2.2 ErrStr.2
    have hbody : (Reply.failure ErrCode ErrStr).body =
        ([failureText ErrCode.1 ErrStr.1] : List CString).flatten := by
      rw [List.flatten_singleton]
      rfl
    have hflat : ([failureText ErrCode.1 ErrStr.1] : List CString).flatten.length ≤ 571 := by
      rwa [List.flatten_singleton]
    rw [hbody, respond, CreateControlFailure]
    unfold HEADER_LENGTH at hsize
    refine createReply_holds (List.cons_ne_nil _ _) ?_ herror ?_
    · unfold HEADER_LENGTH
      omega
    · rw [Buffer.length_alloc]
      omega

/-- For every request and every reply, the text is as it should be exactly when its body with the
NUL has a length that is an `int`. -/
theorem responseRight_iff (sys : System) (InData : CString) (reply : Reply) :
    ResponseRight sys InData reply ↔ reply.body.length + 1 ≤ 2147483647 := by
  constructor
  · rintro ⟨-, -, -, hlen⟩
    have hrange := (wrap32_range (reply.body.length + 1)).2
    rw [announced] at hlen
    omega
  · intro h
    obtain ⟨block, hblock, hholds⟩ := respond_holds sys InData reply h
    refine ⟨block, hblock, hholds, ?_⟩
    rw [announced]
    exact wrap32_of_range (by omega) (by omega)

/-- Names and a date of a system. -/
def linux : System where
  date := "DATE: Mon, 30 Apr 1979 08:49:37 GMT\r\n".toList
  sysname := "Linux".toList
  release := "2.4".toList
  date_length := by decide +kernel
  sysname_length := by decide
  release_length := by decide

/-- The value of a variable with `2^31` characters. -/
theorem not_responseRight : ¬ ∀ sys InData reply, ResponseRight sys InData reply := by
  intro h
  have hright := (h linux "POST /c HTTP/1.0\r\n\r\n".toList
    (.value (some (List.replicate 2147483648 'a'))))
  obtain ⟨-, -, -, hlen⟩ := hright
  have hrange := (wrap32_range
    ((Reply.value (some (List.replicate 2147483648 'a'))).body.length + 1)).2
  rw [announced] at hlen
  have hlong : 2147483648 ≤
      (Reply.value (some (List.replicate 2147483648 'a'))).body.length := by
    rw [Reply.body, Option.getD_some, List.length_append, List.length_append,
      List.length_replicate]
    omega
  omega

end Upnp.Soap
