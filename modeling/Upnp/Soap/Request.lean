import Upnp.Soap.ActionName
import Upnp.Soap.Response
import Upnp.Uri.ResolveRelUrl

/-!
# Control requests

The texts that `SoapSendAction` and `SoapGetServiceVarStatus` put together before they send: each
goes into a block with a fixed allowance for the header, whatever the parts of the header are.
-/

namespace Upnp.Soap

open Upnp.Lib

def XML_HEADER : Nat := 300
def UPNP_E_OUTOF_MEMORY : Int := -104
def UPNP_E_INVALID_URL : Int := -108
def UPNP_E_INVALID_ACTION : Int := -115

/-- What becomes of a request. -/
inductive Outcome where
  /-- Nothing is sent. -/
  | returned (retCode : Int)
  /-- A byte is written outside of its block, or read behind the end of a text. -/
  | fault
  /-- The text in the block is sent, with its NUL. -/
  | sent (block : Buffer)

/-! ## `SoapSendAction` -/

/-- `S` of `CreateControlRequest`. -/
def requestStart : CString :=
  "<s:Envelope xmlns:s=\"http://schemas.xmlsoap.org/soap/envelope/\" s:encodingStyle=\"http://schemas.xmlsoap.org/soap/encoding\"><s:Body>".toList

/-- `E` of `CreateControlRequest`. -/
def requestEnd : CString := "</s:Body></s:Envelope>".toList

/-- The pieces that `CreateControlRequest` copies. -/
def requestPieces (ActBuf : CString) : List CString := [requestStart, ActBuf, requestEnd]

/-- The parts of the text that `SoapSendAction` formats in `RqstBuff`. -/
def formatPieces (Path ServiceType ActName Host xml : CString) : List CString :=
  ["POST ".toList, Path, " HTTP/1.0\r\nContent-Type: text/xml\r\nSOAPACTION:\"".toList,
    ServiceType, ['#'], ActName, "\"\r\nContent-Length: ".toList, decimal (announced xml),
    "\r\nHost: ".toList, Host, "\r\n\r\n".toList, xml]

/-- `GetHostHeader`, the copies to `Host` and `Path`. -/
def GetHostHeader (CtrlUrl : CString) (parsed_url : Uri.URI) : Option (CString × CString) :=
  let host := parsed_url.hostport.text.text CtrlUrl
  let path := parsed_url.pathquery.text CtrlUrl
  match (Buffer.alloc NAME_SIZE).sprintf host, (Buffer.alloc NAME_SIZE).sprintf path with
  | some _, some _ => some (host, path)
  | _, _ => none

/-- The name that `SoapSendAction` has in `ActName`: `none` for a fault, and the empty name when
`GetActionName` refuses. -/
def actionName (ActBuf : CString) : Option CString :=
  (GetActionName ActBuf (List.replicate NAME_SIZE (some '\x00'))).map fun r ↦
    if r.1 < 0 then [] else r.2.str

/-- `SoapSendAction` from the parsing of the URL on: the request is formatted in its block. -/
def formatRequest (env : Uri.Env) (ActionURL ServiceType ActName xml : CString)
    (RqstBuff : Buffer) : Outcome :=
  match Uri.parseString env ActionURL with
  | none => .fault
  | some (.error _) => .returned UPNP_E_INVALID_URL
  | some (.ok parsed_url) =>
    match GetHostHeader ActionURL parsed_url with
    | none => .fault
    | some (Host, Path) =>
      match RqstBuff.sprintf (formatPieces Path ServiceType ActName Host xml).flatten with
      | none => .fault
      | some RqstBuff => .sent RqstBuff

/-- `SoapSendAction` from the memory for the request on; there is no block of a negative number of
bytes. -/
def allocRequest (env : Uri.Env) (ActionURL ServiceType ActName xml : CString) : Outcome :=
  if 0 ≤ wrap32 (HEADER_LENGTH + xml.length + 1) then
    formatRequest env ActionURL ServiceType ActName xml
      (Buffer.alloc (wrap32 (HEADER_LENGTH + xml.length + 1)).toNat)
  else .returned UPNP_E_OUTOF_MEMORY

/-- `SoapSendAction` up to what it sends, for a printed action node. -/
def SoapSendAction (env : Uri.Env) (ActionURL ServiceType ActBuf : CString) : Outcome :=
  match actionName ActBuf with
  | none => .fault
  | some ActName =>
    if ActName.length < 1 then .returned UPNP_E_INVALID_ACTION
    else
      match (Buffer.alloc (ActBuf.length + XML_HEADER)).strcatAll 0 (requestPieces ActBuf) with
      | none => .fault
      | some _ => allocRequest env ActionURL ServiceType ActName (requestPieces ActBuf).flatten

/-! ## `SoapGetServiceVarStatus` -/

/-- The header of the query up to its number. -/
def numberHeader : CString := "CONTENT-LENGTH:".toList

/-- The header of the query behind the number and its blanks. -/
def queryHeader : CString :=
  "CONTENT-TYPE:text/xml\r\nSOAPACTION:urn:schemas-upnp-org:control-1-0#QueryStateVariable\r\n\r\n".toList

/-- `S` of `CreateControlQueryMsg`. -/
def queryMsgStart : CString :=
  "<s:Envelope xmlns:s=\"http://schemas.xmlsoap.org/soap/envelope/\" s:encodingStyle=\"http://schemas.xmlsoap.org/soap/encoding\"><s:Body> <u:QueryStateVariable xmlns:u=\"urn:schemas-upnp-org:control-1-0\"> <u:varName>".toList

/-- `E` of `CreateControlQueryMsg`. -/
def queryMsgEnd : CString :=
  "</u:varName> </u:QueryStateVariable> </s:Body> </s:Envelope>".toList

/-- What `CreateControlQueryMsg` makes. -/
def queryMsg (VarName : CString) : CString := queryMsgStart ++ VarName ++ queryMsgEnd

/-- `LenBuf` is an array of 7. -/
def LENBUF_SIZE : Nat := 7

/-- The blanks that the number is written over, and the end of the line. -/
def placeholder : CString := "     \r\n".toList

/-- The number is printed and written over the blanks. -/
def writeNumber (number : CString) (InBuff : Buffer) : Outcome :=
  match (Buffer.alloc LENBUF_SIZE).sprintf number with
  | none => .fault
  | some _ =>
    match InBuff.memcpy numberHeader.length number with
    | none => .fault
    | some InBuff => .sent InBuff

/-- `SoapGetServiceVarStatus` from its block on. -/
def queryRequest (VarName : CString) (InBuff : Buffer) : Outcome :=
  match InBuff.strcatAll 0 [numberHeader ++ placeholder, queryHeader, queryMsgStart, VarName,
      queryMsgEnd] with
  | none => .fault
  | some InBuff => writeNumber (decimal (announced (queryMsg VarName))) InBuff

/-- `SoapGetServiceVarStatus` up to what it hands over to `transferHTTP`. -/
def SoapGetServiceVarStatus (VarName : CString) : Outcome :=
  if 0 ≤ wrap32 (HEADER_LENGTH + VarName.length) then
    queryRequest VarName (Buffer.alloc (wrap32 (HEADER_LENGTH + VarName.length)).toNat)
  else .returned UPNP_E_OUTOF_MEMORY

/-! ## What a request is -/

/-- Lines, each with its line end, an empty line and a body. -/
def httpText (lines : List CString) (body : CString) : CString :=
  lines.flatMap (· ++ "\r\n".toList) ++ "\r\n".toList ++ body

/-- A request that is put together: for a printed action node, and for a variable. -/
inductive Sending where
  | action (ActionURL ServiceType ActBuf : CString) (hnul : '\x00' ∉ ActBuf)
  | query (VarName : CString) (hnul : '\x00' ∉ VarName)

namespace Sending

/-- The run up to what is sent. -/
def run (env : Uri.Env) : Sending → Outcome
  | action ActionURL ServiceType ActBuf _ => SoapSendAction env ActionURL ServiceType ActBuf
  | query VarName _ => SoapGetServiceVarStatus VarName

/-- The body of the request. -/
def body : Sending → CString
  | action _ _ ActBuf _ => (requestPieces ActBuf).flatten
  | query VarName _ => queryMsg VarName

/-- A text is a request: its lines announce the body with its NUL. -/
def IsRequest (s : Sending) (text : CString) : Prop :=
  match s with
  | action _ ServiceType _ _ => ∃ Path ActName Host, text =
      httpText ["POST ".toList ++ Path ++ " HTTP/1.0".toList, "Content-Type: text/xml".toList,
        "SOAPACTION:\"".toList ++ ServiceType ++ "#".toList ++ ActName ++ "\"".toList,
        "Content-Length: ".toList ++ decimal (s.body.length + 1), "Host: ".toList ++ Host] s.body
  | query _ _ => ∃ blanks, text =
      httpText ["CONTENT-LENGTH:".toList ++ decimal (s.body.length + 1) ++
        List.replicate blanks ' ', "CONTENT-TYPE:text/xml".toList,
        "SOAPACTION:urn:schemas-upnp-org:control-1-0#QueryStateVariable".toList] s.body

/-- Nothing is written outside, and what is sent is a request. -/
def Accepts (s : Sending) : Outcome → Prop
  | .fault => False
  | .returned _ => True
  | .sent block => ∃ text, block.Holds text ∧ s.IsRequest text

/-- What is to hold of the run. -/
def Right (env : Uri.Env) (s : Sending) : Prop := s.Accepts (s.run env)

/-- There is no memory for the request of an action, or the URL is refused, or its host and its path
fit their arrays and the header its allowance. -/
def HeaderFits (env : Uri.Env) (ActionURL ServiceType ActBuf ActName : CString) : Prop :=
  wrap32 (ActBuf.length + 2154) < 0 ∨
    ∀ url, Uri.parseString env ActionURL = some (.ok url) →
      ActBuf.length + 2154 < 4294967296 ∧
      (url.hostport.text.text ActionURL).length < NAME_SIZE ∧
      (url.pathquery.text ActionURL).length < NAME_SIZE ∧
      (url.pathquery.text ActionURL).length + ServiceType.length + ActName.length +
        (decimal (ActBuf.length + 154)).length +
        (url.hostport.text.text ActionURL).length ≤ 1916

/-- The parts fit.  For an action the name, when there is one, ends in the document and fits its
array, and the header fits unless the name is empty.  For a variable there is no memory, or the
number has at most five digits. -/
def Fits (env : Uri.Env) : Sending → Prop
  | action ActionURL ServiceType ActBuf _ =>
    match namePart ActBuf with
    | .refused => True
    | .untouched => True
    | .endless => False
    | .copied ActName => ActName.length < NAME_SIZE ∧
        (ActName ≠ [] → HeaderFits env ActionURL ServiceType ActBuf ActName)
  | query VarName _ => wrap32 (VarName.length + 2000) < 0 ∨ VarName.length ≤ 99729

end Sending

theorem httpText_nil (body : CString) : httpText [] body = "\r\n".toList ++ body := rfl

theorem httpText_cons (line : CString) (lines : List CString) (body : CString) :
    httpText (line :: lines) body = line ++ ("\r\n".toList ++ httpText lines body) := by
  simp only [httpText, List.flatMap_cons, List.append_assoc]

/-! ## What an option holds -/

section

variable {α : Type} {a : α}

theorem forall_some_iff {P : α → Prop} : (∀ x, some a = some x → P x) ↔ P a := by
  simp only [Option.some.injEq, forall_eq']

theorem exists_some_iff {P : α → Prop} : (∃ x, some a = some x ∧ P x) ↔ P a := by
  simp only [Option.some.injEq, exists_eq_left']

end

/-! ## Lengths -/

variable {env : Uri.Env} {ActionURL ServiceType ActBuf ActName VarName Path Host xml : CString}

set_option maxRecDepth 4000 in
theorem length_requestPieces (ActBuf : CString) :
    (requestPieces ActBuf).flatten.length = ActBuf.length + 153 := by
  have h₁ : requestStart.length = 131 := length_literal rfl
  have h₂ : requestEnd.length = 22 := length_literal rfl
  simp only [requestPieces, List.flatten_cons, List.flatten_nil, List.length_append,
    List.length_nil, h₁, h₂]
  omega

theorem length_formatPieces : (formatPieces Path ServiceType ActName Host xml).flatten.length =
    Path.length + ServiceType.length + ActName.length + (decimal (announced xml)).length +
      Host.length + xml.length + 84 := by
  have h₁ : "POST ".toList.length = 5 := length_literal rfl
  have h₂ : " HTTP/1.0\r\nContent-Type: text/xml\r\nSOAPACTION:\"".toList.length = 47 :=
    length_literal rfl
  have h₄ : "\"\r\nContent-Length: ".toList.length = 19 := length_literal rfl
  have h₅ : "\r\nHost: ".toList.length = 8 := length_literal rfl
  have h₆ : "\r\n\r\n".toList.length = 4 := length_literal rfl
  simp only [formatPieces, List.flatten_cons, List.flatten_nil, List.length_append,
    List.length_singleton, List.length_nil, h₁, h₂, h₄, h₅, h₆]
  omega

/-- The lines of the text that is formatted. -/
theorem formatPieces_eq : (formatPieces Path ServiceType ActName Host xml).flatten =
    httpText ["POST ".toList ++ Path ++ " HTTP/1.0".toList, "Content-Type: text/xml".toList,
      "SOAPACTION:\"".toList ++ ServiceType ++ "#".toList ++ ActName ++ "\"".toList,
      "Content-Length: ".toList ++ decimal (announced xml), "Host: ".toList ++ Host] xml := by
  have h₁ : " HTTP/1.0\r\nContent-Type: text/xml\r\nSOAPACTION:\"".toList =
      " HTTP/1.0\r\n".toList ++ "Content-Type: text/xml\r\nSOAPACTION:\"".toList :=
    literal_eq_append rfl
  have h₂ : " HTTP/1.0\r\n".toList = " HTTP/1.0".toList ++ "\r\n".toList := literal_eq_append rfl
  have h₃ : "Content-Type: text/xml\r\nSOAPACTION:\"".toList =
      "Content-Type: text/xml\r\n".toList ++ "SOAPACTION:\"".toList := literal_eq_append rfl
  have h₄ : "Content-Type: text/xml\r\n".toList =
      "Content-Type: text/xml".toList ++ "\r\n".toList := literal_eq_append rfl
  have h₅ : "\"\r\nContent-Length: ".toList = "\"\r\n".toList ++ "Content-Length: ".toList :=
    literal_eq_append rfl
  have h₆ : "\"\r\n".toList = "\"".toList ++ "\r\n".toList := literal_eq_append rfl
  have h₇ : "\r\nHost: ".toList = "\r\n".toList ++ "Host: ".toList := literal_eq_append rfl
  have h₈ : "\r\n\r\n".toList = "\r\n".toList ++ "\r\n".toList := literal_eq_append rfl
  have h₉ : ['#'] = "#".toList := String.toList_ofList.symm
  simp only [formatPieces, httpText, List.flatMap_cons, List.flatMap_nil, List.flatten_cons,
    List.flatten_nil, List.append_nil, List.append_assoc, h₁, h₂, h₃, h₄, h₅, h₆, h₇, h₈, h₉]

theorem announced_of_lt (h : xml.length + 1 < 2147483648) :
    announced xml = xml.length + 1 := by
  rw [announced, wrap32_of_range (by omega) (by omega)]

theorem GetHostHeader_isSome_iff (url : Uri.URI) : (GetHostHeader ActionURL url).isSome ↔
    (url.hostport.text.text ActionURL).length < NAME_SIZE ∧
      (url.pathquery.text ActionURL).length < NAME_SIZE := by
  have hhost := @Buffer.sprintf_isSome_iff (url.hostport.text.text ActionURL)
    (Buffer.alloc NAME_SIZE)
  have hpath := @Buffer.sprintf_isSome_iff (url.pathquery.text ActionURL) (Buffer.alloc NAME_SIZE)
  rw [Buffer.length_alloc] at hhost hpath
  rw [← hhost, ← hpath, GetHostHeader]
  cases (Buffer.alloc NAME_SIZE).sprintf (url.hostport.text.text ActionURL) with
  | none => simp
  | some b =>
    cases (Buffer.alloc NAME_SIZE).sprintf (url.pathquery.text ActionURL) with
    | none => simp
    | some b' => simp

/-! ## Actions -/

/-- An `unsigned int` that is no `int` is negative as one. -/
theorem wrap32_neg {x : Int} (h : 2147483648 ≤ x) (hlt : x < 4294967296) : wrap32 x < 0 := by
  obtain ⟨k, hk⟩ := wrap32_dvd x
  have hle := (wrap32_range x).2
  generalize wrap32 x = size at *
  omega

/-- The block of a request has its size, where that is an `int`. -/
theorem length_block_of_lt {n k : Nat} (h : n + k < 2147483648) :
    (wrap32 (n + k)).toNat = n + k := by
  rw [wrap32_of_range (by omega) (by omega)]
  exact Int.toNat_natCast (n + k)

/-- A longer one has a smaller block than its body, or an `unsigned int` wraps around as well. -/
theorem length_block_le {n k : Nat} (h : 2147483648 ≤ n + k) (hk : k ≤ 2154) :
    (wrap32 (n + k)).toNat ≤ n := by
  obtain ⟨q, hq⟩ := wrap32_dvd (n + k)
  have hle := (wrap32_range (n + k)).2
  generalize wrap32 (n + k) = size at *
  omega

/-- The parts of the header against the allowance, for a body that fits. -/
theorem fits_allowance_iff {n parts : Nat} (h : n + 2154 < 2147483648) :
    parts + (n + 153) + 84 < (wrap32 (n + 2154)).toNat ↔ n + 2154 < 4294967296 ∧ parts ≤ 1916 := by
  have hblock := @length_block_of_lt n 2154 h
  rw [Nat.cast_ofNat] at hblock
  rw [hblock]
  omega

/-- A body that is too long for an `int` has a block only behind the `unsigned int`. -/
theorem not_lt_of_block {n : Nat} (hsize : 0 ≤ wrap32 (n + 2154)) (h : 2147483648 ≤ n + 2154) :
    ¬ n + 2154 < 4294967296 := by
  intro hlt
  exact absurd hsize (not_le.mpr (wrap32_neg (by omega) (by omega)))

/-- Such a body does not fit its own block. -/
theorem not_fits_of_ge {n parts : Nat} (h : 2147483648 ≤ n + 2154) :
    ¬ parts + (n + 153) + 84 < (wrap32 (n + 2154)).toNat := by
  have hle := @length_block_le n 2154 h le_rfl
  rw [Nat.cast_ofNat] at hle
  omega

/-- The formatting of a request for an action: it fits exactly when the length is an `int` and the
parts of the header fit the allowance. -/
theorem format_isSome_iff {n : Nat} (hxml : xml.length = n + 153)
    (hsize : 0 ≤ wrap32 (n + 2154)) :
    ((Buffer.alloc (wrap32 (n + 2154)).toNat).sprintf
      (formatPieces Path ServiceType ActName Host xml).flatten).isSome ↔
    n + 2154 < 4294967296 ∧ Path.length + ServiceType.length + ActName.length +
      (decimal (n + 154)).length + Host.length ≤ 1916 := by
  rw [Buffer.sprintf_isSome_iff, Buffer.length_alloc, length_formatPieces, hxml]
  by_cases hsmall : n + 2154 < 2147483648
  · have hannounced : announced xml = n + 154 := by
      rw [announced_of_lt (by rw [hxml]; omega), hxml]
      push_cast
      ring
    rw [hannounced]
    exact fits_allowance_iff hsmall
  · have hlarge := not_lt.mp hsmall
    refine iff_of_false (not_fits_of_ge hlarge) ?_
    rintro ⟨hlt, -⟩
    exact not_lt_of_block hsize hlarge hlt

/-- The body fits the block that `CreateControlRequest` makes for it. -/
theorem SoapSendAction_eq (hname : actionName ActBuf = some ActName) (hne : ActName ≠ []) :
    SoapSendAction env ActionURL ServiceType ActBuf =
      allocRequest env ActionURL ServiceType ActName (requestPieces ActBuf).flatten := by
  have hpos : ¬ ActName.length < 1 := by
    rw [not_lt]
    exact List.length_pos_iff.mpr hne
  obtain ⟨XmlPtr, hXmlPtr, -, -⟩ := @Buffer.strcatAll_holds (requestPieces ActBuf)
    (Buffer.alloc (ActBuf.length + XML_HEADER)) (List.cons_ne_nil _ _) (by
      rw [length_requestPieces, Buffer.length_alloc, XML_HEADER]
      omega)
  rw [SoapSendAction, hname]
  dsimp only
  rw [if_neg hpos, hXmlPtr]

/-- There is no memory for the request, or its block has the size that is computed. -/
theorem allocRequest_eq {n : Nat} (hxml : xml.length = n + 153) :
    allocRequest env ActionURL ServiceType ActName xml =
      if 0 ≤ wrap32 (n + 2154) then
        formatRequest env ActionURL ServiceType ActName xml
          (Buffer.alloc (wrap32 (n + 2154)).toNat)
      else .returned UPNP_E_OUTOF_MEMORY := by
  have hsize : (HEADER_LENGTH : Int) + xml.length + 1 = n + 2154 := by
    rw [hxml, HEADER_LENGTH]
    push_cast
    ring
  rw [allocRequest, hsize]

/-- What comes out of `GetHostHeader` is the host and the path. -/
theorem eq_of_GetHostHeader {url : Uri.URI} {r : CString × CString}
    (h : GetHostHeader ActionURL url = some r) :
    r = (url.hostport.text.text ActionURL, url.pathquery.text ActionURL) := by
  rw [GetHostHeader] at h
  split at h
  · exact (Option.some.inj h).symm
  · cases h

/-- A body whose number is an `int` is announced as it is. -/
theorem isRequest_format {hnul : '\x00' ∉ ActBuf} (hxml : (requestPieces ActBuf).flatten = xml)
    (h : ActBuf.length + 2154 < 2147483648) :
    (Sending.action ActionURL ServiceType ActBuf hnul).IsRequest
      (formatPieces Path ServiceType ActName Host xml).flatten := by
  have hint : xml.length + 1 < 2147483648 := by
    rw [← hxml, length_requestPieces]
    omega
  refine ⟨Path, ActName, Host, ?_⟩
  rw [formatPieces_eq, announced_of_lt hint, Sending.body, hxml]

/-- With a URL that is parsed, a request is sent exactly when host and path fit their arrays and
the text its block. -/
theorem formatRequest_iff {url : Uri.URI} {s : Sending} {block : Buffer}
    (hurl : Uri.parseString env ActionURL = some (.ok url))
    (hright : (block.sprintf (formatPieces (url.pathquery.text ActionURL) ServiceType ActName
      (url.hostport.text.text ActionURL) xml).flatten).isSome →
      s.IsRequest (formatPieces (url.pathquery.text ActionURL) ServiceType ActName
        (url.hostport.text.text ActionURL) xml).flatten) :
    s.Accepts (formatRequest env ActionURL ServiceType ActName xml block) ↔
    (url.hostport.text.text ActionURL).length < NAME_SIZE ∧
      (url.pathquery.text ActionURL).length < NAME_SIZE ∧
      (block.sprintf (formatPieces (url.pathquery.text ActionURL) ServiceType ActName
        (url.hostport.text.text ActionURL) xml).flatten).isSome := by
  have hcopies := @GetHostHeader_isSome_iff ActionURL url
  rw [formatRequest, hurl]
  dsimp only
  cases hheader : GetHostHeader ActionURL url with
  | none =>
    rw [hheader] at hcopies
    refine iff_of_false id ?_
    rintro ⟨hhost, hpath, -⟩
    exact absurd (hcopies.mpr ⟨hhost, hpath⟩) Bool.false_ne_true
  | some r =>
    rw [hheader] at hcopies
    obtain ⟨hhost, hpath⟩ := hcopies.mp rfl
    obtain rfl := eq_of_GetHostHeader hheader
    dsimp only
    rw [and_iff_right hhost, and_iff_right hpath]
    cases hsprintf : block.sprintf (formatPieces (url.pathquery.text ActionURL) ServiceType ActName
        (url.hostport.text.text ActionURL) xml).flatten with
    | none => exact iff_of_false id Bool.false_ne_true
    | some block' =>
      rw [hsprintf] at hright
      exact iff_of_true ⟨_, Buffer.holds_of_sprintf hsprintf, hright rfl⟩ rfl

/-- The name that is copied to the array. -/
theorem actionName_eq (hnul : '\x00' ∉ ActBuf) : actionName ActBuf =
    match namePart ActBuf with
    | .refused => some []
    | .untouched => some []
    | .endless => none
    | .copied name => if name.length < NAME_SIZE then some name else none := by
  have hempty : Buffer.str (List.replicate NAME_SIZE (some '\x00')) = [] := rfl
  rw [actionName, GetActionName_eq]
  cases hpart : namePart ActBuf with
  | refused => rfl
  | untouched => exact congrArg some hempty
  | endless => rfl
  | copied name =>
    dsimp only
    by_cases hfits : name.length < NAME_SIZE
    · obtain ⟨Name, hName, hholds⟩ := @Buffer.terminate_eq_some name
        (List.replicate NAME_SIZE (some '\x00')) (by rwa [List.length_replicate])
        (Nat.lt_trans hfits (by decide))
      rw [hName, if_pos hfits, ← Buffer.str_of_holds (nul_notMem_namePart hnul hpart) hholds]
      rfl
    · rw [Buffer.terminate_eq_none (.inl (by
        rw [List.length_replicate]
        exact not_lt.mp hfits)), if_neg hfits]
      rfl

/-- A request for an action with a name is sent exactly when its header fits. -/
theorem allocRequest_iff {hnul : '\x00' ∉ ActBuf} :
    (Sending.action ActionURL ServiceType ActBuf hnul).Accepts
      (allocRequest env ActionURL ServiceType ActName (requestPieces ActBuf).flatten) ↔
    Sending.HeaderFits env ActionURL ServiceType ActBuf ActName := by
  rw [allocRequest_eq (length_requestPieces ActBuf), Sending.HeaderFits]
  by_cases hneg : wrap32 (ActBuf.length + 2154) < 0
  · rw [if_neg (not_le.mpr hneg)]
    exact iff_of_true trivial (.inl hneg)
  · have hsize := not_lt.mp hneg
    rw [if_pos hsize, or_iff_right hneg]
    obtain ⟨parsed, hparsed⟩ := Option.isSome_iff_exists.mp
      (Uri.parseString_isSome env ActionURL)
    cases parsed with
    | error code =>
      rw [formatRequest, hparsed]
      refine iff_of_true trivial ?_
      intro url hurl
      cases hurl
    | ok url =>
      have hformat := @format_isSome_iff ServiceType ActName (url.pathquery.text ActionURL)
        (url.hostport.text.text ActionURL) _ _ (length_requestPieces ActBuf) hsize
      rw [formatRequest_iff hparsed, hformat]
      · constructor
        · rintro ⟨hhost, hpath, hlt, hparts⟩ url' hurl'
          rw [hparsed] at hurl'
          cases hurl'
          exact ⟨hlt, hhost, hpath, hparts⟩
        · intro h
          obtain ⟨hlt, hhost, hpath, hparts⟩ := h url hparsed
          exact ⟨hhost, hpath, hlt, hparts⟩
      · intro hsome
        apply isRequest_format rfl
        by_contra hge
        exact not_lt_of_block hsize (not_lt.mp hge) (hformat.mp hsome).1

theorem right_action_iff (env : Uri.Env) (ActionURL ServiceType : CString)
    (hnul : '\x00' ∉ ActBuf) :
    (Sending.action ActionURL ServiceType ActBuf hnul).Right env ↔
      (Sending.action ActionURL ServiceType ActBuf hnul).Fits env := by
  have hname := actionName_eq hnul
  rw [Sending.Right, Sending.run, Sending.Fits]
  cases hpart : namePart ActBuf with
  | refused =>
    rw [hpart] at hname
    rw [SoapSendAction, hname]
    exact iff_of_true trivial trivial
  | untouched =>
    rw [hpart] at hname
    rw [SoapSendAction, hname]
    exact iff_of_true trivial trivial
  | endless =>
    rw [hpart] at hname
    rw [SoapSendAction, hname]
    exact Iff.rfl
  | copied ActName =>
    rw [hpart] at hname
    dsimp only at hname ⊢
    by_cases hfits : ActName.length < NAME_SIZE
    · rw [if_pos hfits] at hname
      rw [and_iff_right hfits]
      by_cases hempty : ActName = []
      · rw [SoapSendAction, hname]
        subst hempty
        exact iff_of_true trivial fun h ↦ absurd rfl h
      · rw [SoapSendAction_eq hname hempty, forall_prop_of_true hempty]
        exact allocRequest_iff
    · rw [if_neg hfits] at hname
      rw [SoapSendAction, hname]
      exact iff_of_false id fun h ↦ hfits h.1

/-! ## Queries -/

/-- The text of a query with its number written over the blanks. -/
def queryText (number VarName : CString) : CString :=
  numberHeader ++ number ++
    (placeholder.drop number.length ++ (queryHeader ++ queryMsg VarName))

set_option maxRecDepth 4000 in
theorem length_queryMsg (VarName : CString) : (queryMsg VarName).length = VarName.length + 269 := by
  have h₁ : queryMsgStart.length = 209 := length_literal rfl
  have h₂ : queryMsgEnd.length = 60 := length_literal rfl
  rw [queryMsg, List.length_append, List.length_append, h₁, h₂]
  omega

theorem length_placeholder : placeholder.length = 7 := by decide

/-- The pieces of a query and the text without a number. -/
theorem flatten_queryPieces (VarName : CString) :
    [numberHeader ++ placeholder, queryHeader, queryMsgStart, VarName,
      queryMsgEnd].flatten = queryText [] VarName := by
  simp only [List.flatten_cons, List.flatten_nil, List.append_nil, queryText, queryMsg,
    List.append_assoc, List.length_nil, List.drop_zero]

set_option maxRecDepth 4000 in
theorem length_queryText {number : CString} (h : number.length ≤ 7) :
    (queryText number VarName).length = VarName.length + 380 := by
  have h₁ : numberHeader.length = 15 := length_literal rfl
  have h₂ : queryHeader.length = 89 := length_literal rfl
  simp only [queryText, List.length_append, List.length_drop, length_placeholder, length_queryMsg,
    h₁, h₂]
  omega

/-- A number of at most six digits is written over the blanks, and over the end of their line. -/
theorem writeNumber_holds {number tail : CString} {rest : Buffer}
    (hnumber : number.length < LENBUF_SIZE) :
    ∃ block', writeNumber number
        ((numberHeader ++ (placeholder ++ tail)).map some ++ some '\x00' :: rest) = .sent block' ∧
      block'.Holds (numberHeader ++ number ++ (placeholder.drop number.length ++ tail)) := by
  obtain ⟨LenBuf, hLenBuf⟩ := Option.isSome_iff_exists.mp ((@Buffer.sprintf_isSome_iff number
    (Buffer.alloc LENBUF_SIZE)).mpr (by
      rw [Buffer.length_alloc]
      exact hnumber))
  have hle : number.length ≤ placeholder.length := by
    rw [length_placeholder]
    exact hnumber.le
  have hover := @Buffer.memcpy_append number (numberHeader.map some)
    ((placeholder ++ tail).map some ++ some '\x00' :: rest) (by
      rw [List.length_append, List.length_map, List.length_append]
      omega)
  rw [List.length_map] at hover
  rw [writeNumber, hLenBuf]
  dsimp only
  rw [List.map_append, List.append_assoc, hover]
  refine ⟨_, rfl, rest, ?_⟩
  have hsplit : (placeholder ++ tail).map some = placeholder.map some ++ tail.map some :=
    List.map_append
  rw [hsplit, List.append_assoc (placeholder.map some),
    List.drop_append_of_le_length (by rw [List.length_map]; exact hle), ← List.map_drop]
  simp only [List.map_append, List.map_singleton, List.append_assoc, List.singleton_append]

/-- A longer number does not fit the array that it is printed in. -/
theorem writeNumber_eq_fault {number : CString} {block : Buffer}
    (hnumber : LENBUF_SIZE ≤ number.length) : writeNumber number block = .fault := by
  have hnone : (Buffer.alloc LENBUF_SIZE).sprintf number = none := by
    rw [← Option.not_isSome_iff_eq_none, Buffer.sprintf_isSome_iff, Buffer.length_alloc]
    exact not_lt.mpr hnumber
  rw [writeNumber, hnone]

/-- A query that fits is put together in front of its number. -/
theorem queryRequest_eq {block : Buffer} (hfit : VarName.length + 380 < block.length) :
    ∃ rest, queryRequest VarName block = writeNumber (decimal (announced (queryMsg VarName)))
      ((numberHeader ++ (placeholder ++ (queryHeader ++ queryMsg VarName))).map some ++
        some '\x00' :: rest) := by
  have hlength := @length_queryText VarName [] (Nat.zero_le 7)
  have htext : queryText [] VarName =
      numberHeader ++ (placeholder ++ (queryHeader ++ queryMsg VarName)) := by
    rw [queryText, List.append_nil, List.length_nil, List.drop_zero]
  have hall := @Buffer.strcatAll_append [numberHeader ++ placeholder, queryHeader, queryMsgStart,
    VarName, queryMsgEnd] [] block (List.cons_ne_nil _ _) (by
      rw [flatten_queryPieces, hlength]
      exact hfit)
  rw [List.nil_append, List.length_nil, flatten_queryPieces, List.nil_append] at hall
  refine ⟨block.drop ((queryText [] VarName).length + 1), ?_⟩
  rw [queryRequest, hall, ← htext]

/-- One that does not fit is written behind its block. -/
theorem queryRequest_eq_fault {block : Buffer} (h : block.length ≤ VarName.length + 380) :
    queryRequest VarName block = .fault := by
  have hlength := @length_queryText VarName [] (Nat.zero_le 7)
  have hnone := @Buffer.strcatAll_eq_none [numberHeader ++ placeholder, queryHeader, queryMsgStart,
    VarName, queryMsgEnd] [] block (List.cons_ne_nil _ _) (by
      rw [flatten_queryPieces, hlength]
      exact h)
  rw [List.nil_append, List.length_nil] at hnone
  rw [queryRequest, hnone]

set_option maxRecDepth 4000 in
/-- The lines of the header behind the number. -/
theorem queryHeader_eq : queryHeader = "CONTENT-TYPE:text/xml".toList ++ ("\r\n".toList ++
    ("SOAPACTION:urn:schemas-upnp-org:control-1-0#QueryStateVariable".toList ++
      ("\r\n".toList ++ "\r\n".toList))) := by
  have h₁ : queryHeader = "CONTENT-TYPE:text/xml\r\n".toList ++
      "SOAPACTION:urn:schemas-upnp-org:control-1-0#QueryStateVariable\r\n\r\n".toList :=
    literal_eq_append rfl
  have h₂ : "CONTENT-TYPE:text/xml\r\n".toList = "CONTENT-TYPE:text/xml".toList ++ "\r\n".toList :=
    literal_eq_append rfl
  have h₃ : "SOAPACTION:urn:schemas-upnp-org:control-1-0#QueryStateVariable\r\n\r\n".toList =
      "SOAPACTION:urn:schemas-upnp-org:control-1-0#QueryStateVariable".toList ++
        "\r\n\r\n".toList := literal_eq_append rfl
  have h₄ : "\r\n\r\n".toList = "\r\n".toList ++ "\r\n".toList := literal_eq_append rfl
  rw [h₁, h₂, h₃, h₄, List.append_assoc]

/-- With a number of up to five digits the rest of the blanks stays in front of the line end. -/
theorem drop_placeholder : ∀ d ≤ 5,
    placeholder.drop d = List.replicate (5 - d) ' ' ++ "\r\n".toList := by decide

/-- What is sent with a number of up to five digits is a request. -/
theorem isRequest_queryText (hnul : '\x00' ∉ VarName)
    (hdigits : (decimal ((queryMsg VarName).length + 1)).length ≤ 5) :
    (Sending.query VarName hnul).IsRequest
      (queryText (decimal ((queryMsg VarName).length + 1)) VarName) := by
  refine ⟨5 - (decimal ((queryMsg VarName).length + 1)).length, ?_⟩
  have hnumber : numberHeader = "CONTENT-LENGTH:".toList := rfl
  rw [queryText, drop_placeholder _ hdigits, httpText_cons, httpText_cons, httpText_cons,
    httpText_nil, ← hnumber, queryHeader_eq, Sending.body]
  -- only the order of the parts matters from here on
  generalize "CONTENT-TYPE:text/xml".toList = line
  generalize "SOAPACTION:urn:schemas-upnp-org:control-1-0#QueryStateVariable".toList = line'
  generalize "\r\n".toList = lineEnd
  simp only [List.append_assoc]

/-- A request announces its body with a whole line. -/
theorem length_of_isRequest {hnul : '\x00' ∉ VarName} {text : CString}
    (h : (Sending.query VarName hnul).IsRequest text) :
    (queryMsg VarName).length + 106 + (decimal ((queryMsg VarName).length + 1)).length ≤
      text.length := by
  obtain ⟨blanks, rfl⟩ := h
  have h₁ : "CONTENT-LENGTH:".toList.length = 15 := length_literal rfl
  have h₂ : "CONTENT-TYPE:text/xml".toList.length = 21 := length_literal rfl
  have h₃ : "SOAPACTION:urn:schemas-upnp-org:control-1-0#QueryStateVariable".toList.length = 62 :=
    length_literal rfl
  have h₄ : "\r\n".toList.length = 2 := length_literal rfl
  simp only [httpText, Sending.body, List.flatMap_cons, List.flatMap_nil, List.length_append,
    List.length_nil, List.length_replicate, h₁, h₂, h₃, h₄]
  omega

set_option maxRecDepth 4000 in
/-- Neither the text that is written nor a request has a NUL. -/
theorem nul_notMem_queryText {number : CString} (hnul : '\x00' ∉ VarName)
    (hnumber : '\x00' ∉ number) : '\x00' ∉ queryText number VarName := by
  have h₁ : '\x00' ∉ numberHeader := notMem_literal rfl
  have h₂ : '\x00' ∉ queryHeader := notMem_literal rfl
  have h₃ : '\x00' ∉ queryMsgStart := notMem_literal rfl
  have h₄ : '\x00' ∉ queryMsgEnd := notMem_literal rfl
  have h₅ : '\x00' ∉ placeholder := notMem_literal rfl
  have h₆ : '\x00' ∉ placeholder.drop number.length := fun h ↦ h₅ (List.mem_of_mem_drop h)
  simp only [queryText, queryMsg, List.mem_append, not_or]
  exact ⟨⟨h₁, hnumber⟩, h₆, h₂, ⟨h₃, hnul⟩, h₄⟩

theorem nul_notMem_decimal (n : Nat) : '\x00' ∉ decimal n := by
  intro h
  have hdigit := Nat.isDigit_of_mem_toDigits (by decide) (by decide) h
  cases hdigit

set_option maxRecDepth 4000 in
theorem nul_notMem_of_isRequest {text : CString} {hnul : '\x00' ∉ VarName}
    (h : (Sending.query VarName hnul).IsRequest text) : '\x00' ∉ text := by
  obtain ⟨blanks, rfl⟩ := h
  have h₁ : '\x00' ∉ "CONTENT-LENGTH:".toList := notMem_literal rfl
  have h₂ : '\x00' ∉ "CONTENT-TYPE:text/xml".toList := notMem_literal rfl
  have h₃ : '\x00' ∉
      "SOAPACTION:urn:schemas-upnp-org:control-1-0#QueryStateVariable".toList := notMem_literal rfl
  have h₄ : '\x00' ∉ "\r\n".toList := notMem_literal rfl
  have h₅ : '\x00' ∉ List.replicate blanks ' ' := by
    intro h
    cases List.eq_of_mem_replicate h
  have h₆ : '\x00' ∉ queryMsgStart := notMem_literal rfl
  have h₇ : '\x00' ∉ queryMsgEnd := notMem_literal rfl
  have h₈ := nul_notMem_decimal ((queryMsg VarName).length + 1)
  rw [Nat.cast_succ] at h₈
  rw [httpText_cons, httpText_cons, httpText_cons, httpText_nil, Sending.body, queryMsg]
  rw [queryMsg] at h₈
  simp only [List.mem_append, not_or]
  exact ⟨⟨⟨h₁, h₈⟩, h₅⟩, h₄, h₂, h₄, h₃, h₄, h₄, ⟨h₆, hnul⟩, h₇⟩

/-- A query is sent as a request exactly when its number has at most five digits. -/
theorem queryRequest_iff (hnul : '\x00' ∉ VarName) {block : Buffer}
    (hfit : VarName.length + 380 < block.length) (hint : (queryMsg VarName).length < 2147483647) :
    (Sending.query VarName hnul).Accepts (queryRequest VarName block) ↔
      (decimal ((queryMsg VarName).length + 1)).length ≤ 5 := by
  obtain ⟨rest, heq⟩ := queryRequest_eq hfit
  rw [announced_of_lt (Nat.succ_lt_succ hint)] at heq
  by_cases hsix : (decimal ((queryMsg VarName).length + 1)).length < LENBUF_SIZE
  · obtain ⟨block', hsent, hholds⟩ := @writeNumber_holds (decimal ((queryMsg VarName).length + 1))
      (queryHeader ++ queryMsg VarName) rest hsix
    rw [heq, hsent]
    constructor
    · rintro ⟨text, htext, hrequest⟩
      have hnumber := nul_notMem_decimal ((queryMsg VarName).length + 1)
      rw [Nat.cast_succ] at hnumber
      have hsame := Buffer.Holds.unique (nul_notMem_queryText hnul hnumber)
        (nul_notMem_of_isRequest hrequest) hholds htext
      have hle := length_of_isRequest hrequest
      have hmsg := length_queryMsg VarName
      rw [← hsame, length_queryText (Nat.le_of_lt hsix)] at hle
      omega
    · intro hle
      exact ⟨_, hholds, isRequest_queryText hnul hle⟩
  · rw [heq, writeNumber_eq_fault (not_lt.mp hsix)]
    refine iff_of_false id ?_
    intro hle
    exact hsix (Nat.lt_of_le_of_lt hle (by decide))

theorem right_query_iff (env : Uri.Env) (hnul : '\x00' ∉ VarName) :
    (Sending.query VarName hnul).Right env ↔ (Sending.query VarName hnul).Fits env := by
  have hmsg := length_queryMsg VarName
  have hsize : (HEADER_LENGTH : Int) + VarName.length = VarName.length + 2000 := by
    rw [HEADER_LENGTH]
    push_cast
    ring
  rw [Sending.Right, Sending.run, Sending.Fits, SoapGetServiceVarStatus, hsize]
  by_cases hneg : wrap32 (VarName.length + 2000) < 0
  · rw [if_neg (not_le.mpr hneg)]
    exact iff_of_true trivial (.inl hneg)
  · rw [if_pos (not_lt.mp hneg), or_iff_right hneg]
    by_cases hsmall : VarName.length + 2000 < 2147483648
    · have hblock := @length_block_of_lt VarName.length 2000 hsmall
      rw [Nat.cast_ofNat] at hblock
      rw [hblock, queryRequest_iff hnul (by rw [Buffer.length_alloc]; omega) (by omega)]
      have hdigits : (decimal ((queryMsg VarName).length + 1)).length ≤ 5 ↔
          (queryMsg VarName).length + 1 < 10 ^ 5 :=
        Nat.length_toDigits_le_iff (by decide) (by decide)
      rw [hdigits, hmsg]
      omega
    · have hle := @length_block_le VarName.length 2000 (not_lt.mp hsmall) (by decide)
      rw [Nat.cast_ofNat] at hle
      rw [queryRequest_eq_fault (by rw [Buffer.length_alloc]; omega)]
      exact iff_of_false id (by omega)

theorem Sending.right_iff (env : Uri.Env) (s : Sending) : s.Right env ↔ s.Fits env := by
  cases s with
  | action ActionURL ServiceType ActBuf hnul =>
    exact right_action_iff env ActionURL ServiceType hnul
  | query VarName hnul => exact right_query_iff env hnul

/-- The number of a long variable has six digits, the last of them over the `'\r'`. -/
theorem not_sending_right : ¬ ∀ (env : Uri.Env) (s : Sending), s.Right env := by
  intro h
  obtain ⟨VarName, hnul, hlength⟩ : ∃ VarName : CString, '\x00' ∉ VarName ∧
      VarName.length = 99730 := by
    refine ⟨List.replicate 99730 'a', ?_, List.length_replicate⟩
    intro hmem
    cases List.eq_of_mem_replicate hmem
  have hwrap : ¬ wrap32 ((99730 : Nat) + 2000) < 0 := by decide
  obtain ⟨s, hs⟩ : ∃ s, s = Sending.query VarName hnul := ⟨_, rfl⟩
  have hright := h ⟨true, fun _ ↦ none⟩ s
  rw [hs, right_query_iff, Sending.Fits, hlength] at hright
  exact hright.elim hwrap (by decide)

end Upnp.Soap
