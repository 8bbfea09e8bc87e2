import Upnp.Dom.ReadBack
import Upnp.Soap.Reply

/-!
# Envelopes

The bodies of requests and replies are texts that are put together by hand around a printed
element, the name or the value of a variable, or an error; `UpnpParse_Buffer` reads the nodes of
the body of them.
-/

namespace Upnp.Soap

open Upnp.Lib Upnp.Dom Upnp.Xml

/-! ## Envelopes -/

/-- The encoding style of a request, and that of a reply. -/
def requestStyle : CString := "http://schemas.xmlsoap.org/soap/encoding".toList

def replyStyle : CString := "http://schemas.xmlsoap.org/soap/encoding/".toList

def envelopeAttributes (encodingStyle : CString) : List (CString × CString) :=
  [("xmlns:s".toList, "http://schemas.xmlsoap.org/soap/envelope/".toList),
    ("s:encodingStyle".toList, encodingStyle)]

/-- An envelope around the nodes of its body. -/
def envelope (encodingStyle : CString) (children : List Content) : Content :=
  .element "s:Envelope".toList (envelopeAttributes encodingStyle)
    [.element "s:Body".toList [] children]

/-- The text of an envelope, with what is behind the body. -/
def envelopeText (encodingStyle inner gap : CString) : CString :=
  elementText "s:Envelope".toList (envelopeAttributes encodingStyle)
    (elementText "s:Body".toList [] inner ++ gap)

def controlAttributes : List (CString × CString) :=
  [("xmlns:u".toList, "urn:schemas-upnp-org:control-1-0".toList)]

/-- The query of a variable. -/
def queryNode (VarName : CString) : Content :=
  .element "u:QueryStateVariable".toList controlAttributes
    [.element "u:varName".toList [] [.text VarName]]

def queryInner (VarName : CString) : CString :=
  [' '] ++ elementText "u:QueryStateVariable".toList controlAttributes
    ([' '] ++ elementText "u:varName".toList [] VarName ++ [' ']) ++ [' ']

/-- The value of a variable. -/
def valueNode (value : CString) : Content :=
  .element "u:QueryStateVariableResponse".toList controlAttributes
    [.element "return".toList [] [.text value]]

def valueInner (value : CString) : CString :=
  elementText "u:QueryStateVariableResponse".toList controlAttributes
    (elementText "return".toList [] value ++ [' ']) ++ [' ']

def errorAttributes : List (CString × CString) :=
  [("xmlns".toList, "urn:schemas-upnp-org:control-1-0".toList)]

/-- The error of a failure, with its code and its description. -/
def errorNode (ErrCode : Int) (ErrStr : CString) : Content :=
  .element "UPnPError".toList errorAttributes
    [.element "errorCode".toList [] [.text (decimal ErrCode)],
      .element "errorDescription".toList [] [.text ErrStr]]

/-- A failure. -/
def faultNode (ErrCode : Int) (ErrStr : CString) : Content :=
  .element "s:Fault".toList []
    [.element "faultcode".toList [] [.text "s:Client".toList],
      .element "faultstring".toList [] [.text "UPnPError".toList],
      .element "detail".toList [] [errorNode ErrCode ErrStr]]

def errorInner (ErrCode : Int) (ErrStr : CString) : CString :=
  elementText "UPnPError".toList errorAttributes
    (elementText "errorCode".toList [] (decimal ErrCode) ++
      elementText "errorDescription".toList [] ErrStr)

def faultInner (ErrCode : Int) (ErrStr : CString) : CString :=
  elementText "s:Fault".toList []
    (elementText "faultcode".toList [] "s:Client".toList ++
      elementText "faultstring".toList [] "UPnPError".toList ++
      elementText "detail".toList [] (errorInner ErrCode ErrStr))

/-! ## The texts that are put together -/

section Texts

variable {ActBuf RespStr VarName value ErrStr : CString} {ErrCode : Int}

/-- The start tags of the envelopes. -/
def requestHead : CString :=
  "<s:Envelope xmlns:s=\"http://schemas.xmlsoap.org/soap/envelope/\" s:encodingStyle=\"http://schemas.xmlsoap.org/soap/encoding\">".toList

def replyHead : CString :=
  "<s:Envelope xmlns:s=\"http://schemas.xmlsoap.org/soap/envelope/\" s:encodingStyle=\"http://schemas.xmlsoap.org/soap/encoding/\">".toList

set_option maxRecDepth 8000 in
theorem requestOpening : requestHead =
    openingTag "s:Envelope".toList (envelopeAttributes requestStyle) := by decide

set_option maxRecDepth 8000 in
theorem replyOpening : replyHead =
    openingTag "s:Envelope".toList (envelopeAttributes replyStyle) := by decide

set_option maxRecDepth 8000 in
theorem requestPieces_eq : (requestPieces ActBuf).flatten = envelopeText requestStyle ActBuf [] := by
  have hstart : requestStart = requestHead ++ "<s:Body>".toList :=
    literal_eq_append rfl
  have hbody : "<s:Body>".toList = openingTag "s:Body".toList [] := by decide
  have hend : requestEnd = closingTag "s:Body".toList ++ closingTag "s:Envelope".toList := by decide
  simp only [requestPieces, List.flatten_cons, List.flatten_nil, hstart, hbody, hend,
    requestOpening, envelopeText, elementText, List.append_assoc, List.append_nil]

set_option maxRecDepth 8000 in
theorem response_eq :
    responseStart ++ RespStr ++ responseEnd = envelopeText replyStyle (['\n'] ++ RespStr) [' '] := by
  have hstart : responseStart = replyHead ++ "<s:Body>\n".toList :=
    literal_eq_append rfl
  have hbody : "<s:Body>\n".toList = openingTag "s:Body".toList [] ++ ['\n'] := by decide
  have hend : responseEnd =
      closingTag "s:Body".toList ++ ([' '] ++ closingTag "s:Envelope".toList) := by decide
  simp only [hstart, hbody, hend, replyOpening, envelopeText, elementText, List.append_assoc]

set_option maxRecDepth 8000 in
theorem queryMsg_eq : queryMsg VarName = envelopeText requestStyle (queryInner VarName) [' '] := by
  have hstart : queryMsgStart = requestHead ++ "<s:Body> <u:QueryStateVariable xmlns:u=\"urn:schemas-upnp-org:control-1-0\"> <u:varName>".toList :=
    literal_eq_append rfl
  have hbody : "<s:Body> <u:QueryStateVariable xmlns:u=\"urn:schemas-upnp-org:control-1-0\"> <u:varName>".toList =
      openingTag "s:Body".toList [] ++ ([' '] ++
        (openingTag "u:QueryStateVariable".toList controlAttributes ++ ([' '] ++
          openingTag "u:varName".toList []))) := by decide
  have hend : queryMsgEnd = closingTag "u:varName".toList ++ ([' '] ++
      (closingTag "u:QueryStateVariable".toList ++ ([' '] ++ (closingTag "s:Body".toList ++
        ([' '] ++ closingTag "s:Envelope".toList))))) := by decide
  simp only [queryMsg, hstart, hbody, hend, requestOpening, envelopeText, queryInner, elementText,
    List.append_assoc]

set_option maxRecDepth 8000 in
theorem query_eq : queryStart ++ value ++ queryEnd =
    envelopeText replyStyle (valueInner value) [' '] := by
  have hstart : queryStart = replyHead ++ "<s:Body><u:QueryStateVariableResponse xmlns:u=\"urn:schemas-upnp-org:control-1-0\"><return>".toList :=
    literal_eq_append rfl
  have hbody : "<s:Body><u:QueryStateVariableResponse xmlns:u=\"urn:schemas-upnp-org:control-1-0\"><return>".toList =
      openingTag "s:Body".toList [] ++ (openingTag "u:QueryStateVariableResponse".toList
        controlAttributes ++ openingTag "return".toList []) := by decide
  have hend : queryEnd = closingTag "return".toList ++ ([' '] ++
      (closingTag "u:QueryStateVariableResponse".toList ++ ([' '] ++ (closingTag "s:Body".toList ++
        ([' '] ++ closingTag "s:Envelope".toList))))) := by decide
  simp only [hstart, hbody, hend, replyOpening, envelopeText, valueInner, elementText,
    List.append_assoc]

set_option maxRecDepth 8000 in
theorem failureText_eq : failureText ErrCode ErrStr =
    envelopeText replyStyle (faultInner ErrCode ErrStr) [] := by
  have hstart : failureStart = replyHead ++ "<s:Body><s:Fault><faultcode>s:Client</faultcode><faultstring>UPnPError</faultstring><detail><UPnPError xmlns=\"urn:schemas-upnp-org:control-1-0\"><errorCode>".toList :=
    literal_eq_append rfl
  have hbody : "<s:Body><s:Fault><faultcode>s:Client</faultcode><faultstring>UPnPError</faultstring><detail><UPnPError xmlns=\"urn:schemas-upnp-org:control-1-0\"><errorCode>".toList =
      openingTag "s:Body".toList [] ++ (openingTag "s:Fault".toList [] ++
        (openingTag "faultcode".toList [] ++ ("s:Client".toList ++ (closingTag "faultcode".toList ++
          (openingTag "faultstring".toList [] ++ ("UPnPError".toList ++
            (closingTag "faultstring".toList ++ (openingTag "detail".toList [] ++
              (openingTag "UPnPError".toList errorAttributes ++
                openingTag "errorCode".toList []))))))))) := by decide
  have hmiddle : "</errorCode><errorDescription>".toList =
      closingTag "errorCode".toList ++ openingTag "errorDescription".toList [] := by decide
  have hclose : "</errorDescription>".toList = closingTag "errorDescription".toList := by decide
  have hend : failureEnd = closingTag "UPnPError".toList ++ (closingTag "detail".toList ++
      (closingTag "s:Fault".toList ++ (closingTag "s:Body".toList ++
        closingTag "s:Envelope".toList))) := by decide
  simp only [failureText, hstart, hbody, hmiddle, hclose, hend, replyOpening, envelopeText,
    faultInner, errorInner, elementText, List.append_assoc, List.append_nil]

end Texts

/-! ## What they show -/

/-- A tag of letters and colons, with plain values. -/
def handTag (name : CString) (attributes : List (CString × CString)) : Bool :=
  (name != []) && name.all (fun c ↦ c.isAlpha || c == ':') && attributes.all fun a ↦
    (a.1 != []) && a.1.all (fun c ↦ c.isAlpha || c == ':') && (a.2 != []) && a.2.all isPlain

variable {t inner gap name encodingStyle VarName value ErrStr : CString} {cs : Document}
  {attributes : List (CString × CString)} {ErrCode : Int} {n : NextNode}

theorem readableTag_of_hand (h : handTag name attributes = true) : ReadableTag name attributes := by
  simp only [handTag, Bool.and_eq_true, bne_iff_ne, List.all_eq_true, Bool.or_eq_true,
    beq_iff_eq] at h
  obtain ⟨⟨hne, hletters⟩, hattributes⟩ := h
  refine ⟨isName_of_letters hne hletters, fun a ha ↦ ?_⟩
  obtain ⟨⟨⟨hkey, hkeys⟩, hvalue⟩, hplain⟩ := hattributes a ha
  exact ⟨isName_of_letters hkey hkeys, readableValue_of_plain hplain hvalue⟩

theorem shows_envelope (hstyle : encodingStyle = requestStyle ∨ encodingStyle = replyStyle)
    (h : Shows inner cs) (hgap : ∀ c ∈ gap, c ∈ WHITESPACE) :
    Shows (envelopeText encodingStyle inner gap) [envelope encodingStyle cs] := by
  have htag : ReadableTag "s:Envelope".toList (envelopeAttributes encodingStyle) := by
    rcases hstyle with rfl | rfl
    · exact readableTag_of_hand (by decide)
    · exact readableTag_of_hand (by decide)
  exact .element htag ((Shows.element (readableTag_of_hand (by decide)) h).append (shows_white hgap))

theorem shows_queryInner (h : Verbatim VarName) :
    Shows (queryInner VarName) [queryNode VarName] := by
  have hname : Shows (elementText "u:varName".toList [] VarName)
      [.element "u:varName".toList [] [.text VarName]] :=
    shows_text (readableTag_of_hand (by decide)) h
  have hquery := (hname.between Parser.blank_white Parser.blank_white).element
    (readableTag_of_hand (show handTag "u:QueryStateVariable".toList controlAttributes = true by
      decide))
  exact hquery.between Parser.blank_white Parser.blank_white

theorem shows_valueInner (h : Verbatim value) : Shows (valueInner value) [valueNode value] := by
  have hvalue : Shows (elementText "return".toList [] value)
      [.element "return".toList [] [.text value]] :=
    shows_text (readableTag_of_hand (by decide)) h
  have hresponse := (hvalue.append (shows_white Parser.blank_white)).element
    (readableTag_of_hand (show handTag "u:QueryStateVariableResponse".toList controlAttributes =
      true by decide))
  exact hresponse.append (shows_white Parser.blank_white)

/-- A number has digits and perhaps a minus. -/
theorem mem_decimal {c : Char} (h : c ∈ decimal ErrCode) : c = '-' ∨ c.isDigit = true := by
  cases ErrCode with
  | ofNat n => exact .inr (Nat.isDigit_of_mem_toDigits (by decide) (by decide) h)
  | negSucc n =>
    rcases List.mem_cons.mp h with rfl | h
    · exact .inl rfl
    · exact .inr (Nat.isDigit_of_mem_toDigits (by decide) (by decide) h)

theorem decimal_ne_nil (ErrCode : Int) : decimal ErrCode ≠ [] := by
  cases ErrCode with
  | ofNat n => exact Nat.toDigits_ne_nil
  | negSucc n => exact List.cons_ne_nil _ _

theorem verbatim_decimal (ErrCode : Int) : Verbatim (decimal ErrCode) := by
  have hdigit : ∀ n ≤ 127, (Char.ofNat n).isDigit = true →
      isPlain (Char.ofNat n) = true ∧ Char.ofNat n ∉ WHITESPACE := by decide
  have hdark : ∀ c ∈ decimal ErrCode, isPlain c = true ∧ c ∉ WHITESPACE := by
    intro c hc
    rcases mem_decimal hc with rfl | hc
    · decide
    · have hascii : c.toNat ≤ 127 := by
        simp only [Char.isDigit, Bool.and_eq_true, decide_eq_true_eq,
          UInt32.le_iff_toNat_le] at hc
        exact hc.2.trans (by decide)
      have hspec := hdigit c.toNat hascii
      rw [Char.ofNat_toNat] at hspec
      exact hspec hc
  obtain ⟨c, hc⟩ := List.exists_mem_of_ne_nil _ (decimal_ne_nil ErrCode)
  exact verbatim_of_plain (fun d hd ↦ (hdark d hd).1) ⟨c, hc, (hdark c hc).2⟩

theorem shows_faultInner (h : Verbatim ErrStr) :
    Shows (faultInner ErrCode ErrStr) [faultNode ErrCode ErrStr] := by
  have hcode : Shows (elementText "errorCode".toList [] (decimal ErrCode))
      [.element "errorCode".toList [] [.text (decimal ErrCode)]] :=
    shows_text (readableTag_of_hand (by decide)) (verbatim_decimal ErrCode)
  have hdescription : Shows (elementText "errorDescription".toList [] ErrStr)
      [.element "errorDescription".toList [] [.text ErrStr]] :=
    shows_text (readableTag_of_hand (by decide)) h
  have herror := (hcode.append hdescription).element
    (readableTag_of_hand (show handTag "UPnPError".toList errorAttributes = true by decide))
  have hdetail := herror.element
    (readableTag_of_hand (show handTag "detail".toList [] = true by decide))
  have hfaultcode : Shows (elementText "faultcode".toList [] "s:Client".toList)
      [.element "faultcode".toList [] [.text "s:Client".toList]] :=
    shows_text (readableTag_of_hand (by decide))
      (verbatim_of_plain (forall_mem_of_all (by decide)) ⟨'s', by decide, by decide⟩)
  have hfaultstring : Shows (elementText "faultstring".toList [] "UPnPError".toList)
      [.element "faultstring".toList [] [.text "UPnPError".toList]] :=
    shows_text (readableTag_of_hand (by decide))
      (verbatim_of_plain (forall_mem_of_all (by decide)) ⟨'U', by decide, by decide⟩)
  exact ((hfaultcode.append hfaultstring).append hdetail).element
    (readableTag_of_hand (show handTag "s:Fault".toList [] = true by decide))

/-! ## Parsing -/

/-- `UpnpParse_Buffer`, with what the variables of its loop hold at first. -/
def parseBuffer (fuel : Nat) (n : NextNode) (text : CString) : Option Document :=
  (readDocument fuel n text).toOption

/-- The document is read of the text. -/
def Parses (n : NextNode) (text : CString) (doc : Document) : Prop :=
  ∃ least, ∀ fuel ≥ least, parseBuffer fuel n text = some doc

theorem Parses.of_shows (h : Shows t cs) (hstart : StartsTag t) (n : NextNode) :
    Parses n t cs := by
  obtain ⟨least, hread⟩ := h.read hstart n
  refine ⟨least, fun fuel hfuel ↦ ?_⟩
  obtain ⟨more, rfl⟩ := Nat.exists_eq_add_of_le hfuel
  rw [parseBuffer, hread more]
  rfl

/-- Texts are parsed with the same fuel. -/
theorem Parses.both {text text' : CString} {doc doc' : Document} (h : Parses n text doc)
    (h' : Parses n text' doc') : ∃ least, ∀ fuel ≥ least,
      parseBuffer fuel n text = some doc ∧ parseBuffer fuel n text' = some doc' := by
  obtain ⟨least, hparse⟩ := h
  obtain ⟨least', hparse'⟩ := h'
  exact ⟨max least least', fun fuel hfuel ↦ ⟨hparse fuel ((le_max_left ..).trans hfuel),
    hparse' fuel ((le_max_right ..).trans hfuel)⟩⟩

/-- An element is printed and read back. -/
theorem parses_dump {node : Content} (helement : IsElement node) (hnode : Readable node)
    (n : NextNode) : Parses n (dump_doc node) [node] := by
  have hshows := shows_siblings (show ReadableElements [node] from ⟨helement, hnode, trivial⟩)
  cases node with
  | text => exact helement.elim
  | element name attributes children =>
    have hparses := Parses.of_shows hshows (startsTag_siblings hnode.1.isName) n
    rwa [dumpSiblings, dumpSiblings, List.append_nil] at hparses

theorem parses_envelope (hstyle : encodingStyle = requestStyle ∨ encodingStyle = replyStyle)
    (h : Shows inner cs) (hgap : ∀ c ∈ gap, c ∈ WHITESPACE) (n : NextNode) :
    Parses n (envelopeText encodingStyle inner gap) [envelope encodingStyle cs] :=
  .of_shows (shows_envelope hstyle h hgap) (startsTag_elementText
    (isName_of_letters (by decide) (forall_mem_of_all (by decide)))) n

end Upnp.Soap
