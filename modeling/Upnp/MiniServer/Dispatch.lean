import Upnp.HttpMessage.Headers
import Upnp.HttpMessage.StartLine
import Upnp.MiniServer.Request
import Upnp.Xml.Reference

/-!
# The dispatch of a request

`MultiplexCommand` picks the handler by what the request line begins with, and `genaCallback` its
operation by the method token that it parses.  The client and the device code are both compiled in,
and all three callbacks are set.
-/

namespace Upnp.MiniServer

open Upnp.Lib
open RCode HTTP_COMMAND_TYPE
open HttpMessage (isToken parse_token parse_request_line parse_headers HttpRequest)

/-- The callbacks of the mini server. -/
inductive MiniServerCallback where
  | gSoapCallback
  | gGenaCallback
  | gGetCallback
deriving DecidableEq, Repr

open MiniServerCallback

/-- `MultiplexCommand`: the callback that gets the document. -/
def MultiplexCommand : HTTP_COMMAND_TYPE → Option MiniServerCallback
  | CMD_SOAP_POST => some gSoapCallback
  | CMD_SOAP_MPOST => some gSoapCallback
  | CMD_GENA_NOTIFY => some gGenaCallback
  | CMD_GENA_SUBSCRIBE => some gGenaCallback
  | CMD_GENA_UNSUBSCRIBE => some gGenaCallback
  | CMD_HTTP_GET => some gGetCallback
  | CMD_HTTP_UNKNOWN => none

/-- The request line of a connection. -/
def requestLine (reads : List (Option CString)) : Option CString :=
  match NetReader1.getLine ⟨[], reads⟩ with
  | (.got ⟨reqLine, false⟩, _) => some reqLine
  | _ => none

/-- `HandleRequest`: the callback and the document, or the code that `HandleError` gets.  `command`
of `ReadRequest` is the command of the request line. -/
def HandleRequest (reads : List (Option CString)) : Except RCode (MiniServerCallback × CString) :=
  match ReadRequest reads with
  | .error code => .error code
  | .ok document =>
    match (requestLine reads).bind fun reqLine ↦ MultiplexCommand (GetCommandType reqLine) with
    | none => .error RCODE_METHOD_NOT_IMPLEMENTED
    | some callback => .ok (callback, document)

/-- `parse_http_request`: the request line and the headers. -/
def parse_http_request (env : Uri.Env) (malloc : Nat → Bool) (memory : CString) (max_len : Nat) :
    Option (Except Int (HttpRequest × HttpMessage.Headers)) :=
  match parse_request_line env max_len memory with
  | none => none
  | some none => some (.error HttpMessage.UPNP_E_BAD_REQUEST)
  | some (some (temp, request)) =>
    match parse_headers malloc (memory.drop temp) (max_len - temp) with
    | none => none
    | some (.error _) => some (.error HttpMessage.UPNP_E_BAD_REQUEST)
    | some (.ok headers) => some (.ok (request, headers))

/-- What `genaCallback` does with a request. -/
inductive GenaAction where
  | genaSubscribeOrRenew (request : HttpRequest × HttpMessage.Headers)
  | genaUnsubscribeRequest (request : HttpRequest × HttpMessage.Headers)
  | genaNotifyReceived (request : HttpRequest × HttpMessage.Headers)
  | NOT_IMPLEMENTED
  | BAD_REQUEST

open GenaAction

/-- A string in memory. -/
def memoryOf (document : CString) : CString := document.takeWhile (· ≠ '\x00') ++ ['\x00']

/-- The comparisons of `genaCallback`, by the length of the token at the start of the memory. -/
def genaOperation (memory : CString) (size : Nat) (request : HttpRequest × HttpMessage.Headers) :
    GenaAction :=
  if strncaseEq memory "SUBSCRIBE".toList size then genaSubscribeOrRenew request
  else if strncaseEq memory "UNSUBSCRIBE".toList size then genaUnsubscribeRequest request
  else if strncaseEq memory "NOTIFY".toList size then genaNotifyReceived request
  else NOT_IMPLEMENTED

/-- `genaCallback`. -/
def genaCallback (env : Uri.Env) (malloc : Nat → Bool) (document : CString) : Option GenaAction :=
  let memory := memoryOf document
  (parse_http_request env malloc memory (memory.length - 1)).map fun
    | .error _ => BAD_REQUEST
    | .ok request => genaOperation memory request.1.method.size.toNat request

/-! ## What it is for -/

/-- The name of a command's method. -/
def methodName : HTTP_COMMAND_TYPE → CString
  | CMD_HTTP_GET => "GET".toList
  | CMD_SOAP_POST => "POST".toList
  | CMD_SOAP_MPOST => "M-POST".toList
  | CMD_GENA_SUBSCRIBE => "SUBSCRIBE".toList
  | CMD_GENA_UNSUBSCRIBE => "UNSUBSCRIBE".toList
  | CMD_GENA_NOTIFY => "NOTIFY".toList
  | CMD_HTTP_UNKNOWN => []

/-- The GENA operation of a command. -/
def operationOf (cmd : HTTP_COMMAND_TYPE) (request : HttpRequest × HttpMessage.Headers) : GenaAction :=
  match cmd with
  | CMD_GENA_SUBSCRIBE => genaSubscribeOrRenew request
  | CMD_GENA_UNSUBSCRIBE => genaUnsubscribeRequest request
  | CMD_GENA_NOTIFY => genaNotifyReceived request
  | _ => NOT_IMPLEMENTED

/-- The method token of a request line, in upper case. -/
def methodToken (line : CString) : CString := (line.takeWhile isToken).map Char.toUpper

/-- What has to hold of the requests with a request line. -/
structure DispatchAgrees (env : Uri.Env) (malloc : Nat → Bool) (line : CString) : Prop where
  whole : ∀ callback, MultiplexCommand (GetCommandType line) = some callback →
    ∃ cmd, MultiplexCommand cmd = some callback ∧ methodToken line = methodName cmd
  operation : ∀ reads document, requestLine reads = some line →
    HandleRequest reads = .ok (gGenaCallback, document) →
    ∃ cmd, MultiplexCommand cmd = some gGenaCallback ∧ methodToken line = methodName cmd ∧
      ∀ request, parse_http_request env malloc (memoryOf document)
          ((memoryOf document).length - 1) = some (.ok request) →
        genaCallback env malloc document = some (operationOf cmd request)
  stranger : ∀ cmd ≠ CMD_HTTP_UNKNOWN, methodToken line ≠ methodName cmd →
    (methodToken line <+: methodName cmd ∨ methodName cmd <+: methodToken line) →
    MultiplexCommand (GetCommandType line) = none

/-- The method token is the name of a method with more behind it. -/
def Extended (line : CString) : Prop :=
  ∃ cmd ≠ CMD_HTTP_UNKNOWN, methodName cmd <+: methodToken line ∧ methodToken line ≠ methodName cmd

/-! ## The method token -/

variable {line name s : CString} {c : Char} {cmd : HTTP_COMMAND_TYPE}

theorem separators_eq : HttpMessage.SEPARATORS = ['(', ')', '<', '>', '@', ',', ';', ':', '\\', '\"',
    '/', '[', ']', '?', '=', '\x7b', '\x7d', ' ', '\t'] :=
  String.toList_ofList

theorem isToken_of_isAlpha (h : c.isAlpha) : isToken c = true := by
  have hrange : 65 ≤ c.toNat ∧ c.toNat ≤ 122 := by
    have hcase : c.isUpper = true ∨ c.isLower = true := (Bool.or_eq_true ..).mp h
    rcases hcase with hupper | hlower
    · obtain ⟨hlow, hhigh⟩ : 'A'.val ≤ c.val ∧ c.val ≤ 'Z'.val := of_decide_eq_true hupper
      have hhigh : c.toNat ≤ 90 := UInt32.le_iff_toNat_le.mp hhigh
      exact ⟨UInt32.le_iff_toNat_le.mp hlow, hhigh.trans (by decide)⟩
    · obtain ⟨hlow, hhigh⟩ := (Bool.and_eq_true ..).mp hlower
      have hlow : 97 ≤ c.toNat := UInt32.le_iff_toNat_le.mp (of_decide_eq_true hlow)
      exact ⟨le_trans (by decide) hlow, UInt32.le_iff_toNat_le.mp (of_decide_eq_true hhigh)⟩
  have hseparator : HttpMessage.SEPARATORS.contains c = false := by
    rw [List.contains_eq_mem, decide_eq_false_iff_not]
    intro hmem
    have hall : (HttpMessage.SEPARATORS.all fun d ↦ !d.isAlpha) = true := by
      rw [separators_eq]
      rfl
    have hnot := List.all_eq_true.mp hall c hmem
    rw [h] at hnot
    cases hnot
  rw [isToken, hseparator, decide_eq_true (by omega), decide_eq_true (by omega)]
  rfl

/-- A letter in lower case, and the one in upper case. -/
theorem toUpper_of_lower (h : 'a' ≤ c ∧ c ≤ 'z') :
    c.isAlpha = true ∧ c.toUpper.isAlpha = true ∧ c.toUpper.toLower = c.toLower := by
  have hlow : 97 ≤ c.toNat := UInt32.le_iff_toNat_le.mp h.1
  have hhigh : c.toNat ≤ 122 := UInt32.le_iff_toNat_le.mp h.2
  have hall : ∀ k < 26, (Char.ofNat (97 + k)).isAlpha = true ∧
      (Char.ofNat (97 + k)).toUpper.isAlpha = true ∧
      (Char.ofNat (97 + k)).toUpper.toLower = (Char.ofNat (97 + k)).toLower := by decide
  have hc : Char.ofNat (97 + (c.toNat - 97)) = c := by
    rw [Nat.add_sub_cancel' hlow, Char.ofNat_toNat]
  rw [← hc]
  exact hall _ (by omega)

/-- Upper case makes no difference to what a token is. -/
theorem isToken_toUpper (c : Char) : isToken c.toUpper = isToken c := by
  by_cases h : 'a' ≤ c ∧ c ≤ 'z'
  · obtain ⟨halpha, hupper, -⟩ := toUpper_of_lower h
    rw [isToken_of_isAlpha halpha, isToken_of_isAlpha hupper]
  · rw [toUpper_eq_self h]

theorem toLower_toUpper (c : Char) : c.toUpper.toLower = c.toLower := by
  by_cases h : 'a' ≤ c ∧ c ≤ 'z'
  · exact (toUpper_of_lower h).2.2
  · rw [toUpper_eq_self h]

theorem methodToken_eq (line : CString) :
    methodToken line = (line.map Char.toUpper).takeWhile isToken := by
  rw [methodToken, List.takeWhile_map]
  congr 2
  funext c
  exact (isToken_toUpper c).symm

theorem methodName_isToken (h : c ∈ methodName cmd) : isToken c = true := by
  have hall : ((methodName cmd).all fun c ↦ c.isAlpha || c = '-') = true := by
    cases cmd <;> rfl
  have hc := List.all_eq_true.mp hall c h
  rw [Bool.or_eq_true, decide_eq_true_eq] at hc
  rcases hc with halpha | rfl
  · exact isToken_of_isAlpha halpha
  · rw [isToken, separators_eq]
    decide

/-- A name is in front of a text if it is in front of its token. -/
theorem prefix_methodToken :
    methodName cmd <+: line.map Char.toUpper ↔ methodName cmd <+: methodToken line := by
  rw [methodToken_eq]
  constructor
  · rintro ⟨rest, heq⟩
    rw [← heq, List.takeWhile_append_of_pos fun c hc ↦ methodName_isToken hc]
    exact List.prefix_append ..
  · exact fun h ↦ h.trans (List.takeWhile_prefix _)

/-- The first character and the pattern together are the comparison with the name. -/
theorem GetCommandType_eq_iff (h : cmd ≠ CMD_HTTP_UNKNOWN) :
    GetCommandType line = cmd ↔ methodName cmd <+: methodToken line := by
  rw [← prefix_methodToken, GetCommandType]
  generalize line.map Char.toUpper = upper
  have hmatch {name : CString} {cmd' : HTTP_COMMAND_TYPE} (heq : matchPattern upper name cmd' = cmd) :
      name <+: upper ∧ cmd' = cmd := by
    rw [matchPattern] at heq
    split at heq
    · next hpre => exact ⟨List.isPrefixOf_iff_prefix.mp hpre, heq⟩
    · exact absurd heq.symm h
  constructor
  · intro heq
    split at heq
    iterate 6
      obtain ⟨hpre, rfl⟩ := hmatch heq
      exact hpre
    exact absurd heq.symm h
  · rintro ⟨rest, rfl⟩
    cases cmd with
    | CMD_HTTP_UNKNOWN => exact absurd rfl h
    | CMD_HTTP_GET => rfl
    | CMD_SOAP_POST => rfl
    | CMD_SOAP_MPOST => rfl
    | CMD_GENA_SUBSCRIBE => rfl
    | CMD_GENA_UNSUBSCRIBE => rfl
    | CMD_GENA_NOTIFY => rfl

theorem methodToken_name (cmd : HTTP_COMMAND_TYPE) : methodToken (methodName cmd) = methodName cmd := by
  cases cmd <;> rfl

theorem MultiplexCommand_eq_none_iff : MultiplexCommand cmd = none ↔ cmd = CMD_HTTP_UNKNOWN := by
  cases cmd <;> simp [MultiplexCommand]

/-- No name is in front of another. -/
theorem eq_of_prefix_name {cmd' : HTTP_COMMAND_TYPE} (h : cmd ≠ CMD_HTTP_UNKNOWN)
    (h' : cmd' ≠ CMD_HTTP_UNKNOWN) (hpre : methodName cmd <+: methodName cmd') : cmd = cmd' := by
  have hself : GetCommandType (methodName cmd') = cmd' := by
    rw [GetCommandType_eq_iff h', methodToken_name]
  rw [← methodToken_name cmd'] at hpre
  exact ((GetCommandType_eq_iff h).mpr hpre).symm.trans hself

/-! ## The document -/

namespace NetReader1

theorem getLineLoop_lf {r r' : NetReader1} {crFound : Bool} {line : Line}
    (h : r.getLineLoop s crFound = (.got line, r')) (hfound : line.newlineNotFound = false) :
    line.s.getLast? = some '\n' := by
  fun_induction getLineLoop r s crFound with
  | case1 =>
    cases h
    cases hfound
  | case2 => cases h
  | case3 r s crFound r₁ hget =>
    cases h
    exact List.getLast?_concat ..
  | case4 r s crFound r₁ hget hc ih => exact ih h
  | case5 =>
    cases h
    cases hfound
  | case6 r s crFound c r₁ hget hc hcr hnot ih => exact ih h

end NetReader1

theorem requestLine_lf {reads : List (Option CString)} (h : requestLine reads = some line) :
    line.getLast? = some '\n' := by
  rw [requestLine] at h
  split at h
  · next heq =>
    cases h
    exact NetReader1.getLineLoop_lf heq rfl
  · cases h

/-- The headers are put behind what is there. -/
theorem prefix_readHeaders {r r' : NetReader1} {document document' : CString}
    {contentLength length : Int}
    (h : readHeaders r document contentLength = (.ok (document', length), r')) :
    document <+: document' := by
  fun_induction readHeaders r document contentLength with
  | case1 => cases h
  | case2 => cases h
  | case3 => cases h
  | case4 => cases h
  | case5 =>
    cases h
    exact List.prefix_append ..
  | case6 r document contentLength line r₁ hline length malformed hlength hok hnot ih =>
    exact (List.prefix_append ..).trans (ih h)

theorem prefix_readBody {r : NetReader1} {contentLength : Int} {document document' : CString}
    {total : Nat}
    (h : readBody contentLength r document total = .ok document') : document <+: document' := by
  fun_induction readBody contentLength r document total with
  | case1 => cases h
  | case2 =>
    cases h
    exact List.prefix_rfl
  | case3 =>
    cases h
    exact List.prefix_append ..
  | case4 r document total buf r₁ hread hlt ih => exact (List.prefix_append ..).trans (ih h)

/-- A document begins with its request line. -/
theorem prefix_ReadRequest {reads : List (Option CString)} {document : CString}
    (h : ReadRequest reads = .ok document) (hline : requestLine reads = some line) :
    line <+: document := by
  rw [requestLine] at hline
  rw [ReadRequest] at h
  split at hline
  · next heq =>
    cases hline
    rw [heq] at h
    dsimp only at h
    split at h
    · cases h
    split at h
    · cases h
    · next hheaders =>
      have hpre := prefix_readHeaders hheaders
      split at h
      · cases h
      split at h
      · exact hpre.trans (prefix_readBody h)
      · cases h
        exact hpre
  · cases hline

/-! ## The second level -/

theorem not_nul_of_isToken (h : isToken c = true) : decide (c ≠ '\x00') = true := by
  rw [decide_eq_true_eq]
  rintro rfl
  cases h

/-- The memory of a document begins with the token of the request line, and there it ends. -/
theorem memoryOf_token {document : CString} (hlf : line.getLast? = some '\n')
    (hpre : line <+: document) :
    ∃ rest, memoryOf document = line.takeWhile isToken ++ rest ∧ rest ≠ [] ∧
      ∀ c ∈ rest.head?, isToken c = false := by
  obtain ⟨more, rfl⟩ := hpre
  have hsplit := @List.takeWhile_append_dropWhile _ isToken line
  have hhead := List.head?_dropWhile_not isToken line
  have htoken (c : Char) (hc : c ∈ line.takeWhile isToken) : isToken c = true :=
    List.mem_takeWhile_imp hc
  cases hrest : line.dropWhile isToken with
  | nil =>
    -- the line ends in a character that is of no token
    have hall := List.dropWhile_eq_nil_iff.mp hrest '\n' (List.mem_of_getLast? hlf)
    cases hall
  | cons d rest =>
    rw [hrest] at hsplit hhead
    have hd : isToken d = false := by simpa using hhead
    refine ⟨(d :: (rest ++ more)).takeWhile (· ≠ '\x00') ++ ['\x00'], ?_, by simp, ?_⟩
    · rw [memoryOf]
      conv_lhs => rw [← hsplit]
      rw [List.append_assoc, List.takeWhile_append_of_pos fun c hc ↦ not_nul_of_isToken (htoken c hc),
        List.append_assoc]
      rfl
    · intro c hc
      by_cases hnul : d = '\x00'
      · subst hnul
        rw [List.takeWhile_cons_of_neg (by decide)] at hc
        cases hc
        rfl
      · rw [@List.takeWhile_cons_of_pos _ (fun c ↦ decide (c ≠ '\x00')) _ _ (decide_eq_true hnul)] at hc
        cases hc
        exact hd

theorem method_of_parse {env : Uri.Env} {malloc : Nat → Bool} {memory : CString} {max_len : Nat}
    {request : HttpRequest × HttpMessage.Headers}
    (h : parse_http_request env malloc memory max_len = some (.ok request)) :
    request.1.method = ⟨some 0, parse_token max_len memory⟩ := by
  rw [parse_http_request] at h
  split at h
  · cases h
  · cases h
  · next hline =>
    obtain ⟨_, _, _, _, _, _, htoken, -, -, -, -, -, -, -, hout⟩ :=
      HttpMessage.parse_request_line_ok hline
    split at h
    · cases h
    · cases h
    · cases h
      rw [hout, htoken]

theorem toLower_of_methodToken (h : methodToken line = s) :
    (line.takeWhile isToken).map Char.toLower = s.map Char.toLower := by
  rw [← h, methodToken, List.map_map]
  refine List.map_congr_left fun c _ ↦ ?_
  exact (toLower_toUpper c).symm

/-- The comparison by the length of the token is one with the whole token. -/
theorem strncaseEq_token {memory token name name' : CString} (h : token <+: memory)
    (hname : token.map Char.toLower = name.map Char.toLower) :
    strncaseEq memory name' token.length = strncaseEq name name' name.length := by
  have hlen : token.length = name.length := by
    have hlength := congrArg List.length hname
    rwa [List.length_map, List.length_map] at hlength
  have hall : (name.map Char.toLower).take name.length = name.map Char.toLower :=
    List.take_of_length_le (List.length_map ..).le
  rw [Xml.strncaseEq_eq, Xml.strncaseEq_eq, ← List.map_take, ← List.prefix_iff_eq_take.mp h, hname,
    hlen, hall]

/-- The operation of the method whose name the token is. -/
theorem genaOperation_eq {memory token : CString} {request : HttpRequest × HttpMessage.Headers}
    (h : token <+: memory) (hname : token.map Char.toLower = (methodName cmd).map Char.toLower)
    (hgena : MultiplexCommand cmd = some gGenaCallback) :
    genaOperation memory token.length request = operationOf cmd request := by
  rw [genaOperation, strncaseEq_token h hname, strncaseEq_token h hname, strncaseEq_token h hname]
  cases cmd with
  | CMD_HTTP_UNKNOWN => cases hgena
  | CMD_HTTP_GET => cases hgena
  | CMD_SOAP_POST => cases hgena
  | CMD_SOAP_MPOST => cases hgena
  | CMD_GENA_SUBSCRIBE => rfl
  | CMD_GENA_UNSUBSCRIBE => rfl
  | CMD_GENA_NOTIFY => rfl

/-- `genaCallback` on a document whose request line has the name of a GENA method as its token. -/
theorem genaCallback_eq {env : Uri.Env} {malloc : Nat → Bool} {document : CString}
    {request : HttpRequest × HttpMessage.Headers} (hlf : line.getLast? = some '\n')
    (hpre : line <+: document) (hname : methodToken line = methodName cmd)
    (hgena : MultiplexCommand cmd = some gGenaCallback)
    (hparse : parse_http_request env malloc (memoryOf document) ((memoryOf document).length - 1) =
      some (.ok request)) :
    genaCallback env malloc document = some (operationOf cmd request) := by
  obtain ⟨rest, hmemory, hne, hrest⟩ := memoryOf_token hlf hpre
  have hsize : parse_token ((memoryOf document).length - 1 : Nat) (memoryOf document) =
      (line.takeWhile isToken).length := by
    have hpos := List.length_pos_of_ne_nil hne
    rw [parse_token, hmemory]
    refine HttpMessage.scan_append (fun c hc ↦ List.mem_takeWhile_imp hc) hrest ?_
    rw [List.length_append, Int.toNat_natCast]
    omega
  have hmethod : request.1.method.size.toNat = (line.takeWhile isToken).length := by
    rw [method_of_parse hparse, ← hsize]
    rfl
  have htoken : line.takeWhile isToken <+: memoryOf document := by
    rw [hmemory]
    exact List.prefix_append ..
  show (parse_http_request ..).map _ = _
  rw [hparse]
  show some (genaOperation _ request.1.method.size.toNat request) = _
  rw [hmethod, genaOperation_eq htoken (toLower_of_methodToken hname) hgena]

/-! ## Agreement -/

/-- Where the token is not extended, the command is the one with its name. -/
theorem methodToken_eq_name (h : ¬ Extended line) (hcmd : GetCommandType line = cmd)
    (hne : cmd ≠ CMD_HTTP_UNKNOWN) : methodToken line = methodName cmd := by
  by_contra hname
  exact h ⟨cmd, hne, (GetCommandType_eq_iff hne).mp hcmd, hname⟩

theorem callback_of_HandleRequest {reads : List (Option CString)} {callback : MiniServerCallback}
    {document : CString} (hline : requestLine reads = some line)
    (h : HandleRequest reads = .ok (callback, document)) :
    MultiplexCommand (GetCommandType line) = some callback ∧ line <+: document := by
  rw [HandleRequest] at h
  split at h
  · cases h
  · next hread =>
    rw [hline, Option.bind_some] at h
    split at h
    · cases h
    · next hcallback =>
      cases h
      exact ⟨hcallback, prefix_ReadRequest hread hline⟩

/-- The two levels agree on a request line exactly if its method token is not the name of a method
with more behind it. -/
theorem dispatchAgrees_iff (env : Uri.Env) (malloc : Nat → Bool) (line : CString) :
    DispatchAgrees env malloc line ↔ ¬ Extended line := by
  constructor
  · rintro hagrees ⟨cmd, hne, hpre, hname⟩
    have hnone := hagrees.stranger cmd hne hname (.inr hpre)
    rw [(GetCommandType_eq_iff hne).mpr hpre] at hnone
    exact hne (MultiplexCommand_eq_none_iff.mp hnone)
  · intro hextended
    have hknown {callback : MiniServerCallback}
        (h : MultiplexCommand (GetCommandType line) = some callback) :
        GetCommandType line ≠ CMD_HTTP_UNKNOWN := by
      intro hunknown
      rw [hunknown] at h
      cases h
    constructor
    · intro callback hcallback
      exact ⟨_, hcallback, methodToken_eq_name hextended rfl (hknown hcallback)⟩
    · intro reads document hline hhandle
      obtain ⟨hcallback, hpre⟩ := callback_of_HandleRequest hline hhandle
      have hname := methodToken_eq_name hextended rfl (hknown hcallback)
      refine ⟨_, hcallback, hname, fun request hparse ↦ ?_⟩
      exact genaCallback_eq (requestLine_lf hline) hpre hname hcallback hparse
    · intro cmd hne hother hpre
      rw [MultiplexCommand_eq_none_iff]
      by_contra hcommand
      have hname := methodToken_eq_name hextended rfl hcommand
      have heq : GetCommandType line = cmd := by
        rcases hpre with hpre | hpre
        · exact eq_of_prefix_name hcommand hne (hname ▸ hpre)
        · exact (GetCommandType_eq_iff hne).mpr hpre
      rw [heq] at hname
      exact hother hname

/-- `GETX` is a method of its own, and the web server gets its requests. -/
theorem not_dispatchAgrees : ¬ DispatchAgrees ⟨true, fun _ ↦ none⟩ (fun _ ↦ true)
    "GETX / HTTP/1.1\r\n".toList := by
  intro hagrees
  obtain ⟨cmd, -, hname⟩ := hagrees.whole gGetCallback rfl
  have htoken : methodToken "GETX / HTTP/1.1\r\n".toList = "GETX".toList := rfl
  rw [htoken] at hname
  cases cmd <;> exact absurd hname (by decide)

end Upnp.MiniServer
