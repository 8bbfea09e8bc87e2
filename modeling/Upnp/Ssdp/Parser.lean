import Upnp.Lib.CString

/-!
# SSDP parser

`ssdpparser.c`: a received text is cut into lines, and each line whose name is
known is given to its parser function, which fills in the `Event`.  Each function
also says which arrays it writes to and how far (`Exec.writes`); a null pointer
that is followed ends the run.
-/

namespace Upnp.Ssdp

open Upnp.Lib

/-! ## Runs with the writes they make -/

/-- A write to the cells of an array from the first to the one with index `last`. -/
structure Write where
  size : Nat
  last : Int
deriving DecidableEq, Repr

/-- The write stays in the array. -/
def Write.InBounds (w : Write) : Prop := 0 ≤ w.last ∧ w.last < w.size

instance (w : Write) : Decidable w.InBounds := inferInstanceAs (Decidable (_ ∧ _))

/-- The writes of a run and its result; `none` when it followed a null pointer. -/
structure Exec (α : Type) where
  writes : List Write
  val : Option α

namespace Exec

instance : Monad Exec where
  pure a := ⟨[], some a⟩
  bind x f := ⟨x.writes ++ (x.val.elim [] fun a ↦ (f a).writes), x.val.bind fun a ↦ (f a).val⟩

/-- A null pointer is followed. -/
def fault {α : Type} : Exec α := ⟨[], none⟩

/-- A pointer is followed. -/
def follow {α : Type} (p : Option α) : Exec α := ⟨[], p⟩

/-- A write up to the index `last`. -/
def write (size : Nat) (last : Int) : Exec Unit := ⟨[⟨size, last⟩], some ()⟩

/-- `strcpy` to an array: the characters and the terminator. -/
def copy (size : Nat) (s : CString) : Exec Unit := write size s.length

end Exec

open Exec

/-- `strstr(s, pat) != NULL`. -/
def Contains (s pat : CString) : Prop := strstr s pat ≠ none

instance (s pat : CString) : Decidable (Contains s pat) := inferInstanceAs (Decidable (_ ≠ _))

/-- `StrTok`: the token, and what `*Src` becomes. -/
def StrTok (src : Option CString) (del : CString) : Option CString × Option CString :=
  match src with
  | none => (none, none)
  | some s =>
    match strstr s del with
    | some tmp => (some (s.take (s.length - tmp.length)), some (tmp.drop del.length))
    | none => (some s, none)

/-! ## Events -/

def COMMAND_LEN : Nat := 300
def LINE_SIZE : Nat := 180
def NUM_TOKEN : Nat := 12
def BUFSIZE : Nat := 2500

/-- `enum CmdType`. -/
inductive CmdType where
  | ERROR
  | OK
  | ALIVE
  | BYEBYE
  | SEARCH
  | NOTIFY
  | TIMEOUT
deriving DecidableEq, Repr

/-- `enum SEARCH_TYPE`. -/
inductive SearchType where
  | SERROR
  | ALL
  | ROOTDEVICE
  | DEVICE
  | DEVICETYPE
  | SERVICE
deriving DecidableEq, Repr

/-- `Event`, as far as the parser fills it in.  `InitEvent` gives `Cmd` and `RequestType` the
value -1 under the name of the other's enumeration. -/
structure Event where
  ErrCode : Int
  MaxAge : Int
  Mx : Int
  Cmd : CmdType
  RequestType : SearchType
  UDN : CString
  DeviceType : CString
  ServiceType : CString
  Location : CString
  HostAddr : CString
  Os : CString
  Ext : CString
  Date : CString
  Man : CString
deriving DecidableEq, Repr

def NO_ERROR_FOUND : Int := 0
def E_HTTP_SYNTEX : Int := -6

/-- `InitEvent`. -/
def InitEvent : Event :=
  { ErrCode := 0, MaxAge := 0, Mx := -1, Cmd := .ERROR, RequestType := .SERROR, UDN := [],
    DeviceType := [], ServiceType := [], Location := [], HostAddr := [], Os := [], Ext := [],
    Date := [], Man := [] }

/-- An error code and the return value -1. -/
def syntaxError (evt : Event) : Int × Event := (-1, { evt with ErrCode := E_HTTP_SYNTEX })

/-! ## The parser functions -/

/-- The checks of the second and the third word in each branch of `CheckHdr`. -/
def checkWords (second third : CString) (cmd : CmdType) (tmp : Option CString) (evt : Event) :
    Exec (Int × Event) := do
  let t := StrTok tmp [' ']
  let token ← follow t.1
  if Contains token second then
    let token ← follow (StrTok t.2 [' ']).1
    if Contains token third then pure (1, { evt with Cmd := cmd })
    else pure (syntaxError evt)
  else pure (syntaxError evt)

/-- `CheckHdr`. -/
def CheckHdr (cmd : CString) (evt : Event) : Exec (Int × Event) := do
  copy COMMAND_LEN cmd
  let t := StrTok (some cmd) [' ']
  let token ← follow t.1
  if Contains token "M-SEARCH".toList then checkWords ['*'] "HTTP/1.1".toList .SEARCH t.2 evt
  else if Contains token "NOTIFY".toList then checkWords ['*'] "HTTP/1.1".toList .NOTIFY t.2 evt
  else if Contains token "HTTP/1.1".toList then checkWords "200".toList "OK".toList .OK t.2 evt
  else pure (syntaxError evt)

/-- `Cache_Control`. -/
def Cache_Control (cmd : CString) (evt : Event) : Exec (Int × Event) :=
  let t := StrTok (some cmd) ['=']
  match t.1 with
  | some _ =>
    match (StrTok t.2 ['=']).1 with
    | some token => pure (1, { evt with MaxAge := atoi token })
    | none => pure (-1, evt)
  | none => pure (syntaxError evt)

/-- `Location_Header`. -/
def Location_Header (cmd : CString) (evt : Event) : Exec (Int × Event) :=
  if 7 < cmd.length then do
    copy LINE_SIZE cmd
    pure (1, { evt with Location := cmd })
  else pure (syntaxError evt)

/-- A parser function that stores a text that is not empty with `set`. -/
def storeText (set : CString → Event → Event) (cmd : CString) (evt : Event) : Exec (Int × Event) :=
  if 0 < cmd.length then do
    copy LINE_SIZE cmd
    pure (1, set cmd evt)
  else pure (syntaxError evt)

/-- `Os`. -/
def Os (cmd : CString) (evt : Event) : Exec (Int × Event) :=
  storeText (fun s evt ↦ { evt with Os := s }) cmd evt

/-- `Host`. -/
def Host (cmd : CString) (evt : Event) : Exec (Int × Event) :=
  storeText (fun s evt ↦ { evt with HostAddr := s }) cmd evt

/-- `Fun_MAN`. -/
def Fun_MAN (cmd : CString) (evt : Event) : Exec (Int × Event) :=
  storeText (fun s evt ↦ { evt with Man := s }) cmd evt

/-- `Fun_Date`. -/
def Fun_Date (cmd : CString) (evt : Event) : Exec (Int × Event) :=
  storeText (fun s evt ↦ { evt with Date := s }) cmd evt

/-- `Fun_Ext`, which also takes the empty text. -/
def Fun_Ext (cmd : CString) (evt : Event) : Exec (Int × Event) :=
  if 0 < cmd.length then do
    copy LINE_SIZE cmd
    pure (1, { evt with Ext := cmd })
  else pure (1, evt)

/-- The part of `Unique_Service_Name` for names with `uuid:schemas`. -/
def schemasName (cmd : CString) (evt : Event) : Exec (Int × Event) :=
  match strstr cmd ":device".toList with
  | none => pure (-1, evt)
  | some ptr1 =>
    match strstr (ptr1.drop 1) [':'] with
    | none => pure (-1, evt)
    | some ptr2 =>
      match strstr (ptr2.drop 1) [':'] with
      | none => pure (-1, evt)
      | some ptr3 => do
        let udn := "uuid:".toList ++ ptr3.drop 1
        copy LINE_SIZE udn
        let evt := { evt with UDN := udn }
        match strstr cmd [':'] with
        | none => pure (-1, evt)
        | some ptr1 => do
          -- `strncpy` to `TempBuf`, which is then terminated
          write COMMAND_LEN (ptr1.length - ptr3.length : Int)
          let deviceType := "urn".toList ++ ptr1.take (ptr1.length - ptr3.length)
          copy LINE_SIZE deviceType
          pure (1, { evt with DeviceType := deviceType })

/-- The part of `Unique_Service_Name` for names with `uuid`: the event, and `CommandFound`. -/
def uuidName (cmd : CString) (evt : Event) : Exec (Event × Bool) :=
  match strstr cmd "uuid".toList with
  | none => pure (evt, false)
  | some temp =>
    match strstr cmd "::".toList with
    | some ptr => do
      write LINE_SIZE (temp.length - ptr.length : Int)
      pure ({ evt with UDN := temp.take (temp.length - ptr.length) }, true)
    | none => do
      copy LINE_SIZE temp
      pure ({ evt with UDN := temp }, true)

/-- The parts of `Unique_Service_Name` for the types of services and devices, which contain
`kind`: the event, and whether there is such a type. -/
def typeName (kind : CString) (set : CString → Event → Event) (cmd : CString) (evt : Event) :
    Exec (Event × Bool) :=
  if Contains cmd "urn:".toList ∧ Contains cmd kind then
    match strstr cmd "urn".toList with
    | some temp => do
      copy LINE_SIZE temp
      pure (set temp evt, true)
    | none => pure (evt, false)
  else pure (evt, false)

/-- `Unique_Service_Name`. -/
def Unique_Service_Name (cmd : CString) (evt : Event) : Exec (Int × Event) :=
  if Contains cmd "uuid:schemas".toList then schemasName cmd evt
  else do
    let (evt, uuid) ← uuidName cmd evt
    let (evt, service) ←
      typeName ":service:".toList (fun s evt ↦ { evt with ServiceType := s }) cmd evt
    let (evt, device) ←
      typeName ":device:".toList (fun s evt ↦ { evt with DeviceType := s }) cmd evt
    if uuid || service || device then pure (1, evt) else pure (-1, evt)

/-- `Request_Tpye`. -/
def Request_Tpye (cmd : CString) (evt : Event) : Exec (Int × Event) := do
  let (_, evt) ← Unique_Service_Name cmd evt
  let evt := { evt with ErrCode := NO_ERROR_FOUND }
  if Contains cmd "ssdp:all".toList then pure (1, { evt with RequestType := .ALL })
  else if Contains cmd ":rootdevice".toList then pure (1, { evt with RequestType := .ROOTDEVICE })
  else if Contains cmd "uuid:".toList then pure (1, { evt with RequestType := .DEVICE })
  else if Contains cmd "urn:".toList ∧ Contains cmd ":device:".toList then
    pure (1, { evt with RequestType := .DEVICE })
  else if Contains cmd "urn:".toList ∧ Contains cmd ":service:".toList then
    pure (1, { evt with RequestType := .SERVICE })
  else pure (syntaxError evt)

/-- `Notification_Sub_Type`. -/
def Notification_Sub_Type (cmd : CString) (evt : Event) : Exec (Int × Event) := do
  let t := StrTok (some cmd) [':']
  let token ← follow (StrTok t.2 [':']).1
  if strcaseEq "alive".toList token then pure (1, { evt with Cmd := .ALIVE })
  else if strcaseEq "byebye".toList token then pure (1, { evt with Cmd := .BYEBYE })
  else pure (syntaxError evt)

/-- `Max_Delay`. -/
def Max_Delay (cmd : CString) (evt : Event) : Exec (Int × Event) :=
  if 0 < cmd.length then
    match (StrTok (some cmd) [':']).1 with
    | none => pure (syntaxError evt)
    | some token =>
      if token = [] ∨ atoi token ≤ 0 ∨ '.' ∈ token then pure (syntaxError evt)
      else pure (1, { evt with Mx := atoi token })
  else pure (syntaxError evt)

/-! ## The headers -/

/-- The headers that are parsed. -/
inductive Header where
  | CACHE_CONTROL
  | ST
  | LOCATION
  | HOST
  | USN
  | NT
  | NTS
  | EXT
  | SERVER
  | MAN
  | MX
  | DATE
deriving DecidableEq, Repr

namespace Header

/-- The names in `Token_List`. -/
def name : Header → CString
  | CACHE_CONTROL => "CACHE-CONTROL".toList
  | ST => "ST".toList
  | LOCATION => "LOCATION".toList
  | HOST => "HOST".toList
  | USN => "USN".toList
  | NT => "NT".toList
  | NTS => "NTS".toList
  | EXT => "EXT".toList
  | SERVER => "SERVER".toList
  | MAN => "MAN".toList
  | MX => "MX".toList
  | DATE => "DATE".toList

/-- `FunList`, as `InitParser` fills it in. -/
def parse : Header → CString → Event → Exec (Int × Event)
  | CACHE_CONTROL => Cache_Control
  | ST => Request_Tpye
  | LOCATION => Location_Header
  | HOST => Host
  | USN => Unique_Service_Name
  | NT => Request_Tpye
  | NTS => Notification_Sub_Type
  | EXT => Fun_Ext
  | SERVER => Os
  | MAN => Fun_MAN
  | MX => Max_Delay
  | DATE => Fun_Date

end Header

/-- `Token_List`. -/
def Token_List : List Header :=
  [.CACHE_CONTROL, .ST, .LOCATION, .HOST, .USN, .NT, .NTS, .EXT, .SERVER, .MAN, .MX, .DATE]

/-- The header with a name, whatever the case of its letters. -/
def findHeader (token : CString) : Option Header := Token_List.find? (strcaseEq ·.name token)

/-! ## `AnalyzeCommand` -/

theorem strstr_length {s pat r : CString} (h : strstr s pat = some r) :
    r.length ≤ s.length ∧ pat.length ≤ r.length := by
  induction s with
  | nil =>
    unfold strstr at h
    split at h
    · rename_i hpat
      obtain rfl := Option.some.inj h
      simp [hpat]
    · cases h
  | cons c s ih =>
    rw [strstr] at h
    split at h
    · rename_i hpre
      obtain rfl := Option.some.inj h
      exact ⟨Nat.le_refl _, (List.isPrefixOf_iff_prefix.mp hpre).length_le⟩
    · exact ⟨Nat.le_succ_of_le (ih h).1, (ih h).2⟩

/-- The tokens that the loop of `AnalyzeCommand` gets from `StrTok`. -/
def tokens (s : CString) : List CString :=
  match h : strstr s ['\r', '\n'] with
  | none => [s]
  | some tmp => s.take (s.length - tmp.length) :: tokens (tmp.drop 2)
termination_by s.length
decreasing_by
  have hlen := strstr_length h
  simp only [List.length_drop, List.length_cons, List.length_nil] at hlen ⊢
  omega

/-- The tokens are stored as the rows of `Command_List`. -/
def storeLoop : Nat → List CString → Exec Unit
  | _, [] => pure ()
  | numCommand, token :: ts => do
    write NUM_TOKEN numCommand
    copy COMMAND_LEN token
    storeLoop (numCommand + 1) ts

/-- The loop over the lines behind the first; `size` is that of `TmpBuff`. -/
def headerLoop (size : Nat) : List CString → Int → Event → Exec (Int × Event)
  | [], retVal, evt => pure (retVal, evt)
  | line :: lines, retVal, evt => do
    copy size line
    let cmd := strchr line ':'
    let token ← follow (StrTok (some line) [':']).1
    match findHeader token with
    | none => headerLoop size lines retVal evt
    | some h =>
      let cmd ← follow cmd
      let (retVal, evt) ← h.parse (cmd.drop 1) evt
      if retVal < 0 then pure (-1, evt) else headerLoop size lines retVal evt

/-- `AnalyzeCommand`, when `malloc` does not fail. -/
def AnalyzeCommand (szCommand : CString) (evt : Event) : Exec (Int × Event) :=
  if szCommand.length = 0 then pure (-1, evt)
  else do
    copy (szCommand.length + 2) szCommand
    let commands := tokens szCommand
    storeLoop 0 commands
    match commands with
    | [] => fault
    | first :: lines => do
      let (ret, evt) ← CheckHdr first InitEvent
      if ret ≠ 0 then headerLoop (szCommand.length + 2) lines 1 evt
      else pure (-1, evt)

/-! ## Receiving -/

/-- What `recvfrom` stores of a datagram. -/
def received (datagram : CString) : CString := datagram.take BUFSIZE

/-- The C string in a buffer. -/
def textOf (bytes : CString) : CString := bytes.takeWhile (· ≠ '\x00')

/-- `ListenMulticastChannel` and `TransferResEvent`, with one datagram and what `malloc` returns for
the event; `PutThreadData` copies the text to memory of its own. -/
def ListenMulticastChannel (datagram : CString) (evt : Event) : Exec (Option (Int × Event)) :=
  let bytes := received datagram
  if 0 < bytes.length then do
    write BUFSIZE bytes.length
    let text := textOf bytes
    copy (text.length + 1) text
    let r ← AnalyzeCommand text { evt with ErrCode := NO_ERROR_FOUND }
    pure (some r)
  else pure none

/-- `RequestHandler`, with one datagram and the event as the datagram before left it. -/
def RequestHandler (datagram : CString) (evt : Event) : Exec (Option (Int × Event)) :=
  let bytes := received datagram
  if 0 < bytes.length then do
    write BUFSIZE bytes.length
    let r ← AnalyzeCommand (textOf bytes) evt
    pure (some r)
  else pure none

end Upnp.Ssdp
