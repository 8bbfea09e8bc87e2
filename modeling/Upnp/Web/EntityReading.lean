import Upnp.Web.Entity
import Upnp.Web.Lex
import Upnp.Web.LoadNum
import Upnp.Web.RequestLine
import Upnp.Web.TokenStream

/-!
# Reading the entity of a message

`loadRestOfMessage`, which reads the entity behind the headers: up to the close of the connection,
by its length, or in chunks.  In front of a chunk tokens are read from the scanner, and bytes in it.
-/

namespace Upnp.Web.Reading

open Upnp.Lib
open TokenType

def PARSERR_BAD_ENTITY : Int := -10
def PARSERR_INCOMPLETE_ENTITY : Int := -11

/-- Why a call does not return. -/
inductive Stop where
  | thrown (e : ParseException)
  /-- A write outside of the block of the entity. -/
  | outside
  | fuel
deriving DecidableEq

/-- The scanner, the entity, and what is answered to the next calls of `append`; memory is granted
behind them. -/
structure State (σ : Type) where
  scanner : Tokenizer σ
  entity : HttpEntity
  answers : List Answers

/-- A function that reads an entity. -/
def Body (σ α : Type) := State σ → Except Stop α × State σ

namespace Body

variable {σ α β : Type}

protected def pure (a : α) : Body σ α := fun s ↦ (.ok a, s)

protected def bind (p : Body σ α) (f : α → Body σ β) : Body σ β := fun s ↦
  match p s with
  | (.error e, s) => (.error e, s)
  | (.ok a, s) => f a s

instance : Monad (Body σ) where
  pure := Body.pure
  bind := Body.bind

def throw (e : Stop) : Body σ α := fun s ↦ (.error e, s)

theorem bind_ok {p : Body σ α} {f : α → Body σ β} {s s' : State σ} {a : α} (h : p s = (.ok a, s')) :
    (p >>= f) s = f a s' := by
  show Body.bind p f s = _
  rw [Body.bind, h]

theorem bind_assoc {γ : Type} (p : Body σ α) (f : α → Body σ β) (g : β → Body σ γ) :
    p >>= f >>= g = p >>= fun a ↦ f a >>= g := by
  funext s
  show Body.bind (Body.bind p f) g s = Body.bind p (fun a ↦ Body.bind (f a) g) s
  unfold Body.bind
  cases p s with
  | mk got s => cases got <;> rfl

end Body

open Body (throw)

section Reader

variable {σ : Type} [CharReader σ]

/-- An operation of the scanner. -/
def onScanner {α : Type} (f : Tokenizer σ → Except Exception α × Tokenizer σ) : Body σ α := fun s ↦
  match f s.scanner with
  | (.error e, scanner) => (.error (.thrown (.ofScanner e)), { s with scanner })
  | (.ok a, scanner) => (.ok a, { s with scanner })

def getToken : Body σ Token := onScanner Tokenizer.getToken

def pushBack : Body σ Unit := onScanner Tokenizer.pushBack

/-- `scanner.read`, of no negative length. -/
def read (bufsize : Int) : Body σ CString := onScanner (Tokenizer.read · bufsize)

def endOfData : Body σ Bool := fun s ↦ (.ok s.scanner.endOfData, s)

theorem endOfData_run (s : State σ) : endOfData s = (.ok s.scanner.endOfData, s) := rfl

/-- `entity.append`. -/
def append (data : CString) : Body σ Int := fun s ↦
  match s.entity.append (s.answers.head?.getD .granted) data with
  | none => (.error .outside, s)
  | some (code, entity) => (.ok code, { s with entity, answers := s.answers.tail })

/-- `SkipOptionalWhitespace`. -/
def SkipOptionalWhitespace : Body σ Unit := do
  let token ← getToken
  if token.tokType ≠ WHITESPACE then pushBack

/-- `loadNum`. -/
def loadNum (base : Nat) : Body σ Int := do
  let token ← getToken
  -- a `long` that is stored in an `int`
  let num := wrap32 ((strtol base (c_str token.s)).getD 0)
  if endptr base (c_str token.s) ≠ [] ∨ num < 0 then
    pushBack
    throw (.thrown parseFailure)
  else if (num = -9223372036854775808 ∨ num = 9223372036854775807) ∧
      rangeError base (c_str token.s) then
    pushBack
    throw (.thrown parseFailure)
  else return num

def BUFSIZE : Int := 2048

/-- `readEntityUntilClose`. -/
def readEntityUntilClose : Nat → Body σ Unit
  | 0 => throw .fuel
  | fuel + 1 => do
    if ← endOfData then return
    else
      let buf ← read BUFSIZE
      -- the code of `append` is not looked at
      let _ ← append buf
      readEntityUntilClose fuel

/-- `readEntityUsingLength`. -/
def readEntityUsingLength : Nat → Int → Body σ Int
  | 0, _ => throw .fuel
  | fuel + 1, numLeft => do
    if !(← endOfData) && numLeft > 0 then
      let buf ← read (min BUFSIZE numLeft)
      let _ ← append buf
      readEntityUsingLength fuel (numLeft - buf.length)
    else if numLeft ≠ 0 then return -1
    else return 0

/-- `throw -1` in `readEncodedEntity`, as its handler throws it again. -/
def badEntity {α : Type} : Body σ α := throw (.thrown (.HttpParseException PARSERR_BAD_ENTITY))

/-- The loop over the extensions of a chunk; `token` is the one that was read behind them. -/
def skipExtensions : Nat → Token → Body σ Unit
  | 0, _ => throw .fuel
  | fuel + 1, token => do
    if token.tokType = CRLF then return
    else if token.s ≠ [';'] then badEntity
    else
      SkipOptionalWhitespace
      let token ← getToken
      if token.tokType ≠ IDENTIFIER then badEntity
      else
        SkipOptionalWhitespace
        let token ← getToken
        if token.s ≠ ['='] then skipExtensions fuel token
        else
          SkipOptionalWhitespace
          let token ← getToken
          if ¬(token.tokType = IDENTIFIER ∨ token.tokType = QUOTED_STRING) then badEntity
          else
            SkipOptionalWhitespace
            let token ← getToken
            skipExtensions fuel token

/-- The line in front of a chunk, and its size. -/
def readChunkLine (fuel : Nat) : Body σ Int := do
  let chunkSize ← loadNum 16
  SkipOptionalWhitespace
  let token ← getToken
  skipExtensions fuel token
  return chunkSize

/-- The loop of `readEncodedEntity` over the chunks. -/
def readChunks : Nat → Body σ Unit
  | 0 => throw .fuel
  | fuel + 1 => do
    let chunkSize ← readChunkLine fuel
    if chunkSize = 0 then return
    else
      -- what it returns is not looked at
      let _ ← readEntityUsingLength fuel chunkSize
      let token ← getToken
      if token.tokType ≠ CRLF then
        pushBack
        throw (.thrown parseFailure)
      else readChunks fuel

/-- `readEncodedEntity`, with the function that reads the headers behind the chunks. -/
def readEncodedEntity (fuel : Nat) (ParseHeaders : Body σ Unit) : Body σ Unit := do
  readChunks fuel
  ParseHeaders

/-- What `messageBodyLen` looks at: the start line and the headers that were parsed. -/
structure Framing where
  isRequest : Bool
  method : Option UpnpMethodType
  statusCode : Int
  transferEncoding : Bool
  contentLength : Option Int
deriving DecidableEq

/-- `getContentLength`. -/
def Framing.getContentLength (m : Framing) : Int := m.contentLength.getD (-1)

/-- The messages that have no body, whatever their headers say. -/
def Framing.bodiless (requestMethod : Option UpnpMethodType) (m : Framing) : Bool :=
  if m.isRequest then
    m.method ∈ [some .HTTP_HEAD, some .HTTP_GET, some .UPNP_SUBSCRIBE, some .UPNP_UNSUBSCRIBE,
      some .UPNP_MSEARCH]
  else
    m.statusCode = 204 ∨ m.statusCode = 304 ∨ 100 ≤ m.statusCode ∧ m.statusCode ≤ 199 ∨
      requestMethod = some .HTTP_HEAD

/-- `messageBodyLen`, and the `length` that it leaves. -/
def messageBodyLen (requestMethod : Option UpnpMethodType) (m : Framing) : Int × Int :=
  if m.bodiless requestMethod then (-1, -1)
  else if m.transferEncoding then (1, -1)
  else if m.getContentLength ≥ 0 then (2, m.getContentLength)
  else if m.isRequest then (-1, m.getContentLength)
  else (3, m.getContentLength)

/-- `entity.type = HttpEntity::EMPTY`. -/
def setEmpty : Body σ Unit :=
  fun s ↦ (.ok (), { s with entity := { s.entity with type := .EMPTY } })

/-- `loadRestOfMessage`; `ParseHeaders` returns what is known of the message then. -/
def loadRestOfMessage (fuel : Nat) (ParseHeaders : Body σ Framing)
    (requestMethod : Option UpnpMethodType) : Body σ Unit := do
  let m ← ParseHeaders
  let (bodyType, length) := messageBodyLen requestMethod m
  if bodyType = -1 then setEmpty
  else if bodyType = 1 then
    readEncodedEntity fuel do
      let _ ← ParseHeaders
  else if bodyType = 2 then
    let code ← readEntityUsingLength fuel length
    if code < 0 then throw (.thrown (.HttpParseException PARSERR_INCOMPLETE_ENTITY))
  else readEntityUntilClose fuel

end Reader

/-! ## Readers -/

/-- A reader reads no more than it is asked for, and where it reads nothing it is at its end. -/
class BoundedReader (σ : Type) [CharReader σ] [LawfulReader σ] : Prop where
  read_le {r r' : σ} {n : Nat} {bytes : CString} (h : CharReader.read r n = (.ok bytes, r')) :
    bytes.length ≤ n
  read_nil {r r' : σ} {n : Nat} (hready : LawfulReader.Ready r) (hn : 0 < n)
    (h : CharReader.read r n = (.ok [], r')) : CharReader.endOfStream r' = true

instance : BoundedReader MemReader where
  read_le {r r' n bytes} h := by
    obtain ⟨h, -⟩ := Prod.mk.inj h
    rw [← Except.ok.inj h, List.length_take]
    omega
  read_nil {r r' n} _ hn h := by
    obtain ⟨hbytes, rfl⟩ := Prod.mk.inj h
    have hnil := Except.ok.inj hbytes
    rw [List.take_eq_nil_iff, List.drop_eq_nil_iff] at hnil
    show decide (r.buf.length ≤ r.index + min n (r.buf.length - r.index)) = true
    rw [decide_eq_true_eq]
    omega

instance : BoundedReader NetReader where
  read_le {r r' n bytes} h := by
    have htake (r₁ : NetReader) (h₁ : r₁.take n = (.ok bytes, r')) : bytes.length ≤ n := by
      obtain ⟨h₁, -⟩ := Prod.mk.inj h₁
      rw [← Except.ok.inj h₁, List.length_take]
      omega
    have hread : NetReader.read r n = (.ok bytes, r') := h
    rw [NetReader.read] at hread
    split_ifs at hread with heof hdata
    · cases hread
      exact Nat.zero_le n
    · exact htake r hread
    · cases hrefill : r.refillBuffer with
      | mk got r₁ =>
        rw [hrefill] at hread
        cases got with
        | error e => cases hread
        | ok =>
          dsimp only at hread
          split_ifs at hread with hdata₁
          · exact htake r₁ hread
          · cases hread
            exact Nat.zero_le n
  read_nil {r r' n} hready hn h := by
    have hread : NetReader.read r n = (.ok [], r') := h
    by_cases heof : r.buf_eof = true
    · rw [NetReader.read, if_pos heof] at hread
      cases hread
      exact heof
    · rw [Bool.not_eq_true] at heof
      have hnone (r₁ : NetReader) (hready₁ : r₁.Ready) (heof₁ : r₁.buf_eof = false)
          (hdata : r₁.bufferHasData = true) : r₁.take n ≠ (.ok [], r') := by
        obtain ⟨bytes, r₂, htake, -, -, hne⟩ := NetReader.take_spec hready₁ heof₁ hn hdata
        rw [htake]
        intro heq
        cases heq
        exact hne rfl
      rw [NetReader.read, if_neg (by rw [heof]; decide)] at hread
      split_ifs at hread with hdata
      · exact absurd hread (hnone r hready heof hdata)
      · have hspec := NetReader.refillBuffer_spec hready.quiet heof
        generalize r.refillBuffer = refilled at hspec hread
        cases hspec with
        | closed saved net hnil hquiet hsaved =>
          have hno : ¬ NetReader.bufferHasData ⟨saved, saved.length, true, net⟩ = true := by
            simp [NetReader.bufferHasData]
          dsimp only at hread
          rw [if_neg hno] at hread
          cases hread
          rfl
        | bytes saved bytes net hrec hquiet hne hsize =>
          have hhas :
              NetReader.bufferHasData ⟨saved ++ bytes, saved.length, false, net⟩ = true := by
            simpa [NetReader.bufferHasData] using List.length_pos_of_ne_nil hne
          dsimp only at hread
          rw [if_pos hhas] at hread
          exact absurd hread (hnone _ ⟨hquiet, by simp⟩ rfl hhas)

instance {σ τ : Type} [CharReader σ] [LawfulReader σ] [BoundedReader σ] [CharReader τ]
    [LawfulReader τ] [BoundedReader τ] : BoundedReader (σ ⊕ τ) where
  read_le {r r' n bytes} h := by
    obtain ⟨hgot, -⟩ := Prod.mk.inj h
    cases r with
    | inl r => exact BoundedReader.read_le (Prod.ext hgot rfl)
    | inr r => exact BoundedReader.read_le (Prod.ext hgot rfl)
  read_nil {r r' n} hready hn h := by
    obtain ⟨hgot, hr'⟩ := Prod.mk.inj h
    cases r with
    | inl r =>
      rw [← hr']
      exact @BoundedReader.read_nil σ _ _ _ r _ n hready hn (Prod.ext hgot rfl)
    | inr r =>
      rw [← hr']
      exact @BoundedReader.read_nil τ _ _ _ r _ n hready hn (Prod.ext hgot rfl)

section Lawful

variable {σ : Type} [CharReader σ] [LawfulReader σ] [BoundedReader σ] {s : State σ}
  {text rest rest' body data ws : CString} {c : Char} {t : Token}

/-- No token is pushed back, the text is left, the entity holds what was read of it so far, and
memory is granted. -/
structure At (s : State σ) (text body : CString) : Prop where
  ready : LawfulReader.Ready s.scanner.reader
  pending : s.scanner.pending = []
  left : LawfulReader.left s.scanner.reader = text
  hasText : s.entity.HasText body
  sizeInc : s.entity.sizeInc ≤ 2048
  answers : s.answers = []

/-! ## Bytes -/

omit [LawfulReader σ] [BoundedReader σ] in
/-- `read`, when no token is pushed back. -/
theorem read_not_pending {scanner : Tokenizer σ} {n : Nat} (hpending : scanner.pending = [])
    (hn : 0 < n) : scanner.read n =
      if CharReader.endOfStream scanner.reader = false then
        match CharReader.read scanner.reader n with
        | (.error e, reader) => (.error e, { scanner with reader })
        | (.ok bytes, reader) => (.ok bytes, { scanner with reader })
      else (.ok [], scanner) := by
  obtain ⟨returned, pending, reader⟩ := scanner
  obtain rfl : pending = [] := hpending
  have hpos : ¬ (n : Int) ≤ 0 := by omega
  rw [Tokenizer.read, if_neg hpos]
  cases CharReader.endOfStream reader with
  | false =>
    cases hread : CharReader.read reader n with
    | mk got reader' => cases got <;> simp [Tokenizer.drain, hn, hread]
  | true => simp [Tokenizer.drain]

omit [BoundedReader σ] in
theorem At.endOfData (h : At s text body) :
    s.scanner.endOfData = CharReader.endOfStream s.scanner.reader := by
  rw [Tokenizer.endOfData, h.pending]
  rfl

/-- Bytes are read from the front of the text; where there are none, the end of the data is seen. -/
theorem At.read (h : At s text body) {n : Nat} (hn : 0 < n) : ∃ bytes rest s',
    read (n : Int) s = (.ok bytes, s') ∧ At s' rest body ∧ text = bytes ++ rest ∧
      bytes.length ≤ n ∧ (bytes = [] → text = [] ∧ s'.scanner.endOfData = true) := by
  obtain ⟨scanner, entity, answers⟩ := s
  have hread := read_not_pending h.pending hn
  by_cases heos : CharReader.endOfStream scanner.reader = true
  · rw [if_neg (by rw [heos]; decide)] at hread
    refine ⟨[], text, ⟨scanner, entity, answers⟩, ?_, h, rfl, Nat.zero_le n, fun _ ↦ ⟨?_, ?_⟩⟩
    · rw [Reading.read, onScanner, hread]
    · exact h.left.symm.trans (LawfulReader.left_of_endOfStream heos)
    · exact h.endOfData.trans heos
  · rw [Bool.not_eq_true] at heos
    obtain ⟨bytes, reader, hbytes, hready, hleft, hnil⟩ :=
      LawfulReader.read_spec h.ready heos hn
    rw [if_pos heos, hbytes] at hread
    have hat : At ⟨{ scanner with reader }, entity, answers⟩ (LawfulReader.left reader) body :=
      ⟨hready, h.pending, rfl, h.hasText, h.sizeInc, h.answers⟩
    refine ⟨bytes, _, ⟨{ scanner with reader }, entity, answers⟩, ?_, hat, h.left ▸ hleft,
      BoundedReader.read_le hbytes, ?_⟩
    · rw [Reading.read, onScanner, hread]
    · rintro rfl
      exact ⟨h.left ▸ hnil rfl, hat.endOfData.trans (BoundedReader.read_nil h.ready hn hbytes)⟩

omit [BoundedReader σ] in
/-- Data that was read goes to the entity. -/
theorem At.append (h : At s text body) (data : CString) (hdata : data.length ≤ 2048)
    (hroom : body.length + data.length + 2048 < 2147483648) :
    ∃ s', append data s = (.ok 0, s') ∧ At s' text (body ++ data) ∧ s'.scanner = s.scanner := by
  have hsizeInc := h.sizeInc
  obtain ⟨code, entity, happend, happended⟩ :=
    h.hasText.append .granted data (by omega)
  have hcode : code = 0 := happended.outcome.resolve_right fun hbad ↦ hbad.2 rfl
  have htext := happended.hasText
  rw [if_pos hcode] at htext
  refine ⟨{ s with entity, answers := s.answers.tail }, ?_, ⟨h.ready, h.pending, h.left, htext,
    ?_, ?_⟩, rfl⟩
  · rw [Reading.append, h.answers]
    simp only [List.head?_nil, Option.getD_none, happend, hcode]
  · exact (happended.sizeInc).trans_le hsizeInc
  · show s.answers.tail = []
    rw [h.answers]
    rfl

/-- Up to `n` bytes are read in front of the rest, and whether there were as many is told. -/
theorem At.readEntityUsingLength {fuel n : Nat} (h : At s text body)
    (hfuel : text.length + (if s.scanner.endOfData then 0 else 1) < fuel)
    (hroom : body.length + n + 2048 < 2147483648) : ∃ s',
      readEntityUsingLength fuel n s = (.ok (if n ≤ text.length then 0 else -1), s') ∧
        At s' (text.drop n) (body ++ text.take n) := by
  induction fuel generalizing s text body n with
  | zero => exact absurd hfuel (Nat.not_lt_zero _)
  | succ fuel ih =>
    by_cases hloop : s.scanner.endOfData = false ∧ 0 < n
    · obtain ⟨heod, hn⟩ := hloop
      rw [heod, if_neg Bool.false_ne_true] at hfuel
      obtain ⟨bytes, rest, s₁, hread, h₁, rfl, hle, hnil⟩ := h.read (n := min 2048 n) (by omega)
      obtain ⟨s₂, happend, h₂, hscanner⟩ := h₁.append bytes (by omega) (by omega)
      have hrest : rest.length + (if s₂.scanner.endOfData then 0 else 1) < fuel := by
        rw [hscanner]
        rw [List.length_append] at hfuel
        by_cases hbytes : bytes = []
        · rw [(hnil hbytes).2, if_pos rfl]
          omega
        · have hpos := List.length_pos_of_ne_nil hbytes
          split_ifs <;> omega
      obtain ⟨s₃, hmore, h₃⟩ := ih h₂ (n := n - bytes.length) hrest (by
        rw [List.length_append]
        omega)
      have hcast : ((n - bytes.length : Nat) : Int) = n - bytes.length := by omega
      have hmin : min BUFSIZE (n : Int) = ((min 2048 n : Nat) : Int) := by
        rw [BUFSIZE]
        omega
      refine ⟨s₃, ?_, ?_⟩
      · have hguard : (!s.scanner.endOfData && decide ((n : Int) > 0)) = true := by
          rw [heod, decide_eq_true (by omega)]
          rfl
        have hcode : (n ≤ (bytes ++ rest).length ↔ n - bytes.length ≤ rest.length) := by
          rw [List.length_append]
          omega
        rw [Reading.readEntityUsingLength]
        rw [Body.bind_ok (endOfData_run s)]
        simp only [hguard, if_true]
        rw [hmin, Body.bind_ok hread, Body.bind_ok happend, ← hcast, hmore]
        simp only [hcode]
      · have hdrop : (bytes ++ rest).drop n = rest.drop (n - bytes.length) := by
          rw [List.drop_append, List.drop_of_length_le (by omega), List.nil_append]
        have htake : (bytes ++ rest).take n = bytes ++ rest.take (n - bytes.length) := by
          rw [List.take_append, List.take_of_length_le (by omega)]
        rwa [hdrop, htake, ← List.append_assoc]
    · have hguard : (!s.scanner.endOfData && decide ((n : Int) > 0)) = false := by
        by_cases heod : s.scanner.endOfData = true
        · rw [heod]
          rfl
        · rw [Bool.not_eq_true] at heod
          rw [heod, decide_eq_false fun hn ↦ hloop ⟨heod, by omega⟩]
          rfl
      have hend : n ≠ 0 → text = [] := by
        intro hn
        have heod : s.scanner.endOfData = true := by
          by_contra heod
          exact hloop ⟨Bool.eq_false_of_not_eq_true heod, Nat.pos_of_ne_zero hn⟩
        exact h.left.symm.trans (LawfulReader.left_of_endOfStream (h.endOfData.symm.trans heod))
      refine ⟨s, ?_, ?_⟩
      · rw [Reading.readEntityUsingLength]
        rw [Body.bind_ok (endOfData_run s)]
        simp only [hguard, Bool.false_eq_true, if_false]
        by_cases hn : n = 0
        · subst hn
          rfl
        · have hshort : ¬ n ≤ ([] : CString).length := fun hle ↦ hn (Nat.le_zero.mp hle)
          rw [hend hn, if_neg hshort, if_pos (show (n : Int) ≠ 0 by omega)]
          rfl
      · by_cases hn : n = 0
        · subst hn
          rwa [List.drop_zero, List.take_zero, List.append_nil]
        · have hnil := hend hn
          subst hnil
          rwa [List.drop_nil, List.take_nil, List.append_nil]

/-- Everything that is left is read. -/
theorem At.readEntityUntilClose {fuel : Nat} (h : At s text body)
    (hfuel : text.length + (if s.scanner.endOfData then 0 else 1) < fuel)
    (hroom : body.length + text.length + 2048 < 2147483648) : ∃ s',
      readEntityUntilClose fuel s = (.ok (), s') ∧ At s' [] (body ++ text) := by
  induction fuel generalizing s text body with
  | zero => exact absurd hfuel (Nat.not_lt_zero _)
  | succ fuel ih =>
    rw [Reading.readEntityUntilClose]
    rw [Body.bind_ok (endOfData_run s)]
    cases heod : s.scanner.endOfData with
    | true =>
      have hnil : text = [] :=
        h.left.symm.trans (LawfulReader.left_of_endOfStream (h.endOfData.symm.trans heod))
      subst hnil
      refine ⟨s, rfl, ?_⟩
      rwa [List.append_nil]
    | false =>
      rw [heod, if_neg Bool.false_ne_true] at hfuel
      obtain ⟨bytes, rest, s₁, hread, h₁, rfl, hle, hnil⟩ := h.read (n := 2048) (by decide)
      rw [List.length_append] at hfuel hroom
      obtain ⟨s₂, happend, h₂, hscanner⟩ := h₁.append bytes hle (by omega)
      have hrest : rest.length + (if s₂.scanner.endOfData then 0 else 1) < fuel := by
        rw [hscanner]
        by_cases hbytes : bytes = []
        · rw [(hnil hbytes).2, if_pos rfl]
          omega
        · have hpos := List.length_pos_of_ne_nil hbytes
          split_ifs <;> omega
      obtain ⟨s₃, hmore, h₃⟩ := ih h₂ hrest (by
        rw [List.length_append]
        omega)
      refine ⟨s₃, ?_, ?_⟩
      · simp only [Bool.false_eq_true, if_false]
        rw [Body.bind_ok (p := Reading.read BUFSIZE) hread, Body.bind_ok happend, hmore]
      · rwa [← List.append_assoc]

/-! ## Tokens -/

omit [BoundedReader σ] in
/-- A token is got from the front of the text. -/
theorem At.getToken (h : At s (c :: rest) body) (hlex : lexToken c rest = .ok (t, rest')) :
    ∃ s', getToken s = (.ok t, s') ∧ At s' rest' body ∧
      ∃ returned, s'.scanner.returned = t :: returned := by
  obtain ⟨⟨returned, pending, reader⟩, entity, answers⟩ := s
  obtain rfl : pending = [] := h.pending
  have hread := readNextToken_lex h.ready h.left
  rw [hlex] at hread
  obtain ⟨reader', hread, hready, hleft⟩ := hread
  refine ⟨⟨⟨(t :: returned).take Tokenizer.MAX_PUSHBACKS, [], reader'⟩, entity, answers⟩, ?_,
    ⟨hready, rfl, hleft, h.hasText, h.sizeInc, h.answers⟩, _, rfl⟩
  rw [Reading.getToken, onScanner, Tokenizer.getToken]
  simp only [hread]

theorem tokType_of_lexToken (hlex : lexToken c rest = .ok (t, rest'))
    (hc : IsWhitespace c = false) : t.tokType ≠ WHITESPACE := by
  rw [lexToken] at hlex
  split at hlex
  · cases hlex
    exact fun h ↦ by cases h
  split at hlex
  · next hspace =>
    rw [hc] at hspace
    cases hspace
  split at hlex
  · split at hlex
    · cases hlex
      decide
    · cases hlex
  split at hlex
  · cases hlex
    decide
  split at hlex
  · split at hlex
    · cases hlex
    · cases hlex
      exact fun h ↦ by cases h
  split at hlex
  · cases hlex
    exact fun h ↦ by cases h
  split at hlex
  · cases hlex
    exact fun h ↦ by cases h
  · cases hlex

/-- White space is one token. -/
theorem lexToken_white {d : Char} (hd : IsWhitespace d) (hws : ∀ e ∈ ws, IsWhitespace e)
    (hc : IsWhitespace c = false) :
    lexToken d (ws ++ c :: rest) = .ok (⟨WHITESPACE, d :: ws⟩, c :: rest) := by
  have hident : IsIdentifierChar d = false := by
    rw [IsWhitespace, Bool.or_eq_true, decide_eq_true_eq, decide_eq_true_eq] at hd
    rcases hd with rfl | rfl <;> rfl
  have htake : (ws ++ c :: rest).takeWhile IsWhitespace = ws := by
    rw [List.takeWhile_append_of_pos hws, List.takeWhile_cons_of_neg (by rw [hc]; decide),
      List.append_nil]
  have hdrop : (ws ++ c :: rest).dropWhile IsWhitespace = c :: rest := by
    rw [List.dropWhile_append_of_pos hws, List.dropWhile_cons_of_neg (by rw [hc]; decide)]
  rw [lexToken, if_neg (by rw [hident]; decide), if_pos hd, htake, hdrop]

omit [BoundedReader σ] in
/-- White space is skipped in front of the token that is got next. -/
theorem At.skip_getToken (h : At s (ws ++ c :: rest) body) (hws : ∀ d ∈ ws, IsWhitespace d)
    (hc : IsWhitespace c = false) (hlex : lexToken c rest = .ok (t, rest')) :
    ∃ s', At s' rest' body ∧ ∀ {α : Type} (f : Token → Body σ α),
      (SkipOptionalWhitespace >>= fun _ ↦ Reading.getToken >>= f) s = f t s' := by
  cases ws with
  | nil =>
    obtain ⟨s₁, hget, h₁, returned, hreturned⟩ := h.getToken hlex
    have hne := tokType_of_lexToken hlex hc
    obtain ⟨⟨returned₁, pending₁, reader₁⟩, entity, answers⟩ := s₁
    obtain rfl : returned₁ = t :: returned := hreturned
    obtain rfl : pending₁ = [] := h₁.pending
    have hskip : SkipOptionalWhitespace s =
        (.ok (), ⟨⟨returned, [t], reader₁⟩, entity, answers⟩) := by
      rw [SkipOptionalWhitespace, Body.bind_ok hget, if_pos hne]
      rfl
    refine ⟨_, h₁, fun f ↦ ?_⟩
    rw [Body.bind_ok hskip]
    exact Body.bind_ok rfl
  | cons d ws =>
    have hwhite := @lexToken_white rest ws c d (hws d (List.mem_cons_self ..))
      (fun e he ↦ hws e (List.mem_cons_of_mem _ he)) hc
    obtain ⟨s₁, hget, h₁, -⟩ := h.getToken hwhite
    obtain ⟨s₂, hget₂, h₂, -⟩ := h₁.getToken hlex
    have hskip : SkipOptionalWhitespace s = (.ok (), s₁) := by
      rw [SkipOptionalWhitespace, Body.bind_ok hget, if_neg fun hne ↦ hne rfl]
      rfl
    refine ⟨s₂, h₂, fun f ↦ ?_⟩
    rw [Body.bind_ok hskip]
    exact Body.bind_ok hget₂

/-! ## The line in front of a chunk -/

/-- An extension of a chunk, with the white space in it. -/
structure Extension where
  ws : CString
  ws₁ : CString
  name : CString
  value : Option (CString × CString × CString)
  ws_white : ∀ c ∈ ws, IsWhitespace c
  ws₁_white : ∀ c ∈ ws₁, IsWhitespace c
  isName : IsIdentifier name
  isValue : ∀ v ∈ value, (∀ c ∈ v.1, IsWhitespace c) ∧ (∀ c ∈ v.2.1, IsWhitespace c) ∧
    (IsIdentifier v.2.2 ∨ IsQuoted v.2.2)

/-- The value of an extension in front of `rest`. -/
def writeValue : Option (CString × CString × CString) → CString → CString
  | none, rest => rest
  | some (ws₂, ws₃, v), rest => ws₂ ++ '=' :: (ws₃ ++ (v ++ rest))

def Extension.write (e : Extension) (rest : CString) : CString :=
  e.ws ++ ';' :: (e.ws₁ ++ (e.name ++ writeValue e.value rest))

/-- What is behind the size of a chunk, up to the end of the line. -/
def writeLine (extensions : List Extension) (ws rest : CString) : CString :=
  extensions.foldr Extension.write (ws ++ '\r' :: '\n' :: rest)

/-- No identifier goes on here. -/
def EndsWord (text : CString) : Prop := ∀ c ∈ text.head?, IsIdentifierChar c = false

theorem endsWord_white (hws : ∀ d ∈ ws, IsWhitespace d) (hc : IsIdentifierChar c = false) :
    EndsWord (ws ++ c :: rest) := by
  cases ws with
  | nil =>
    intro d hd
    cases hd
    exact hc
  | cons w ws =>
    intro d hd
    cases hd
    have hw := hws w (List.mem_cons_self ..)
    rw [IsWhitespace, Bool.or_eq_true, decide_eq_true_eq, decide_eq_true_eq] at hw
    rcases hw with rfl | rfl <;> rfl

theorem endsWord_line (extensions : List Extension) (hws : ∀ d ∈ ws, IsWhitespace d) :
    EndsWord (writeLine extensions ws rest) := by
  cases extensions with
  | nil => exact endsWord_white hws rfl
  | cons e extensions => exact endsWord_white e.ws_white rfl

/-- A word is one token. -/
theorem lexToken_word {name : CString} (hname : IsIdentifier name) (hrest : EndsWord rest) :
    ∃ d more, name ++ rest = d :: more ∧ IsWhitespace d = false ∧
      lexToken d more = .ok (⟨IDENTIFIER, name⟩, rest) := by
  obtain ⟨hne, hall⟩ := hname
  obtain ⟨d, name, rfl⟩ := List.exists_cons_of_ne_nil hne
  have hd := hall d (List.mem_cons_self ..)
  have htail : ∀ e ∈ name, IsIdentifierChar e := fun e he ↦ hall e (List.mem_cons_of_mem _ he)
  have hwhite : IsWhitespace d = false := by
    rw [IsWhitespace, Bool.or_eq_false_iff, decide_eq_false_iff_not, decide_eq_false_iff_not]
    constructor
    · rintro rfl
      cases hd
    · rintro rfl
      cases hd
  have hsplit : (name ++ rest).takeWhile IsIdentifierChar = name ∧
      (name ++ rest).dropWhile IsIdentifierChar = rest := by
    rw [List.takeWhile_append_of_pos htail, List.dropWhile_append_of_pos htail]
    cases rest with
    | nil => exact ⟨List.append_nil _, rfl⟩
    | cons e rest =>
      have he := hrest e rfl
      rw [List.takeWhile_cons_of_neg (by rw [he]; decide),
        List.dropWhile_cons_of_neg (by rw [he]; decide)]
      exact ⟨List.append_nil _, rfl⟩
  refine ⟨d, name ++ rest, rfl, hwhite, ?_⟩
  rw [lexToken, if_pos hd, hsplit.1, hsplit.2]

/-- The value of an extension is one token. -/
theorem lexToken_value {v : CString} (hv : IsIdentifier v ∨ IsQuoted v) (hrest : EndsWord rest) :
    ∃ d more t, v ++ rest = d :: more ∧ IsWhitespace d = false ∧ lexToken d more = .ok (t, rest) ∧
      (t.tokType = IDENTIFIER ∨ t.tokType = QUOTED_STRING) := by
  rcases hv with hv | ⟨quotedBody, rfl, hplain⟩
  · obtain ⟨d, more, heq, hd, hlex⟩ := lexToken_word hv hrest
    exact ⟨d, more, _, heq, hd, hlex, .inl rfl⟩
  · refine ⟨'"', quotedBody ++ '"' :: rest, ⟨QUOTED_STRING, '"' :: (quotedBody ++ ['"'])⟩, ?_, rfl,
      ?_, .inr rfl⟩
    · rw [List.cons_append, List.append_assoc]
      rfl
    · rw [lexToken, if_neg (by decide), if_neg (by decide), if_neg (by decide), if_neg (by decide),
        if_pos rfl, lexQuoted_plain _ hplain]
      rfl

/-- The first token of a line is no equals sign. -/
theorem line_token (extensions : List Extension) (hws : ∀ d ∈ ws, IsWhitespace d) :
    ∃ ws' d more t rest', writeLine extensions ws rest = ws' ++ d :: more ∧
      (∀ d ∈ ws', IsWhitespace d) ∧ IsWhitespace d = false ∧
      lexToken d more = .ok (t, rest') ∧ t.s ≠ ['='] := by
  cases extensions with
  | nil =>
    exact ⟨ws, '\r', '\n' :: rest, ⟨CRLF, ['\r', '\n']⟩, rest, rfl, hws, rfl, rfl,
      fun h ↦ by cases h⟩
  | cons e extensions =>
    exact ⟨e.ws, ';', _, ⟨SEPARATOR, [';']⟩, _, rfl, e.ws_white, rfl, rfl, fun h ↦ by cases h⟩

omit [BoundedReader σ] in
/-- The extensions are skipped, up to the end of the line. -/
theorem At.skipExtensions {fuel : Nat} (extensions : List Extension)
    (h : At s (writeLine extensions ws rest) body) (hws : ∀ d ∈ ws, IsWhitespace d)
    (hfuel : extensions.length < fuel) : ∃ s', At s' rest body ∧
      (SkipOptionalWhitespace >>= fun _ ↦ Reading.getToken >>= Reading.skipExtensions fuel) s =
        (.ok (), s') := by
  induction extensions generalizing s fuel with
  | nil =>
    obtain ⟨fuel, rfl⟩ := Nat.exists_eq_add_one_of_ne_zero (Nat.ne_zero_of_lt hfuel)
    obtain ⟨s₁, h₁, hrun⟩ := h.skip_getToken (t := ⟨CRLF, ['\r', '\n']⟩) hws rfl rfl
    refine ⟨s₁, h₁, ?_⟩
    rw [hrun, Reading.skipExtensions, if_pos rfl]
    rfl
  | cons e extensions ih =>
    obtain ⟨fuel, rfl⟩ := Nat.exists_eq_add_one_of_ne_zero (Nat.ne_zero_of_lt hfuel)
    have hfuel := Nat.lt_of_succ_lt_succ hfuel
    have hline := @endsWord_line rest ws extensions hws
    obtain ⟨s₁, h₁, hrun₁⟩ :=
      h.skip_getToken (t := ⟨SEPARATOR, [';']⟩) e.ws_white rfl rfl
    have hvalue : EndsWord (writeValue e.value (writeLine extensions ws rest)) := by
      cases hv : e.value with
      | none => exact hline
      | some v => exact endsWord_white (e.isValue v hv).1 rfl
    obtain ⟨d, more, heq, hd, hlex⟩ := lexToken_word e.isName hvalue
    have h₁' : At s₁ (e.ws₁ ++ d :: more) body := heq ▸ h₁
    obtain ⟨s₂, h₂, hrun₂⟩ := h₁'.skip_getToken e.ws₁_white hd hlex
    rw [hrun₁, Reading.skipExtensions, if_neg (by decide), if_neg fun h ↦ h rfl, hrun₂,
      if_neg fun h ↦ h rfl]
    cases hv : e.value with
    | none =>
      rw [hv] at h₂
      obtain ⟨ws', d, more, t, rest', hsplit, hws', hd, hlex, hne⟩ :=
        @line_token rest ws extensions hws
      have h₂' : At s₂ (ws' ++ d :: more) body := hsplit ▸ h₂
      obtain ⟨s₃, h₃, hrun₃⟩ := h₂'.skip_getToken hws' hd hlex
      obtain ⟨s₄, h₄, hrun₄⟩ := ih h₂ hfuel
      refine ⟨s₄, h₄, ?_⟩
      rw [hrun₃] at hrun₄
      rw [hrun₃, if_pos hne, hrun₄]
    | some v =>
      obtain ⟨ws₂, ws₃, v⟩ := v
      obtain ⟨hws₂, hws₃, hval⟩ := e.isValue _ hv
      rw [hv] at h₂
      obtain ⟨s₃, h₃, hrun₃⟩ := h₂.skip_getToken (t := ⟨SEPARATOR, ['=']⟩) hws₂ rfl rfl
      obtain ⟨d, more, t, hsplit, hd, hlex, htype⟩ := lexToken_value hval hline
      have h₃' : At s₃ (ws₃ ++ d :: more) body := hsplit ▸ h₃
      obtain ⟨s₄, h₄, hrun₄⟩ := h₃'.skip_getToken hws₃ hd hlex
      obtain ⟨s₅, h₅, hrun₅⟩ := ih h₄ hfuel
      refine ⟨s₅, h₅, ?_⟩
      rw [hrun₃, if_neg fun h ↦ h rfl, hrun₄, if_neg (not_not.mpr htype)]
      exact hrun₅

/-! ## Chunks -/

/-- A chunk, or the last one, which has no data: its size as it is written, and the rest of its
line. -/
structure Chunk where
  size : CString
  extensions : List Extension
  ws : CString
  data : CString
  isNumber : IsNumber 16 size data.length
  ws_white : ∀ c ∈ ws, IsWhitespace c

namespace Chunk

/-- The line of a chunk in front of `rest`. -/
def writeSize (c : Chunk) (rest : CString) : CString :=
  c.size ++ writeLine c.extensions c.ws rest

/-- The chunk in front of `rest`. -/
def write (c : Chunk) (rest : CString) : CString :=
  c.writeSize (c.data ++ '\r' :: '\n' :: rest)

end Chunk

theorem isIdentifier_of_digits {size : CString} (hne : size ≠ []) (h : IsDigits 16 size) :
    IsIdentifier size := by
  refine ⟨hne, fun c hc ↦ ?_⟩
  have hrange := range_of_digitVal (h c hc)
  have hall : (List.range 128).all (fun n ↦
      !(('0'.toNat ≤ n && n ≤ '9'.toNat) || ('a'.toNat ≤ n && n ≤ 'f'.toNat) ||
        ('A'.toNat ≤ n && n ≤ 'F'.toNat)) || IsIdentifierChar (Char.ofNat n)) = true := by
    decide +kernel
  have hcases : ('0'.toNat ≤ c.toNat ∧ c.toNat ≤ '9'.toNat) ∨
      ('a'.toNat ≤ c.toNat ∧ c.toNat ≤ 'f'.toNat) ∨
        ('A'.toNat ≤ c.toNat ∧ c.toNat ≤ 'F'.toNat) := by
    simp only [Char.le_def, UInt32.le_iff_toNat_le] at hrange
    exact hrange
  have hlt : c.toNat < 128 := by
    have h9 : '9'.toNat = 57 := rfl
    have hf : 'f'.toNat = 102 := rfl
    have hF : 'F'.toNat = 70 := rfl
    omega
  have hmem := List.all_eq_true.mp hall c.toNat (List.mem_range.mpr hlt)
  rw [Char.ofNat_toNat, Bool.or_eq_true] at hmem
  refine hmem.resolve_left fun hno ↦ ?_
  simp only [Bool.not_eq_true', Bool.or_eq_false_iff, Bool.and_eq_false_iff,
    decide_eq_false_iff_not] at hno
  omega

omit [BoundedReader σ] in
/-- The size of a chunk is read with its line. -/
theorem At.readChunkLine {fuel : Nat} (c : Chunk) (h : At s (c.writeSize rest) body)
    (hfuel : c.extensions.length < fuel) :
    ∃ s', readChunkLine fuel s = (.ok (c.data.length : Int), s') ∧ At s' rest body := by
  obtain ⟨hne, hdigits, hnum, hmax⟩ := c.isNumber
  obtain ⟨d, more, hsplit, hd, hlex⟩ := lexToken_word (isIdentifier_of_digits hne hdigits)
    (@endsWord_line rest c.ws c.extensions c.ws_white)
  have h' : At s (d :: more) body := hsplit ▸ h
  obtain ⟨s₁, hget, h₁, -⟩ := h'.getToken hlex
  obtain ⟨s₂, h₂, hskip⟩ := h₁.skipExtensions c.extensions c.ws_white hfuel
  have hspells := (spells_of_digits hdigits hne).strtol
  have hwrap := wrap32_clampLong (hnum ▸ hmax : (numeral 16 c.size : Int) ≤ intMax)
  have hload : loadNum 16 s = (.ok (c.data.length : Int), s₁) := by
    rw [loadNum, Body.bind_ok hget]
    simp only [c_str_of_digits hdigits, hspells.1, hspells.2, Option.getD_some, hwrap]
    have hnonneg : ¬ (c.data.length : Int) < 0 := by omega
    rw [if_neg (by simp), if_neg (by rw [hnum, intMax] at *; omega), hnum]
    rfl
  refine ⟨s₂, ?_, h₂⟩
  have hassoc : (SkipOptionalWhitespace >>= fun _ ↦ Reading.getToken >>= fun token ↦
      Reading.skipExtensions fuel token >>= fun _ ↦ pure (c.data.length : Int)) =
      (SkipOptionalWhitespace >>= fun _ ↦ Reading.getToken >>= Reading.skipExtensions fuel) >>=
        fun _ ↦ (pure (c.data.length : Int) : Body σ Int) := by
    simp only [Body.bind_assoc]
  rw [Reading.readChunkLine, Body.bind_ok hload, hassoc, Body.bind_ok hskip]
  rfl

/-- What is read in front of the trailer. -/
def writeChunks (chunks : List Chunk) (last : Chunk) (trailer : CString) : CString :=
  chunks.foldr Chunk.write (last.writeSize trailer)

theorem length_line (extensions : List Extension) (ws rest : CString) :
    extensions.length + rest.length + 2 ≤ (writeLine extensions ws rest).length := by
  induction extensions with
  | nil =>
    show _ ≤ (ws ++ '\r' :: '\n' :: rest).length
    rw [List.length_append, List.length_cons, List.length_cons, List.length_nil]
    omega
  | cons e extensions ih =>
    have hvalue : (writeLine extensions ws rest).length ≤
        (writeValue e.value (writeLine extensions ws rest)).length := by
      cases e.value with
      | none => exact le_rfl
      | some v =>
        obtain ⟨ws₂, ws₃, v⟩ := v
        rw [writeValue]
        simp only [List.length_append, List.length_cons]
        omega
    show _ ≤ (e.write (writeLine extensions ws rest)).length
    rw [Extension.write]
    simp only [List.length_append, List.length_cons]
    omega

theorem length_writeSize (c : Chunk) (rest : CString) :
    c.extensions.length + rest.length + 2 ≤ (c.writeSize rest).length := by
  rw [Chunk.writeSize, List.length_append]
  exact (length_line ..).trans (Nat.le_add_left ..)

/-- The chunks are read up to the trailer, and their data is appended in their order. -/
theorem At.readChunks {fuel : Nat} {chunks : List Chunk} {last : Chunk} {trailer : CString}
    (h : At s (writeChunks chunks last trailer) body) (hdata : ∀ c ∈ chunks, c.data ≠ [])
    (hlast : last.data = []) (hfuel : (writeChunks chunks last trailer).length + 1 < fuel)
    (hroom : body.length + (chunks.flatMap Chunk.data).length + 2048 < 2147483648) :
    ∃ s', readChunks fuel s = (.ok (), s') ∧ At s' trailer (body ++ chunks.flatMap Chunk.data) := by
  induction chunks generalizing s body fuel with
  | nil =>
    obtain ⟨fuel, rfl⟩ := Nat.exists_eq_add_one_of_ne_zero (Nat.ne_zero_of_lt hfuel)
    have hlength := length_writeSize last trailer
    have hfuel' : (last.writeSize trailer).length + 1 < fuel + 1 := hfuel
    have hextensions : last.extensions.length < fuel := by omega
    obtain ⟨s₁, hline, h₁⟩ := At.readChunkLine last h hextensions
    have hzero : (last.data.length : Int) = 0 := by
      rw [hlast]
      rfl
    refine ⟨s₁, ?_, ?_⟩
    · rw [Reading.readChunks, Body.bind_ok hline, if_pos hzero]
      rfl
    · rwa [List.flatMap_nil, List.append_nil]
  | cons c chunks ih =>
    obtain ⟨fuel, rfl⟩ := Nat.exists_eq_add_one_of_ne_zero (Nat.ne_zero_of_lt hfuel)
    have htext : writeChunks (c :: chunks) last trailer =
        c.writeSize (c.data ++ '\r' :: '\n' :: writeChunks chunks last trailer) := rfl
    have hlength := length_writeSize c (c.data ++ '\r' :: '\n' :: writeChunks chunks last trailer)
    rw [htext] at h hfuel
    rw [List.flatMap_cons, List.length_append] at hroom
    have hrest : (c.data ++ '\r' :: '\n' :: writeChunks chunks last trailer).length =
        c.data.length + (writeChunks chunks last trailer).length + 2 := by
      rw [List.length_append, List.length_cons, List.length_cons]
      omega
    have hextensions : c.extensions.length < fuel := by omega
    obtain ⟨s₁, hline, h₁⟩ := At.readChunkLine c h hextensions
    have hbytes : (c.data ++ '\r' :: '\n' :: writeChunks chunks last trailer).length +
        (if s₁.scanner.endOfData then 0 else 1) < fuel := by
      split_ifs <;> omega
    obtain ⟨s₂, hread, h₂⟩ := h₁.readEntityUsingLength (n := c.data.length) hbytes (by omega)
    rw [List.drop_left, List.take_left] at h₂
    have hlex : lexToken '\r' ('\n' :: writeChunks chunks last trailer) =
        .ok (⟨CRLF, ['\r', '\n']⟩, writeChunks chunks last trailer) := rfl
    obtain ⟨s₃, hget, h₃, -⟩ := h₂.getToken hlex
    have hfuel' : (writeChunks chunks last trailer).length + 1 < fuel := by omega
    obtain ⟨s₄, hmore, h₄⟩ := ih h₃ (fun d hd ↦ hdata d (List.mem_cons_of_mem _ hd)) hfuel' (by
      rw [List.length_append]
      omega)
    have hsize : (c.data.length : Int) ≠ 0 := by
      have hpos := List.length_pos_of_ne_nil (hdata c (List.mem_cons_self ..))
      omega
    refine ⟨s₄, ?_, ?_⟩
    · rw [Reading.readChunks, Body.bind_ok hline, if_neg hsize, Body.bind_ok hread,
        Body.bind_ok hget, if_neg fun h ↦ h rfl, hmore]
    · rwa [List.flatMap_cons, ← List.append_assoc]

end Lawful

/-! ## Messages from memory or from a socket -/

variable {s s₁ : State (MemReader ⊕ NetReader)} {text entity rest body : CString}
  {chunks : List Chunk} {last : Chunk} {trailer : CString} {fuel : Nat} {m : Framing}
  {requestMethod : Option UpnpMethodType} {ParseHeaders : Body (MemReader ⊕ NetReader) Framing}

/-- **An encoded entity is read without its framing**, however its chunks are cut, whatever spelling
their sizes have and whatever extensions there are, from memory or from a socket with any segments:
the entity holds the data of the chunks, one behind the other, and the headers of the trailer are
read right behind the line of the last chunk. -/
theorem encoded_entity (h : At s (writeChunks chunks last trailer) body)
    (hdata : ∀ c ∈ chunks, c.data ≠ []) (hlast : last.data = [])
    (hroom : body.length + (chunks.flatMap Chunk.data).length + 2048 < 2147483648)
    (hfuel : (writeChunks chunks last trailer).length + 1 < fuel) :
    ∃ s', At s' trailer (body ++ chunks.flatMap Chunk.data) ∧
      ∀ ParseHeaders, readEncodedEntity fuel ParseHeaders s = ParseHeaders s' := by
  obtain ⟨s', hrun, h'⟩ := h.readChunks hdata hlast hfuel hroom
  refine ⟨s', h', fun ParseHeaders ↦ ?_⟩
  rw [readEncodedEntity, Body.bind_ok hrun]

/-- `05;a="b"`, in front of five bytes. -/
def helloChunk : Chunk where
  size := "05".toList
  extensions := [{
    ws := [], ws₁ := [], name := ['a'], value := some ([], [], "\"b\"".toList)
    ws_white := fun c hc ↦ by cases hc
    ws₁_white := fun c hc ↦ by cases hc
    isName := ⟨by decide, forall_mem_of_all (by decide)⟩
    isValue := fun v hv ↦ by
      cases hv
      exact ⟨fun c hc ↦ (by cases hc), fun c hc ↦ (by cases hc), .inr ⟨['b'], rfl,
        forall_mem_of_all (by decide)⟩⟩ }]
  ws := [' ']
  data := "hello".toList
  isNumber := ⟨by decide, by decide, by decide, by decide⟩
  ws_white := forall_mem_of_all (by decide)

def lastChunk : Chunk where
  size := "0".toList
  extensions := []
  ws := []
  data := []
  isNumber := ⟨by decide, by decide, by decide, by decide⟩
  ws_white := fun c hc ↦ by cases hc

/-- The chunk on a socket, in segments that cut its line and its data. -/
def helloSegments : State (MemReader ⊕ NetReader) :=
  ⟨.new (.inr (.new (["05;a=\"".toList, "b\" \r\nhel".toList, "lo\r\n0\r\n\r\nGET".toList].map
    .segment))), .new, []⟩

theorem at_helloSegments :
    At helloSegments (writeChunks [helloChunk] lastChunk "\r\nGET".toList) [] := by
  obtain ⟨hready, hleft⟩ := (Opens.socket ["05;a=\"".toList, "b\" \r\nhel".toList,
    "lo\r\n0\r\n\r\nGET".toList]).ready
  exact ⟨hready, rfl, hleft, HttpEntity.hasText_new, by decide, rfl⟩

theorem helloChunk_ne_nil : ∀ c ∈ [helloChunk], c.data ≠ [] := by
  intro c hc
  rw [List.mem_singleton.mp hc]
  decide

theorem encoded_entity_segments : ∃ s', At s' "\r\nGET".toList "hello".toList ∧
    ∀ ParseHeaders, readEncodedEntity 40 ParseHeaders helloSegments = ParseHeaders s' :=
  encoded_entity at_helloSegments helloChunk_ne_nil rfl (by decide) (by decide)

/-- A body that ends where the message says: behind its length, at the close of the connection, or
with a chunk that is empty, in front of the trailer. -/
inductive Framed (requestMethod : Option UpnpMethodType) (m : Framing) :
    CString → CString → CString → Prop where
  | length {entity rest : CString}
      (h : messageBodyLen requestMethod m = (2, (entity.length : Int))) :
    Framed requestMethod m (entity ++ rest) entity rest
  | close {entity : CString} (h : (messageBodyLen requestMethod m).1 = 3) :
    Framed requestMethod m entity entity []
  | chunked {chunks : List Chunk} {last : Chunk} {trailer : CString}
    (h : (messageBodyLen requestMethod m).1 = 1) (hdata : ∀ c ∈ chunks, c.data ≠ [])
    (hlast : last.data = []) :
    Framed requestMethod m (writeChunks chunks last trailer) (chunks.flatMap Chunk.data) trailer

/-- **Behind the headers, exactly the body is loaded**, whichever of the three ways the message has
to tell where it ends, from memory or from a socket with any segments: the entity is the body, and
what is behind it, or its trailer, is what is read next. -/
theorem loads_entity (hparse : ParseHeaders s = (.ok m, s₁)) (h : At s₁ text [])
    (hframed : Framed requestMethod m text entity rest)
    (hroom : entity.length + 2048 < 2147483648) (hfuel : text.length + 1 < fuel) :
    ∃ s₂, At s₂ rest entity ∧ loadRestOfMessage fuel ParseHeaders requestMethod s =
      if (messageBodyLen requestMethod m).1 = 1 then (ParseHeaders >>= fun _ ↦ pure ()) s₂
      else (.ok (), s₂) := by
  have hone : (if s₁.scanner.endOfData then 0 else 1) ≤ 1 := by split_ifs <;> omega
  rw [loadRestOfMessage, Body.bind_ok hparse]
  cases hframed with
  | length hlen =>
    obtain ⟨s₂, hread, h₂⟩ := h.readEntityUsingLength (n := entity.length)
      ((Nat.add_le_add_left hone _).trans_lt hfuel) (by rwa [List.length_nil, Nat.zero_add])
    rw [List.drop_left, List.take_left, List.nil_append] at h₂
    refine ⟨s₂, h₂, ?_⟩
    have hle : entity.length ≤ (entity ++ rest).length := by
      rw [List.length_append]
      exact Nat.le_add_right ..
    rw [if_pos hle] at hread
    simp only [hlen]
    rw [if_neg (by decide), if_neg (by decide), if_pos trivial, if_neg (by decide),
      Body.bind_ok hread, if_neg (by decide)]
    rfl
  | close hclose =>
    obtain ⟨s₂, hread, h₂⟩ := h.readEntityUntilClose
      ((Nat.add_le_add_left hone _).trans_lt hfuel) (by rwa [List.length_nil, Nat.zero_add])
    refine ⟨s₂, h₂, ?_⟩
    simp only [hclose]
    rw [if_neg (by decide), if_neg (by decide), if_neg (by decide), if_neg (by decide), hread]
  | chunked hchunked hdata hlast =>
    obtain ⟨s₂, hrun, h₂⟩ := h.readChunks hdata hlast hfuel (by
      rwa [List.length_nil, Nat.zero_add])
    refine ⟨s₂, h₂, ?_⟩
    simp only [hchunked]
    rw [if_neg (by decide), if_pos trivial, if_pos trivial, readEncodedEntity, Body.bind_ok hrun]

/-- A request in chunks, whose headers were read. -/
theorem loads_entity_segments : ∃ s₂, At s₂ "\r\nGET".toList "hello".toList ∧
    loadRestOfMessage 40 (fun s ↦ (.ok ⟨true, some .UPNP_POST, 0, true, none⟩, s)) none
      helloSegments = (.ok (), s₂) := by
  obtain ⟨s₂, h₂, hrun⟩ := @loads_entity helloSegments helloSegments _ "hello".toList
    "\r\nGET".toList 40 ⟨true, some .UPNP_POST, 0, true, none⟩ none
    (fun s ↦ (.ok ⟨true, some .UPNP_POST, 0, true, none⟩, s)) rfl at_helloSegments
    (.chunked rfl helloChunk_ne_nil rfl) (by decide) (by decide)
  exact ⟨s₂, h₂, hrun⟩

end Upnp.Web.Reading
