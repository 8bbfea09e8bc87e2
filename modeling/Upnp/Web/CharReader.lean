import Upnp.Lib.CString
import Upnp.Lib.Net

/-!
# Readers of characters

The abstract class `CharReader` and its two implementations, `MemReader` over a
buffer in memory and `NetReader` over a socket.  An exception leaves the reader
in the state it had reached.  What a reader has `left` is the stream behind what
was taken from it; a reader over a socket knows that nothing is left only once
it has tried to read on.
-/

namespace Upnp.Web

open Upnp.Lib

/-- The exceptions of the readers, and of the scanner above them. -/
inductive Exception where
  | OutOfBoundsException
  | EOFException
  | NetException
  | TokenizerException
deriving DecidableEq, Repr

/-- `CharReader`.  Behind the methods stands a measure of what is to be read, which a character that
is got makes smaller. -/
class CharReader (σ : Type) where
  getChar : σ → Except Exception Char × σ
  pushBack : σ → Except Exception Unit × σ
  read : σ → Nat → Except Exception CString × σ
  endOfStream : σ → Bool
  size : σ → Nat
  size_getChar {r r' : σ} {c : Char} (heos : endOfStream r = false)
    (h : getChar r = (.ok c, r')) : size r' < size r

/-- What the scanner relies on.  `Started` says that a character was got before, so that there is
something to push back. -/
class LawfulReader (σ : Type) [CharReader σ] where
  left : σ → CString
  Ready : σ → Prop
  Started : σ → Prop
  left_of_endOfStream {r : σ} (heos : CharReader.endOfStream r) : left r = []
  getChar_cons {r : σ} {c : Char} {rest : CString} (hready : Ready r)
    (heos : CharReader.endOfStream r = false) (hleft : left r = c :: rest) :
    ∃ r', CharReader.getChar r = (.ok c, r') ∧ Ready r' ∧ Started r' ∧ left r' = rest ∧
      ∃ r'', CharReader.pushBack r' = (.ok (), r'') ∧ Ready r'' ∧ left r'' = c :: rest
  getChar_nil {r : σ} (hready : Ready r) (heos : CharReader.endOfStream r = false)
    (hleft : left r = []) (hstarted : Started r) :
    ∃ r', CharReader.getChar r = (.ok '\x00', r') ∧
      ∃ r'', CharReader.pushBack r' = (.ok (), r'') ∧ Ready r'' ∧ left r'' = []
  read_spec {r : σ} {n : Nat} (hready : Ready r) (heos : CharReader.endOfStream r = false)
    (hn : 0 < n) :
    ∃ bytes r', CharReader.read r n = (.ok bytes, r') ∧ Ready r' ∧ left r = bytes ++ left r' ∧
      (bytes = [] → left r = [])

/-! ## A buffer in memory -/

/-- `MemReader`. -/
structure MemReader where
  buf : CString
  index : Nat
deriving DecidableEq, Repr

namespace MemReader

/-- `MemReader::getChar`. -/
def getChar (r : MemReader) : Except Exception Char × MemReader :=
  match r.buf[r.index]? with
  | none => (.error .OutOfBoundsException, r)
  | some c => (.ok c, { r with index := r.index + 1 })

/-- `MemReader::pushBack`. -/
def pushBack (r : MemReader) : Except Exception Unit × MemReader :=
  if r.index = 0 then (.error .OutOfBoundsException, r)
  else (.ok (), { r with index := r.index - 1 })

/-- `MemReader::read`. -/
def read (r : MemReader) (bufferSize : Nat) : Except Exception CString × MemReader :=
  let copyLen := min bufferSize (r.buf.length - r.index)
  (.ok ((r.buf.drop r.index).take copyLen), { r with index := r.index + copyLen })

/-- `MemReader::endOfStream`. -/
def endOfStream (r : MemReader) : Bool := r.buf.length ≤ r.index

instance : CharReader MemReader where
  getChar := getChar
  pushBack := pushBack
  read := read
  endOfStream := endOfStream
  size r := r.buf.length - r.index
  size_getChar {r r' c} heos h := by
    simp only [endOfStream, decide_eq_false_iff_not, not_le] at heos
    unfold getChar at h
    split at h
    · cases h
    · cases h
      show r.buf.length - (r.index + 1) < r.buf.length - r.index
      omega

instance : LawfulReader MemReader where
  left r := r.buf.drop r.index
  Ready _ := True
  Started _ := True
  left_of_endOfStream {r} heos := List.drop_eq_nil_of_le (of_decide_eq_true heos)
  getChar_cons {r c rest} _ _ hleft := by
    have hget : r.buf[r.index]? = some c := by
      rw [← List.head?_drop, hleft]
      rfl
    have hrest : r.buf.drop (r.index + 1) = rest := by
      rw [← List.tail_drop, hleft]
      rfl
    refine ⟨{ r with index := r.index + 1 }, ?_, trivial, trivial, hrest, r, rfl, trivial, hleft⟩
    show getChar r = _
    unfold getChar
    rw [hget]
  getChar_nil {r} _ heos hleft _ := by
    have hlt : ¬ r.buf.length ≤ r.index := of_decide_eq_false heos
    exact absurd (List.drop_eq_nil_iff.mp hleft) hlt
  read_spec {r n} _ heos hn := by
    have hlt : ¬ r.buf.length ≤ r.index := of_decide_eq_false heos
    refine ⟨_, _, rfl, trivial, ?_, ?_⟩
    · show r.buf.drop r.index = (r.buf.drop r.index).take _ ++ r.buf.drop (r.index + _)
      rw [← List.drop_drop, List.take_append_drop]
    · intro hnil
      rw [List.take_eq_nil_iff] at hnil
      apply hnil.resolve_left
      omega

end MemReader

/-! ## A socket -/

/-- `NetReader`, with what its socket will see. -/
structure NetReader where
  data : CString
  offset : Nat
  buf_eof : Bool
  net : Net
deriving DecidableEq, Repr

namespace NetReader

def BUFSIZE : Nat := 5

def MAX_PUSHBACK : Nat := 3

/-- `NetReader::NetReader`. -/
def new (net : Net) : NetReader := ⟨[], 0, false, net⟩

/-- `NetReader::bufferHasData`. -/
def bufferHasData (r : NetReader) : Bool := r.offset < r.data.length

/-- `NetReader::refillBuffer`.  A failure leaves `datalen` as it was. -/
def refillBuffer (r : NetReader) : Except Exception Unit × NetReader :=
  if r.buf_eof then (.error .EOFException, r)
  else
    let saved := r.data.drop (r.data.length - min MAX_PUSHBACK r.data.length)
    match r.net.recv BUFSIZE with
    | (.failed, net) => (.error .NetException,
        { r with data := saved ++ r.data.drop saved.length, offset := saved.length, net })
    | (.closed, net) => (.ok (), { r with data := saved, offset := saved.length, buf_eof := true, net })
    | (.bytes bytes, net) => (.ok (), { r with data := saved ++ bytes, offset := saved.length, net })

/-- `NetReader::getChar`.  Where the peer has closed it returns a NUL. -/
def getChar (r : NetReader) : Except Exception Char × NetReader :=
  match r.data[r.offset]? with
  | some c => (.ok c, { r with offset := r.offset + 1 })
  | none =>
    match r.refillBuffer with
    | (.error e, r) => (.error e, r)
    | (.ok (), r) =>
      match r.data[r.offset]? with
      | some c => (.ok c, { r with offset := r.offset + 1 })
      | none => (.ok '\x00', r)

/-- `NetReader::pushBack`. -/
def pushBack (r : NetReader) : Except Exception Unit × NetReader :=
  if r.offset = 0 then (.error .OutOfBoundsException, r)
  else (.ok (), { r with offset := r.offset - 1 })

/-- The data of the buffer, up to a size. -/
def take (r : NetReader) (bufferSize : Nat) : Except Exception CString × NetReader :=
  let copyLen := min bufferSize (r.data.length - r.offset)
  (.ok ((r.data.drop r.offset).take copyLen), { r with offset := r.offset + copyLen })

/-- `NetReader::read`. -/
def read (r : NetReader) (bufferSize : Nat) : Except Exception CString × NetReader :=
  if r.buf_eof then (.ok [], r)
  else if r.bufferHasData then r.take bufferSize
  else
    match r.refillBuffer with
    | (.error e, r) => (.error e, r)
    | (.ok (), r) => if r.bufferHasData then r.take bufferSize else (.ok [], r)

/-- What a socket has to be read, and whether the close is still to be seen. -/
def size (r : NetReader) : Nat :=
  if r.buf_eof then 0 else r.data.length - r.offset + r.net.size + 1

/-- A character that is got is taken from the buffer or from the socket, or it is the NUL behind
the close, and then the reader has seen the close. -/
theorem size_getChar {r r' : NetReader} {c : Char} (heos : r.buf_eof = false)
    (h : r.getChar = (.ok c, r')) : r'.size < r.size := by
  unfold getChar at h
  split at h
  · rename_i d hget
    cases h
    have hlt := (List.getElem?_eq_some_iff.mp hget).1
    simp only [size, heos, if_neg (by decide : ¬ false = true)]
    omega
  · rename_i hnone
    rw [List.getElem?_eq_none_iff] at hnone
    unfold refillBuffer at h
    rw [heos, if_neg (by decide)] at h
    dsimp only at h
    cases hrecv : r.net.recv BUFSIZE with
    | mk got net =>
      rw [hrecv] at h
      cases got with
      | failed => cases h
      | closed =>
        dsimp only at h
        rw [List.getElem?_eq_none_iff.mpr le_rfl] at h
        cases h
        simp only [size, heos]
        simp
      | bytes bytes =>
        have hne := Net.ne_nil_of_recv_bytes hrecv (by decide)
        have hsize := Net.size_of_recv_bytes hrecv
        obtain ⟨d, bytes, rfl⟩ := List.exists_cons_of_ne_nil hne
        dsimp only at h
        rw [List.getElem?_append_right le_rfl, Nat.sub_self] at h
        cases h
        simp only [size, heos, if_neg (by decide : ¬ false = true), List.length_append,
          List.length_cons] at hsize ⊢
        omega

instance : CharReader NetReader where
  getChar := getChar
  pushBack := pushBack
  read := read
  endOfStream := buf_eof
  size := size
  size_getChar := size_getChar

/-- What the reader has left. -/
def left (r : NetReader) : CString := if r.buf_eof then [] else r.data.drop r.offset ++ r.net.received

/-- Nothing fails, and the buffer is not overrun. -/
structure Ready (r : NetReader) : Prop where
  quiet : r.net.Quiet
  offset_le : r.offset ≤ r.data.length

/-- What a refill comes to, on a socket without failures. -/
inductive RefillOf (r : NetReader) : Except Exception Unit × NetReader → Prop where
  | closed (saved : CString) (net : Net) (hnil : r.net.received = []) (hquiet : net.Quiet)
    (hsaved : r.data ≠ [] → saved ≠ []) :
    RefillOf r (.ok (), ⟨saved, saved.length, true, net⟩)
  | bytes (saved bytes : CString) (net : Net) (hrec : r.net.received = bytes ++ net.received)
    (hquiet : net.Quiet) (hne : bytes ≠ []) (hsize : r.net.size = bytes.length + net.size) :
    RefillOf r (.ok (), ⟨saved ++ bytes, saved.length, false, net⟩)

theorem refillBuffer_spec {r : NetReader} (hquiet : r.net.Quiet) (heof : r.buf_eof = false) :
    RefillOf r r.refillBuffer := by
  unfold refillBuffer
  rw [heof, if_neg (by decide)]
  dsimp only
  split
  · rename_i net heq
    exact absurd hquiet (Net.received_of_recv_failed heq).2
  · rename_i net heq
    obtain ⟨hnil, -, rfl⟩ := Net.of_recv_closed heq
    refine .closed _ [] hnil (by simp [Net.Quiet]) ?_
    intro hdata hsaved
    have hpos := List.length_pos_of_ne_nil hdata
    have := List.drop_eq_nil_iff.mp hsaved
    simp only [MAX_PUSHBACK] at this
    omega
  · rename_i bytes net heq
    have hnet : net = (r.net.recv BUFSIZE).2 := by rw [heq]
    exact .bytes _ bytes net (Net.received_of_recv_bytes heq).1 (hnet ▸ hquiet.recv BUFSIZE)
      (Net.ne_nil_of_recv_bytes heq (by decide)) (Net.size_of_recv_bytes heq)

/-- The refill, where the buffer is read to its end. -/
theorem left_of_not_hasData {r : NetReader} (heof : r.buf_eof = false)
    (hdata : r.data.length ≤ r.offset) : r.left = r.net.received := by
  unfold left
  rw [heof, if_neg (by decide), List.drop_eq_nil_of_le hdata, List.nil_append]

/-- Getting a character of the buffer, and pushing it back. -/
theorem getChar_buffered {r : NetReader} {c : Char} {rest : CString} (hready : Ready r)
    (heof : r.buf_eof = false) (hdrop : r.data.drop r.offset = c :: rest) :
    ∃ r', r.getChar = (.ok c, r') ∧ Ready r' ∧ r'.data ≠ [] ∧ r'.left = rest ++ r.net.received ∧
      ∃ r'', r'.pushBack = (.ok (), r'') ∧ Ready r'' ∧ r''.left = c :: rest ++ r.net.received := by
  have hget : r.data[r.offset]? = some c := by
    rw [← List.head?_drop, hdrop]
    rfl
  have hlt := (List.getElem?_eq_some_iff.mp hget).1
  refine ⟨{ r with offset := r.offset + 1 }, ?_, ⟨hready.quiet, hlt⟩, ?_, ?_, r, rfl, hready, ?_⟩
  · unfold getChar
    rw [hget]
  · exact List.ne_nil_of_length_pos (Nat.zero_lt_of_lt hlt)
  · show (if r.buf_eof then [] else r.data.drop (r.offset + 1) ++ r.net.received) = _
    rw [heof, if_neg (by decide), ← List.tail_drop, hdrop]
    rfl
  · unfold left
    rw [heof, if_neg (by decide), hdrop]

/-- A character behind a refill. -/
theorem getChar_refilled {r r₁ : NetReader} {c : Char} (hdata : r.data.length ≤ r.offset)
    (hrefill : r.refillBuffer = (.ok (), r₁)) (hget : r₁.data[r₁.offset]? = some c) :
    r.getChar = r₁.getChar := by
  unfold getChar
  rw [List.getElem?_eq_none_iff.mpr hdata, hrefill]
  dsimp only
  rw [hget]

/-- The NUL behind the close. -/
theorem getChar_closed {r r₁ : NetReader} (hdata : r.data.length ≤ r.offset)
    (hrefill : r.refillBuffer = (.ok (), r₁)) (hget : r₁.data[r₁.offset]? = none) :
    r.getChar = (.ok '\x00', r₁) := by
  unfold getChar
  rw [List.getElem?_eq_none_iff.mpr hdata, hrefill]
  dsimp only
  rw [hget]

/-- Reading from the buffer. -/
theorem take_spec {r : NetReader} {n : Nat} (hready : Ready r) (heof : r.buf_eof = false)
    (hn : 0 < n) (hdata : r.bufferHasData) :
    ∃ bytes r', r.take n = (.ok bytes, r') ∧ Ready r' ∧ r.left = bytes ++ r'.left ∧ bytes ≠ [] := by
  have hlt : r.offset < r.data.length := of_decide_eq_true hdata
  refine ⟨_, _, rfl, ⟨hready.quiet, ?_⟩, ?_, ?_⟩
  · show r.offset + _ ≤ r.data.length
    omega
  · unfold left
    dsimp only
    rw [heof, if_neg (by decide), if_neg (by decide), ← List.drop_drop, ← List.append_assoc,
      List.take_append_drop]
  · apply List.ne_nil_of_length_pos
    rw [List.length_take, List.length_drop]
    omega

instance : LawfulReader NetReader where
  left := left
  Ready := Ready
  Started r := r.data ≠ []
  left_of_endOfStream {r} heos := if_pos heos
  getChar_cons {r c rest} hready heos hleft := by
    cases hdrop : r.data.drop r.offset with
    | cons d more =>
      have hcons : d :: more ++ r.net.received = c :: rest := by
        rw [← hleft, left, if_neg (by rw [show r.buf_eof = false from heos]; decide), hdrop]
      cases hcons
      exact getChar_buffered hready heos hdrop
    | nil =>
      have hle := List.drop_eq_nil_iff.mp hdrop
      rw [left_of_not_hasData heos hle] at hleft
      have hspec := refillBuffer_spec hready.quiet heos
      generalize hrefill : r.refillBuffer = refilled at hspec
      cases hspec with
      | closed saved net hnil =>
        rw [hnil] at hleft
        cases hleft
      | bytes saved bytes net hrec hquiet hne hsize =>
        cases bytes with
        | nil => exact absurd rfl hne
        | cons d bytes =>
          rw [hrec] at hleft
          cases hleft
          have hready' : Ready ⟨saved ++ c :: bytes, saved.length, false, net⟩ := ⟨hquiet, by simp⟩
          have hget : (saved ++ c :: bytes)[saved.length]? = some c := by simp
          show ∃ r', getChar r = _ ∧ _
          rw [getChar_refilled hle hrefill hget]
          exact getChar_buffered hready' rfl List.drop_left
  getChar_nil {r} hready heos hleft hstarted := by
    have hdrop : r.data.drop r.offset = [] ∧ r.net.received = [] := by
      rw [left, if_neg (by rw [show r.buf_eof = false from heos]; decide)] at hleft
      exact List.append_eq_nil_iff.mp hleft
    have hle := List.drop_eq_nil_iff.mp hdrop.1
    have hspec := refillBuffer_spec hready.quiet heos
    generalize hrefill : r.refillBuffer = refilled at hspec
    cases hspec with
    | closed saved net hnil hquiet hsaved =>
      have hpos := List.length_pos_of_ne_nil (hsaved hstarted)
      refine ⟨⟨saved, saved.length, true, net⟩,
        getChar_closed hle hrefill (List.getElem?_eq_none_iff.mpr le_rfl),
        ⟨saved, saved.length - 1, true, net⟩, ?_, ⟨hquiet, Nat.sub_le ..⟩, rfl⟩
      show pushBack _ = _
      exact if_neg hpos.ne'
    | bytes saved bytes net hrec hquiet hne hsize =>
      rw [hdrop.2] at hrec
      exact absurd (List.append_eq_nil_iff.mp hrec.symm).1 hne
  read_spec {r n} hready heos hn := by
    show ∃ bytes r', read r n = _ ∧ _
    unfold read
    rw [if_neg (by rw [show r.buf_eof = false from heos]; decide)]
    by_cases hdata : r.bufferHasData
    · rw [if_pos hdata]
      obtain ⟨bytes, r', htake, hready', hleft, hne⟩ := take_spec hready heos hn hdata
      exact ⟨bytes, r', htake, hready', hleft, fun hnil ↦ absurd hnil hne⟩
    · rw [if_neg hdata]
      have hle : r.data.length ≤ r.offset := by
        simpa [bufferHasData] using hdata
      have hleft := left_of_not_hasData heos hle
      have hspec := refillBuffer_spec hready.quiet heos
      generalize r.refillBuffer = refilled at hspec ⊢
      cases hspec with
      | closed saved net hnil hquiet hsaved =>
        refine ⟨[], ⟨saved, saved.length, true, net⟩, ?_, ⟨hquiet, le_rfl⟩, ?_, fun _ ↦ ?_⟩
        · exact if_neg (by simp [bufferHasData])
        · show r.left = _
          rw [hleft, hnil]
          rfl
        · exact hleft.trans hnil
      | bytes saved bytes net hrec hquiet hne hsize =>
        have hhas : bufferHasData ⟨saved ++ bytes, saved.length, false, net⟩ := by
          simpa [bufferHasData] using List.length_pos_of_ne_nil hne
        have hready' : Ready ⟨saved ++ bytes, saved.length, false, net⟩ := ⟨hquiet, by simp⟩
        obtain ⟨taken, r', htake, hready'', hleft', hne'⟩ := take_spec hready' rfl hn hhas
        refine ⟨taken, r', ?_, hready'', ?_, fun hnil ↦ absurd hnil hne'⟩
        · show (if _ then _ else _) = _
          rw [if_pos hhas, htake]
        · show r.left = taken ++ r'.left
          rw [← hleft', hleft, hrec]
          show _ = (saved ++ bytes).drop saved.length ++ net.received
          rw [List.drop_left]

end NetReader

/-! ## Either of them -/

section Either

variable {σ τ : Type} [CharReader σ] [CharReader τ]

/-- A method of one of two readers. -/
def either {α : Type} (f : σ → Except Exception α × σ) (g : τ → Except Exception α × τ) :
    σ ⊕ τ → Except Exception α × (σ ⊕ τ)
  | .inl r => ((f r).1, .inl (f r).2)
  | .inr r => ((g r).1, .inr (g r).2)

instance : CharReader (σ ⊕ τ) where
  getChar := either CharReader.getChar CharReader.getChar
  pushBack := either CharReader.pushBack CharReader.pushBack
  read r n := either (CharReader.read · n) (CharReader.read · n) r
  endOfStream := Sum.elim CharReader.endOfStream CharReader.endOfStream
  size := Sum.elim CharReader.size CharReader.size
  size_getChar {r r' c} heos h := by
    cases r with
    | inl r =>
      obtain ⟨hgot, hr'⟩ := Prod.mk.inj h
      rw [← hr']
      exact CharReader.size_getChar heos (Prod.ext hgot rfl)
    | inr r =>
      obtain ⟨hgot, hr'⟩ := Prod.mk.inj h
      rw [← hr']
      exact CharReader.size_getChar heos (Prod.ext hgot rfl)

omit [CharReader σ] [CharReader τ] in
theorem either_inl {α : Type} {f : σ → Except Exception α × σ}
    {g : τ → Except Exception α × τ} {r r' : σ} {got : Except Exception α} (h : f r = (got, r')) :
    either f g (.inl r) = (got, .inl r') := by
  show ((f r).1, Sum.inl (f r).2) = _
  rw [h]

omit [CharReader σ] [CharReader τ] in
theorem either_inr {α : Type} {f : σ → Except Exception α × σ}
    {g : τ → Except Exception α × τ} {r r' : τ} {got : Except Exception α} (h : g r = (got, r')) :
    either f g (.inr r) = (got, .inr r') := by
  show ((g r).1, Sum.inr (g r).2) = _
  rw [h]

instance [LawfulReader σ] [LawfulReader τ] : LawfulReader (σ ⊕ τ) where
  left := Sum.elim LawfulReader.left LawfulReader.left
  Ready := Sum.elim LawfulReader.Ready LawfulReader.Ready
  Started := Sum.elim LawfulReader.Started LawfulReader.Started
  left_of_endOfStream {r} heos := by
    cases r with
    | inl r => exact LawfulReader.left_of_endOfStream heos
    | inr r => exact LawfulReader.left_of_endOfStream heos
  getChar_cons {r c rest} hready heos hleft := by
    cases r with
    | inl r =>
      obtain ⟨r₁, hget, hready₁, hstarted, hleft₁, r₂, hpush, hready₂, hleft₂⟩ :=
        LawfulReader.getChar_cons hready heos hleft
      exact ⟨.inl r₁, either_inl hget, hready₁, hstarted, hleft₁, .inl r₂, either_inl hpush,
        hready₂, hleft₂⟩
    | inr r =>
      obtain ⟨r₁, hget, hready₁, hstarted, hleft₁, r₂, hpush, hready₂, hleft₂⟩ :=
        LawfulReader.getChar_cons hready heos hleft
      exact ⟨.inr r₁, either_inr hget, hready₁, hstarted, hleft₁, .inr r₂, either_inr hpush,
        hready₂, hleft₂⟩
  getChar_nil {r} hready heos hleft hstarted := by
    cases r with
    | inl r =>
      obtain ⟨r₁, hget, r₂, hpush, hready₂, hleft₂⟩ :=
        LawfulReader.getChar_nil hready heos hleft hstarted
      exact ⟨.inl r₁, either_inl hget, .inl r₂, either_inl hpush, hready₂, hleft₂⟩
    | inr r =>
      obtain ⟨r₁, hget, r₂, hpush, hready₂, hleft₂⟩ :=
        LawfulReader.getChar_nil hready heos hleft hstarted
      exact ⟨.inr r₁, either_inr hget, .inr r₂, either_inr hpush, hready₂, hleft₂⟩
  read_spec {r n} hready heos hn := by
    cases r with
    | inl r =>
      obtain ⟨bytes, r₁, hread, hready₁, hleft, hnil⟩ := LawfulReader.read_spec hready heos hn
      exact ⟨bytes, .inl r₁, either_inl hread, hready₁, hleft, hnil⟩
    | inr r =>
      obtain ⟨bytes, r₁, hread, hready₁, hleft, hnil⟩ := LawfulReader.read_spec hready heos hn
      exact ⟨bytes, .inr r₁, either_inr hread, hready₁, hleft, hnil⟩

end Either

end Upnp.Web
