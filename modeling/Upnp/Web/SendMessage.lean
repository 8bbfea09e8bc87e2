import Mathlib.Data.List.Infix
import Mathlib.Tactic.Basic
import Upnp.Lib.CString

/-!
# Sending a message

`http_SendMessage` and `SendFile` of `readwrite.cpp`.  A call of `send` may take fewer bytes than
it is given, and a file may break off with a read error; the code looks for neither.  A message is
sent piece by piece, and the pieces do not depend on what happens to them.
-/

namespace Upnp.Web.SendMessage

open Upnp.Lib

/-! Codes of the source. -/

def HTTP_E_FILE_READ : Int := -5
def BUFSIZE : Nat := 2 * 1024

/-- `HttpEntity`. -/
inductive HttpEntity where
  | EMPTY
  /-- `TEXT` and `TEXT_PTR`: the bytes, unless `getEntity` is null. -/
  | TEXT (entity : Option CString)
  /-- What is in the file, unless `fopen` fails. -/
  | FILENAME (file : Option CString)
deriving DecidableEq, Repr

/-- `HttpMessage`, its start line and each header as `toString` writes them. -/
structure HttpMessage where
  startLine : CString
  headers : List CString
  entity : HttpEntity

/-- `startLineAndHeadersToString`. -/
def HttpMessage.startLineAndHeadersToString (message : HttpMessage) : CString :=
  message.startLine ++ message.headers.flatten ++ ['\r', '\n']

/-- The socket: the results its next sends will have, `none` for -1 (later ones take all they are
given), and the bytes it was handed. -/
structure Socket where
  sends : List (Option Nat)
  sent : CString
deriving DecidableEq, Repr

/-- `send`. -/
def Socket.send (tcpsockfd : Socket) (buf : CString) : Int × Socket :=
  match tcpsockfd.sends with
  | [] => (buf.length, { tcpsockfd with sent := tcpsockfd.sent ++ buf })
  | none :: sends => (-1, { tcpsockfd with sends := sends })
  | some n :: sends => (min n buf.length, ⟨sends, tcpsockfd.sent ++ buf.take n⟩)

/-- An open file: what was not read yet, and the errors its next reads will meet, each behind so
many bytes. -/
structure File where
  content : CString
  reads : List (Option Nat)
  ferror : Bool

/-- `fread( buf, sizeof(char), BUFSIZE, fp )`. -/
def File.fread (fp : File) : CString × File :=
  match fp.reads with
  | [] => (fp.content.take BUFSIZE, { fp with content := fp.content.drop BUFSIZE })
  | none :: reads => (fp.content.take BUFSIZE, ⟨fp.content.drop BUFSIZE, reads, fp.ferror⟩)
  | some n :: reads =>
    (fp.content.take (min n BUFSIZE), ⟨fp.content.drop (min n BUFSIZE), reads, true⟩)

/-- A read takes its bytes from the front. -/
theorem File.fread_append (fp : File) : fp.fread.1 ++ fp.fread.2.content = fp.content := by
  unfold File.fread
  split <;> exact List.take_append_drop _ _

/-- A read that gives something leaves less. -/
theorem File.length_fread_lt {fp : File} (h : fp.fread.1 ≠ []) :
    fp.fread.2.content.length < fp.content.length := by
  have hlength := congrArg List.length fp.fread_append
  rw [List.length_append] at hlength
  have hpos := List.length_pos_of_ne_nil h
  omega

/-- The loop of `SendFile`. -/
def sendFileLoop (tcpsockfd : Socket) (fp : File) : Int × Socket :=
  if fp.fread.1 = [] then (if fp.fread.2.ferror then HTTP_E_FILE_READ else 0, tcpsockfd)
  else
    let (numWritten, tcpsockfd) := tcpsockfd.send fp.fread.1
    if numWritten = -1 then (-1, tcpsockfd) else sendFileLoop tcpsockfd fp.fread.2
termination_by fp.content.length
decreasing_by exact File.length_fread_lt ‹_›

/-- `SendFile`. -/
def SendFile (tcpsockfd : Socket) (file : Option CString) (reads : List (Option Nat)) :
    Int × Socket :=
  match file with
  | none => (-1, tcpsockfd)
  | some content => sendFileLoop tcpsockfd ⟨content, reads, false⟩

/-- `http_SendMessage`. -/
def http_SendMessage (tcpsockfd : Socket) (message : HttpMessage) (reads : List (Option Nat)) :
    Int × Socket :=
  let (numWritten, tcpsockfd) := tcpsockfd.send message.startLineAndHeadersToString
  if numWritten = -1 then (-1, tcpsockfd)
  else
    match message.entity with
    | .EMPTY => (0, tcpsockfd)
    | .TEXT none => (0, tcpsockfd)
    | .TEXT (some entity) =>
      let (numWritten, tcpsockfd) := tcpsockfd.send entity
      if numWritten = -1 then (-1, tcpsockfd) else (0, tcpsockfd)
    | .FILENAME file =>
      let (status, tcpsockfd) := SendFile tcpsockfd file reads
      if status = -1 then (status, tcpsockfd) else (0, tcpsockfd)

/-! ## What should be sent -/

/-- The bytes of an entity; a file that cannot be opened has none to send. -/
def HttpEntity.bytes : HttpEntity → Option CString
  | .EMPTY => some []
  | .TEXT entity => some (entity.getD [])
  | .FILENAME file => file

/-- The bytes of a message. -/
def HttpMessage.bytes (message : HttpMessage) : Option CString :=
  message.entity.bytes.map (message.startLineAndHeadersToString ++ ·)

/-- Success is reported if and only if all bytes of the message were handed over, in order and
each once. -/
def ReportsExactly (message : HttpMessage) (sends reads : List (Option Nat)) : Prop :=
  (http_SendMessage ⟨sends, []⟩ message reads).1 = 0 ↔
    message.bytes = some (http_SendMessage ⟨sends, []⟩ message reads).2.sent

/-! ## Pieces -/

/-- What the reads of a file give, up to the first that gives nothing. -/
def File.chunks (fp : File) : List CString :=
  if fp.fread.1 = [] then [] else fp.fread.1 :: File.chunks fp.fread.2
termination_by fp.content.length
decreasing_by exact File.length_fread_lt ‹_›

/-- The pieces of an entity. -/
def HttpEntity.pieces (reads : List (Option Nat)) : HttpEntity → List CString
  | .EMPTY => []
  | .TEXT none => []
  | .TEXT (some entity) => [entity]
  | .FILENAME none => []
  | .FILENAME (some content) => File.chunks ⟨content, reads, false⟩

/-- The pieces of a message, each for one send. -/
def HttpMessage.pieces (message : HttpMessage) (reads : List (Option Nat)) : List CString :=
  message.startLineAndHeadersToString :: message.entity.pieces reads

/-- Pieces are sent until a send fails. -/
def Socket.sendAll (tcpsockfd : Socket) : List CString → Bool × Socket
  | [] => (true, tcpsockfd)
  | piece :: pieces =>
    if (tcpsockfd.send piece).1 = -1 then (false, (tcpsockfd.send piece).2)
    else (tcpsockfd.send piece).2.sendAll pieces

/-- Some send of a piece fails. -/
def Fails (pieces : List CString) (sends : List (Option Nat)) : Prop :=
  ∃ i < pieces.length, sends[i]? = some none

/-- No send of a piece comes back with a short count. -/
def Full (pieces : List CString) (sends : List (Option Nat)) : Prop :=
  ∀ (i : Nat) (piece : CString) (n : Nat),
    pieces[i]? = some piece → sends[i]? = some (some n) → piece.length ≤ n

/-- The reads go on to the end of what is to be read. -/
def HttpEntity.ReadToEnd (entity : HttpEntity) (reads : List (Option Nat)) : Prop :=
  entity.bytes = some (entity.pieces reads).flatten

/-- Only the send of a text with no bytes fails, when everything was handed over. -/
def FailsAtNothing (message : HttpMessage) (sends : List (Option Nat)) : Prop :=
  message.entity = .TEXT (some []) ∧ sends[0]? ≠ some none ∧ sends[1]? = some none ∧
    Full [message.startLineAndHeadersToString] sends

variable {piece : CString} {pieces : List CString} {r : Option Nat} {sends : List (Option Nat)}
  {tcpsockfd : Socket} {fp : File}

theorem fails_nil : ¬ Fails pieces [] := by
  rintro ⟨i, -, hi⟩
  cases hi

theorem not_fails_nil_pieces : ¬ Fails [] sends := by
  rintro ⟨i, hi, -⟩
  exact absurd hi (Nat.not_lt_zero i)

theorem fails_cons : Fails (piece :: pieces) (r :: sends) ↔ r = none ∨ Fails pieces sends := by
  constructor
  · rintro ⟨i, hi, hnone⟩
    cases i with
    | zero => exact .inl (Option.some.inj hnone)
    | succ i => exact .inr ⟨i, Nat.lt_of_succ_lt_succ hi, hnone⟩
  · rintro (rfl | ⟨i, hi, hnone⟩)
    · exact ⟨0, Nat.succ_pos _, rfl⟩
    · exact ⟨i + 1, Nat.succ_lt_succ hi, hnone⟩

theorem full_nil : Full pieces [] := by
  intro i piece n _ hi
  cases hi

theorem full_nil_pieces : Full [] sends := by
  intro i piece n hi _
  cases hi

theorem full_cons : Full (piece :: pieces) (r :: sends) ↔
    (∀ n, r = some n → piece.length ≤ n) ∧ Full pieces sends := by
  constructor
  · intro h
    refine ⟨fun n hn ↦ h 0 piece n rfl (congrArg some hn), ?_⟩
    intro i p n hp hn
    exact h (i + 1) p n hp hn
  · rintro ⟨hhead, htail⟩ i p n hp hn
    cases i with
    | zero =>
      obtain rfl := Option.some.inj hp
      exact hhead n (Option.some.inj hn)
    | succ i => exact htail i p n hp hn

/-! ## Sending the pieces -/

/-- A send that fails. -/
theorem sendAll_cons_none (sent : CString) :
    Socket.sendAll ⟨none :: sends, sent⟩ (piece :: pieces) = (false, ⟨sends, sent⟩) := rfl

/-- A send with a count. -/
theorem sendAll_cons_some (n : Nat) (sent : CString) :
    Socket.sendAll ⟨some n :: sends, sent⟩ (piece :: pieces) =
      Socket.sendAll ⟨sends, sent ++ piece.take n⟩ pieces := by
  rw [Socket.sendAll, if_neg]
  · rfl
  · change (min n piece.length : Int) ≠ -1
    omega

/-- The sends behind the last one that is told take everything. -/
theorem sendAll_nil (pieces : List CString) (sent : CString) :
    Socket.sendAll ⟨[], sent⟩ pieces = (true, ⟨[], sent ++ pieces.flatten⟩) := by
  induction pieces generalizing sent with
  | nil => simp [Socket.sendAll]
  | cons piece pieces ih =>
    rw [Socket.sendAll, if_neg]
    · exact (ih _).trans (by rw [List.append_assoc, List.flatten_cons])
    · change (piece.length : Int) ≠ -1
      omega

/-- No more is handed over than the pieces. -/
theorem length_sendAll_le (pieces : List CString) (sends : List (Option Nat)) (sent : CString) :
    (Socket.sendAll ⟨sends, sent⟩ pieces).2.sent.length ≤ sent.length + pieces.flatten.length := by
  induction pieces generalizing sends sent with
  | nil => simp [Socket.sendAll]
  | cons piece pieces ih =>
    rw [List.flatten_cons, List.length_append]
    match sends with
    | [] =>
      rw [sendAll_nil, List.flatten_cons]
      simp
    | none :: sends =>
      rw [sendAll_cons_none]
      exact Nat.le_add_right _ _
    | some n :: sends =>
      rw [sendAll_cons_some]
      have hle := ih sends (sent ++ piece.take n)
      rw [List.length_append, List.length_take] at hle
      omega

/-- When no send fails all pieces are sent, and wholly so exactly when no count is short. -/
theorem sendAll_of_not_fails (hfails : ¬ Fails pieces sends) (sent : CString) :
    (Socket.sendAll ⟨sends, sent⟩ pieces).1 = true ∧
      (Full pieces sends →
        (Socket.sendAll ⟨sends, sent⟩ pieces).2.sent = sent ++ pieces.flatten) ∧
      (¬ Full pieces sends → (Socket.sendAll ⟨sends, sent⟩ pieces).2.sent.length <
        sent.length + pieces.flatten.length) := by
  induction pieces generalizing sends sent with
  | nil =>
    refine ⟨rfl, fun _ ↦ ?_, fun h ↦ absurd full_nil_pieces h⟩
    rw [Socket.sendAll, List.flatten_nil, List.append_nil]
  | cons piece pieces ih =>
    match sends with
    | [] =>
      rw [sendAll_nil]
      exact ⟨rfl, fun _ ↦ rfl, fun h ↦ absurd full_nil h⟩
    | none :: sends => exact absurd (fails_cons.mpr (.inl rfl)) hfails
    | some n :: sends =>
      rw [sendAll_cons_some, full_cons, List.flatten_cons]
      obtain ⟨hok, hfull, hshort⟩ :=
        ih (fun h ↦ hfails (fails_cons.mpr (.inr h))) (sent ++ piece.take n)
      refine ⟨hok, ?_, ?_⟩
      · rintro ⟨hn, hrest⟩
        rw [hfull hrest, List.take_of_length_le (hn n rfl), List.append_assoc]
      · intro hnot
        have hle := length_sendAll_le pieces sends (sent ++ piece.take n)
        rw [List.length_append, List.length_take] at hle
        rw [List.length_append]
        by_cases hn : piece.length ≤ n
        · have hlt := hshort fun hrest ↦ hnot ⟨fun m hm ↦ Option.some.inj hm ▸ hn, hrest⟩
          rw [List.length_append, List.length_take] at hlt
          omega
        · omega

/-- When a send fails the sending fails, and something is left of pieces none of which is empty. -/
theorem sendAll_of_fails (hfails : Fails pieces sends) (sent : CString) :
    (Socket.sendAll ⟨sends, sent⟩ pieces).1 = false ∧
      ((∀ piece ∈ pieces, piece ≠ []) → (Socket.sendAll ⟨sends, sent⟩ pieces).2.sent.length <
        sent.length + pieces.flatten.length) := by
  induction pieces generalizing sends sent with
  | nil => exact absurd hfails not_fails_nil_pieces
  | cons piece pieces ih =>
    match sends with
    | [] => exact absurd hfails fails_nil
    | none :: sends =>
      rw [sendAll_cons_none, List.flatten_cons, List.length_append]
      refine ⟨rfl, fun hne ↦ ?_⟩
      have hpos := List.length_pos_of_ne_nil (hne piece List.mem_cons_self)
      dsimp only
      omega
    | some n :: sends =>
      rw [sendAll_cons_some, List.flatten_cons, List.length_append]
      obtain hnone | hrest := fails_cons.mp hfails
      · cases hnone
      obtain ⟨hok, hlt⟩ := ih hrest (sent ++ piece.take n)
      refine ⟨hok, fun hne ↦ ?_⟩
      have hlt := hlt fun p hp ↦ hne p (List.mem_cons_of_mem _ hp)
      rw [List.length_append, List.length_take] at hlt
      omega

/-! ## Reading the pieces -/

/-- A file is read from its front. -/
theorem flatten_chunks (fp : File) : ∃ rest, fp.chunks.flatten ++ rest = fp.content := by
  induction fp using File.chunks.induct with
  | case1 fp hnil =>
    rw [File.chunks, if_pos hnil]
    exact ⟨fp.content, rfl⟩
  | case2 fp hne ih =>
    obtain ⟨rest, hrest⟩ := ih
    rw [File.chunks, if_neg hne]
    refine ⟨rest, ?_⟩
    rw [List.flatten_cons, List.append_assoc, hrest, File.fread_append]

/-- A piece of a file has a byte. -/
theorem ne_nil_of_mem_chunks (fp : File) : ∀ piece ∈ fp.chunks, piece ≠ [] := by
  induction fp using File.chunks.induct with
  | case1 fp hnil =>
    rw [File.chunks, if_pos hnil]
    exact fun piece hmem ↦ absurd hmem List.not_mem_nil
  | case2 fp hne ih =>
    rw [File.chunks, if_neg hne]
    intro piece hmem
    rcases List.mem_cons.mp hmem with rfl | hmem
    · exact hne
    · exact ih piece hmem

/-- `SendFile` sends the pieces of the file, and says -1 exactly when one of the sends does. -/
theorem sendFileLoop_eq (tcpsockfd : Socket) (fp : File) :
    (sendFileLoop tcpsockfd fp).2 = (tcpsockfd.sendAll fp.chunks).2 ∧
      ((sendFileLoop tcpsockfd fp).1 = -1 ↔ (tcpsockfd.sendAll fp.chunks).1 = false) := by
  induction tcpsockfd, fp using sendFileLoop.induct with
  | case1 tcpsockfd fp hnil =>
    rw [sendFileLoop, if_pos hnil, File.chunks, if_pos hnil]
    refine ⟨rfl, ?_⟩
    rw [Socket.sendAll]
    split <;> simp [HTTP_E_FILE_READ]
  | case2 tcpsockfd fp hne tcpsockfd' hsend =>
    rw [sendFileLoop, if_neg hne, File.chunks, if_neg hne, Socket.sendAll, hsend]
    simp
  | case3 tcpsockfd fp hne numWritten tcpsockfd' hsend hok ih =>
    rw [sendFileLoop, if_neg hne, File.chunks, if_neg hne, Socket.sendAll, hsend]
    simp only [if_neg hok]
    exact ih

/-! ## The message -/

/-- The first piece ends in a line end. -/
theorem startLineAndHeadersToString_ne_nil (message : HttpMessage) :
    message.startLineAndHeadersToString ≠ [] := by
  unfold HttpMessage.startLineAndHeadersToString
  exact List.append_ne_nil_of_right_ne_nil _ (List.cons_ne_nil _ _)

/-- The message is sent in its pieces; the code is zero when no send fails and the file was
opened. -/
theorem http_SendMessage_eq (tcpsockfd : Socket) (message : HttpMessage)
    (reads : List (Option Nat)) :
    (http_SendMessage tcpsockfd message reads).2 = (tcpsockfd.sendAll (message.pieces reads)).2 ∧
      ((http_SendMessage tcpsockfd message reads).1 = 0 ↔
        (tcpsockfd.sendAll (message.pieces reads)).1 = true ∧
          message.entity ≠ .FILENAME none) := by
  unfold http_SendMessage HttpMessage.pieces
  rw [Socket.sendAll]
  generalize hsend : tcpsockfd.send message.startLineAndHeadersToString = sent
  obtain ⟨numWritten, tcpsockfd'⟩ := sent
  by_cases hfail : numWritten = -1
  · simp [hfail]
  · simp only [if_neg hfail]
    cases message.entity with
    | EMPTY => simp [HttpEntity.pieces, Socket.sendAll]
    | TEXT entity =>
      cases entity with
      | none => simp [HttpEntity.pieces, Socket.sendAll]
      | some entity =>
        simp only [HttpEntity.pieces, Socket.sendAll]
        split <;> simp
    | FILENAME file =>
      cases file with
      | none => simp [HttpEntity.pieces, Socket.sendAll, SendFile]
      | some content =>
        obtain ⟨hsocket, hcode⟩ : (SendFile tcpsockfd' (some content) reads).2 =
              (tcpsockfd'.sendAll (File.chunks ⟨content, reads, false⟩)).2 ∧
            ((SendFile tcpsockfd' (some content) reads).1 = -1 ↔
              (tcpsockfd'.sendAll (File.chunks ⟨content, reads, false⟩)).1 = false) :=
          sendFileLoop_eq tcpsockfd' ⟨content, reads, false⟩
        simp only [HttpEntity.pieces]
        rw [← hsocket]
        by_cases hstatus : (SendFile tcpsockfd' (some content) reads).1 = -1
        · rw [if_pos hstatus, hcode.mp hstatus]
          simp [hstatus]
        · have hok : (tcpsockfd'.sendAll (File.chunks ⟨content, reads, false⟩)).1 = true :=
            Bool.eq_true_of_not_eq_false (mt hcode.mpr hstatus)
          rw [if_neg hstatus, hok]
          simp

/-- The pieces are no more than the bytes of the entity. -/
theorem length_pieces_le {entity : HttpEntity} {bytes : CString} (reads : List (Option Nat))
    (h : entity.bytes = some bytes) : (entity.pieces reads).flatten.length ≤ bytes.length ∧
      (¬ entity.ReadToEnd reads → (entity.pieces reads).flatten.length < bytes.length) := by
  suffices hstart : (entity.pieces reads).flatten <+: bytes by
    refine ⟨hstart.length_le, fun hcut ↦ lt_of_le_of_ne hstart.length_le fun hlength ↦ ?_⟩
    exact hcut (h.trans (congrArg some (hstart.eq_of_length hlength).symm))
  match entity, h with
  | .EMPTY, h => exact List.nil_prefix
  | .TEXT none, h => exact List.nil_prefix
  | .TEXT (some entity), h =>
    obtain rfl := Option.some.inj h
    exact ⟨[], by simp [HttpEntity.pieces]⟩
  | .FILENAME (some content), h =>
    obtain rfl := Option.some.inj h
    exact flatten_chunks ⟨content, reads, false⟩

/-- The length of a message whose entity has a length. -/
theorem length_bytes {message : HttpMessage} {bytes : CString} (h : message.bytes = some bytes) :
    ∃ entity, message.entity.bytes = some entity ∧
      bytes.length = message.startLineAndHeadersToString.length + entity.length := by
  obtain ⟨entity, hentity, rfl⟩ := Option.map_eq_some_iff.mp h
  exact ⟨entity, hentity, List.length_append⟩

variable {message : HttpMessage} {reads : List (Option Nat)}

/-- The length of all pieces. -/
theorem length_flatten_pieces : (message.pieces reads).flatten.length =
    message.startLineAndHeadersToString.length + (message.entity.pieces reads).flatten.length := by
  rw [HttpMessage.pieces, List.flatten_cons, List.length_append]

/-- When no send fails, all bytes are handed over exactly when no count is short and the file is
read to its end. -/
theorem sent_iff_of_not_fails (h : ¬ Fails (message.pieces reads) sends) :
    message.bytes = some (Socket.sendAll ⟨sends, []⟩ (message.pieces reads)).2.sent ↔
      Full (message.pieces reads) sends ∧ message.entity.ReadToEnd reads := by
  obtain ⟨-, hfull, hshort⟩ := sendAll_of_not_fails h []
  constructor
  · intro hsent
    obtain ⟨entity, hentity, hlength⟩ := length_bytes hsent
    obtain ⟨hle, hlt⟩ := length_pieces_le reads hentity
    have hall := length_sendAll_le (message.pieces reads) sends []
    rw [List.length_nil, Nat.zero_add, length_flatten_pieces] at hall hshort
    constructor
    · by_contra hnot
      have hlt' := hshort hnot
      omega
    · by_contra hcut
      have hlt' := hlt hcut
      omega
  · rintro ⟨hf, hread⟩
    have hread : message.entity.bytes = some (message.entity.pieces reads).flatten := hread
    rw [hfull hf, HttpMessage.bytes, hread, HttpMessage.pieces, List.flatten_cons]
    rfl

/-- The pieces of a message whose text has no bytes. -/
theorem pieces_of_empty (h : message.entity = .TEXT (some [])) :
    message.pieces reads = [message.startLineAndHeadersToString, []] := by
  rw [HttpMessage.pieces, h]
  rfl

/-- The bytes of a message whose text has no bytes. -/
theorem bytes_of_empty (h : message.entity = .TEXT (some [])) :
    message.bytes = some message.startLineAndHeadersToString := by
  rw [HttpMessage.bytes, h]
  exact congrArg some (List.append_nil _)

/-- When a send fails, all bytes were handed over only when it was the send of nothing. -/
theorem sent_iff_of_fails (h : Fails (message.pieces reads) sends) :
    message.bytes = some (Socket.sendAll ⟨sends, []⟩ (message.pieces reads)).2.sent ↔
      FailsAtNothing message sends := by
  have hheaders := startLineAndHeadersToString_ne_nil message
  constructor
  · intro hsent
    have hempty : message.entity = .TEXT (some []) := by
      by_contra hne
      -- No piece is empty, so that something was left.
      have hpieces : ∀ piece ∈ message.pieces reads, piece ≠ [] := by
        intro piece hmem
        rcases List.mem_cons.mp hmem with rfl | hmem
        · exact hheaders
        · match hentity : message.entity with
          | .EMPTY => simp [hentity, HttpEntity.pieces] at hmem
          | .TEXT none => simp [hentity, HttpEntity.pieces] at hmem
          | .TEXT (some entity) =>
            simp only [hentity, HttpEntity.pieces, List.mem_singleton] at hmem
            rintro rfl
            exact hne (by rw [hentity, ← hmem])
          | .FILENAME none => simp [hentity, HttpEntity.pieces] at hmem
          | .FILENAME (some content) =>
            simp only [hentity, HttpEntity.pieces] at hmem
            exact ne_nil_of_mem_chunks _ piece hmem
      have hlt := (sendAll_of_fails h []).2 hpieces
      obtain ⟨entity, hentity, hlength⟩ := length_bytes hsent
      have hle := (length_pieces_le reads hentity).1
      rw [length_flatten_pieces, List.length_nil] at hlt
      omega
    rw [pieces_of_empty hempty] at h hsent
    rw [bytes_of_empty hempty] at hsent
    have hsent := Option.some.inj hsent
    match sends with
    | [] => exact absurd h fails_nil
    | none :: sends => exact absurd hsent hheaders
    | some n :: sends =>
      rw [sendAll_cons_some] at hsent
      obtain hnone | hrest := fails_cons.mp h
      · cases hnone
      match sends with
      | [] => exact absurd hrest fails_nil
      | some m :: sends =>
        obtain hnone | hrest := fails_cons.mp hrest
        · cases hnone
        · exact absurd hrest not_fails_nil_pieces
      | none :: sends =>
        have hfirst : (some (some n) : Option (Option Nat)) ≠ some none :=
          fun hnone ↦ nomatch Option.some.inj hnone
        refine ⟨hempty, hfirst, rfl, full_cons.mpr ⟨?_, full_nil_pieces⟩⟩
        intro m hm
        obtain rfl := Option.some.inj hm
        exact List.take_eq_self_iff _ |>.mp hsent.symm
  · rintro ⟨hempty, hfirst, hsecond, hfull⟩
    rw [pieces_of_empty hempty, bytes_of_empty hempty]
    match sends with
    | [] => cases hsecond
    | none :: sends => exact absurd rfl hfirst
    | [some n] => cases hsecond
    | some n :: r :: sends =>
      obtain rfl : r = none := Option.some.inj hsecond
      have hhead := (full_cons.mp hfull).1 n rfl
      rw [sendAll_cons_some, sendAll_cons_none, List.take_of_length_le hhead]
      rfl

/-- **Success means that all bytes were handed over exactly when no count is short and the file is
read to its end, unless a send fails or the file is not opened; and failure means that some were
not, unless it was the send of a text with no bytes that failed.** -/
theorem reportsExactly_iff (message : HttpMessage) (sends reads : List (Option Nat)) :
    ReportsExactly message sends reads ↔
      (¬ Fails (message.pieces reads) sends → message.entity ≠ .FILENAME none →
        Full (message.pieces reads) sends ∧ message.entity.ReadToEnd reads) ∧
      ¬ FailsAtNothing message sends := by
  obtain ⟨hsocket, hcode⟩ := http_SendMessage_eq ⟨sends, []⟩ message reads
  unfold ReportsExactly
  simp only [hsocket, hcode]
  by_cases hfails : Fails (message.pieces reads) sends
  · have hfalse : (Socket.sendAll ⟨sends, []⟩ (message.pieces reads)).1 = false :=
      (sendAll_of_fails hfails []).1
    rw [sent_iff_of_fails hfails, hfalse]
    simp [hfails]
  · have hok : (Socket.sendAll ⟨sends, []⟩ (message.pieces reads)).1 = true :=
      (sendAll_of_not_fails hfails []).1
    have hnothing : ¬ FailsAtNothing message sends := by
      rintro ⟨hempty, -, hsecond, -⟩
      refine hfails ⟨1, ?_, hsecond⟩
      rw [pieces_of_empty hempty]
      exact Nat.one_lt_two
    rw [sent_iff_of_not_fails hfails, hok]
    by_cases hfile : message.entity = .FILENAME none
    · have hread : ¬ (HttpEntity.FILENAME none).ReadToEnd reads := fun h ↦ nomatch h
      simp [hfile, hread, hnothing]
    · simp [hfile, hfails, hnothing]

/-- Three bytes of a text of four are taken, and a file breaks off at its first read: both are
reported as sent. -/
theorem not_reportsExactly :
    ¬ ReportsExactly ⟨[], [], .TEXT (some "abcd".toList)⟩ [some 2, some 3] [] ∧
    ¬ ReportsExactly ⟨[], [], .FILENAME (some "abcd".toList)⟩ [] [some 0] := by
  unfold ReportsExactly
  decide +kernel

end Upnp.Web.SendMessage
