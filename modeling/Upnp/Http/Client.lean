import Mathlib.Tactic.Set
import Upnp.Lib.CString
import Upnp.Lib.Net

/-!
# Reading a response

The reading half of `http_client.c`: `readLine` takes a line byte by byte,
`getHeaders` collects the header lines in a list of buffers and finds out how
the body is delimited, `read_http_response` appends the body to the list and
concatenates it.
-/

namespace Upnp.Http

open Upnp.Lib

def SOCKET_BUFFER_SIZE : Nat := 5000
def HTTP_READ_BYTES : Int := -1
def UPNP_E_OUTOF_MEMORY : Int := -104
def UPNP_E_SOCKET_READ : Int := -202

/-- `socket_buffer`: the bytes stored and the number that counts. -/
structure SocketBuffer where
  buff : List Char
  size : Nat
deriving DecidableEq, Repr

namespace SocketBuffer

/-- A buffer with what was read into it. -/
def ofRead (bytes : List Char) : SocketBuffer := ⟨bytes, bytes.length⟩

/-- The line in the buffer is properly ended. -/
def crlfEnded (b : SocketBuffer) : Bool :=
  2 ≤ b.size && b.buff[b.size - 1]? = some '\n' && b.buff[b.size - 2]? = some '\r'

/-- The bytes that count. -/
def bytes (b : SocketBuffer) : List Char := b.buff.take b.size

end SocketBuffer

/-- `concat_socket_buffers`. -/
def concatSocketBuffers (bufs : List SocketBuffer) : List Char := bufs.flatMap (·.bytes)

/-- `readLine`, for `n` characters at most; `none` for an error. -/
def readLine : Nat → Net → Option (List Char) × Net
  | 0, net => (some [], net)
  | n + 1, net =>
    match net.recv 1 with
    | (.bytes bs, net) =>
      if bs = ['\n'] then (some bs, net)
      else
        let (line, net) := readLine n net
        (line.map (bs ++ ·), net)
    | (.closed, net) => (some [], net)
    | (.failed, net) => (none, net)

/-- A line takes its bytes away. -/
theorem size_of_readLine {n : Nat} {net net' : Net} {line : List Char}
    (h : readLine n net = (some line, net')) : net.size = line.length + net'.size := by
  induction n generalizing net line with
  | zero =>
    simp only [readLine, Prod.mk.injEq, Option.some.injEq] at h
    obtain ⟨rfl, rfl⟩ := h
    simp
  | succ n ih =>
    unfold readLine at h
    split at h
    · rename_i bs net₁ hrecv
      have hsize := Net.size_of_recv_bytes hrecv
      split at h
      · obtain ⟨rfl, rfl⟩ : bs = line ∧ net₁ = net' := by simpa using h
        exact hsize
      · simp only [Prod.mk.injEq, Option.map_eq_some_iff] at h
        obtain ⟨⟨rest, hrest, rfl⟩, hnet⟩ := h
        have := ih (Prod.ext hrest hnet)
        simp only [List.length_append]
        omega
    · rename_i net₁ hrecv
      obtain ⟨-, hsize, rfl⟩ := Net.of_recv_closed hrecv
      obtain ⟨rfl, rfl⟩ : [] = line ∧ [] = net' := by simpa using h
      rw [hsize]
      rfl
    · simp at h

/-! ## `getHeaders` -/

/-- `strncasecmp(pat, line, strlen(pat)) == 0`. -/
def startsWithCase (pat line : CString) : Bool := strncaseEq pat line pat.length

def pat : CString := "CONTENT-LENGTH:".toList
def pat2 : CString := "TRANSFER-ENCODING: CHUNKED".toList
def pat3 : CString := "CONTENT".toList

/-- The content length after a line is looked at: `-3` nothing known, `-2` content of unknown
length, `-1` chunked. -/
def lengthAfter (contentLength : Int) (line : CString) : Int :=
  let contentLength :=
    if startsWithCase pat3 line && contentLength = -3 then -2 else contentLength
  let contentLength :=
    if startsWithCase pat2 line then -1 else contentLength
  if startsWithCase pat line && contentLength ≠ -1 then
    match strtol 10 (line.drop pat.length) with
    | some v => wrap32 v
    | none => 0
  else contentLength

/-- The line begins with a blank or a tab. -/
def isContinuation (line : List Char) : Bool :=
  line.head? = some ' ' || line.head? = some '\t'

/-- The CRLF of a properly ended buffer is taken off. -/
def SocketBuffer.chopCRLF (b : SocketBuffer) : SocketBuffer :=
  if b.crlfEnded then { b with size := b.size - 2 } else b

/-- The previous buffer once the next line is seen. -/
def foldPrev (prev : Option SocketBuffer) (line : List Char) : Option SocketBuffer :=
  if isContinuation line then prev.map (·.chopCRLF) else prev

/-- The total size once the next line is seen: two bytes are taken off for a continuation, even
where the previous buffer keeps them. -/
def foldTotal (prev : Option SocketBuffer) (total_size : Int) (line : List Char) : Int :=
  let total_size := wrap32 (total_size + line.length)
  if isContinuation line && prev.isSome then wrap32 (total_size - 2) else total_size

/-- The end of the headers: an empty line behind a properly ended one. -/
def isLastLine (newLine : Bool) (line : List Char) : Bool :=
  newLine && line.length = 2 && line.head? = some '\r'

/-- What `getHeaders` returns. -/
structure Headers where
  total_size : Int
  contentLength : Int
  buffers : List SocketBuffer
  /-- The connection behind the headers. -/
  rest : Net

/-- The content length when the headers are over. -/
def lengthAtEnd (contentLength : Int) : Int := if contentLength = -3 then 0 else contentLength

/-- The loop of `getHeaders` behind the buffers `before` and `prev`, over the answers of
`malloc`. -/
def headerLoop (malloc : Nat → Bool) (before : List SocketBuffer) (prev : Option SocketBuffer)
    (total_size contentLength : Int) (net : Net) : Except Int Headers :=
  match hread : readLine (SOCKET_BUFFER_SIZE - 1) net with
  | (none, _) => .error UPNP_E_SOCKET_READ
  | (some [], net') =>
    .ok ⟨total_size, lengthAtEnd contentLength, before ++ prev.toList ++ [.ofRead []], net'⟩
  | (some (c :: cs), net') =>
    let line := c :: cs
    let total_size := foldTotal prev total_size line
    let prev := foldPrev prev line
    let newLine := prev.all (·.crlfEnded)
    let contentLength := if newLine then lengthAfter contentLength line else contentLength
    let before := before ++ prev.toList
    if isLastLine newLine line then
      .ok ⟨total_size, lengthAtEnd contentLength, before ++ [.ofRead line], net'⟩
    else if !malloc before.length then .error UPNP_E_OUTOF_MEMORY
    else headerLoop malloc before (some (.ofRead line)) total_size contentLength net'
termination_by net.size
decreasing_by
  have := size_of_readLine hread
  simp only [List.length_cons] at this
  omega

section

variable {malloc : Nat → Bool} {before : List SocketBuffer} {prev : Option SocketBuffer}
variable {total_size contentLength : Int} {net net' : Net} {line : List Char}

theorem headerLoop_of_failed (hread : readLine (SOCKET_BUFFER_SIZE - 1) net = (none, net')) :
    headerLoop malloc before prev total_size contentLength net = .error UPNP_E_SOCKET_READ := by
  rw [headerLoop]
  split
  · rfl
  · rename_i heq
    rw [hread] at heq
    cases heq
  · rename_i heq
    rw [hread] at heq
    cases heq

theorem headerLoop_of_closed (hread : readLine (SOCKET_BUFFER_SIZE - 1) net = (some [], net')) :
    headerLoop malloc before prev total_size contentLength net =
      .ok ⟨total_size, lengthAtEnd contentLength, before ++ prev.toList ++ [.ofRead []], net'⟩ := by
  rw [headerLoop]
  split
  · rename_i heq
    rw [hread] at heq
    cases heq
  · rename_i heq
    rw [hread] at heq
    cases heq
    rfl
  · rename_i heq
    rw [hread] at heq
    cases heq

theorem headerLoop_of_line (hread : readLine (SOCKET_BUFFER_SIZE - 1) net = (some line, net'))
    (hne : line ≠ []) :
    headerLoop malloc before prev total_size contentLength net =
      let newLine := (foldPrev prev line).all (·.crlfEnded)
      let contentLength := if newLine then lengthAfter contentLength line else contentLength
      let before := before ++ (foldPrev prev line).toList
      if isLastLine newLine line then
        .ok ⟨foldTotal prev total_size line, lengthAtEnd contentLength, before ++ [.ofRead line],
          net'⟩
      else if !malloc before.length then .error UPNP_E_OUTOF_MEMORY
      else headerLoop malloc before (some (.ofRead line)) (foldTotal prev total_size line)
        contentLength net' := by
  obtain ⟨c, cs, rfl⟩ := List.exists_cons_of_ne_nil hne
  rw [headerLoop]
  split
  · rename_i heq
    rw [hread] at heq
    cases heq
  · rename_i heq
    rw [hread] at heq
    cases heq
  · rename_i heq
    rw [hread] at heq
    cases heq
    rfl

end

/-- What one turn of the loop can do when it does not fail. -/
theorem headerLoop_ok {malloc : Nat → Bool} {before : List SocketBuffer}
    {prev : Option SocketBuffer} {total_size contentLength : Int} {net : Net} {h : Headers}
    (hok : headerLoop malloc before prev total_size contentLength net = .ok h) :
    ∃ line net', readLine (SOCKET_BUFFER_SIZE - 1) net = (some line, net') ∧
      ((line = [] ∧ h = ⟨total_size, lengthAtEnd contentLength,
        before ++ prev.toList ++ [.ofRead []], net'⟩) ∨
      (line ≠ [] ∧ ∃ newLine contentLength',
        newLine = (foldPrev prev line).all (·.crlfEnded) ∧
        contentLength' = (if newLine then lengthAfter contentLength line else contentLength) ∧
        ((isLastLine newLine line = true ∧ h = ⟨foldTotal prev total_size line,
          lengthAtEnd contentLength', before ++ (foldPrev prev line).toList ++ [.ofRead line],
          net'⟩) ∨
        (isLastLine newLine line = false ∧
          headerLoop malloc (before ++ (foldPrev prev line).toList) (some (.ofRead line))
            (foldTotal prev total_size line) contentLength' net' = .ok h)))) := by
  rcases hread : readLine (SOCKET_BUFFER_SIZE - 1) net with ⟨answer, net'⟩
  cases answer with
  | none =>
    rw [headerLoop_of_failed hread] at hok
    cases hok
  | some line =>
    by_cases hne : line = []
    · subst hne
      rw [headerLoop_of_closed hread] at hok
      cases hok
      exact ⟨[], net', rfl, .inl ⟨rfl, rfl⟩⟩
    · rw [headerLoop_of_line hread hne] at hok
      dsimp only at hok
      refine ⟨line, net', rfl, .inr ⟨hne, _, _, rfl, rfl, ?_⟩⟩
      split at hok
      · rename_i hlast
        exact .inl ⟨hlast, (Except.ok.inj hok).symm⟩
      · rename_i hlast
        split at hok
        · cases hok
        · exact .inr ⟨Bool.eq_false_iff.mpr hlast, hok⟩

/-- `getHeaders`. -/
def getHeaders (malloc : Nat → Bool) (net : Net) : Except Int Headers :=
  headerLoop malloc [] none 0 (-3) net

/-! ## `read_http_response` -/

/-- What can go wrong while the body is read. -/
inductive Fault where
  /-- `malloc` fails. -/
  | memory
  /-- `recv` was given more room than a buffer has, and wrote past it. -/
  | overrun
deriving DecidableEq, Repr

/-- How `read_http_response` ends. -/
inductive Result where
  /-- An error code; nothing is stored. -/
  | error (code : Int)
  /-- A buffer was overrun, with whatever consequences. -/
  | overrun
  /-- The bytes that `concat_socket_buffers` writes to the `allocated` bytes of the output,
  before the terminating NUL. -/
  | output (allocated : Int) (written : List Char)
deriving DecidableEq, Repr

/-- A size of a chunk, `0` where there is none. -/
def chunkSizeOf (line : List Char) : Int :=
  match strtol 16 line with
  | some v => wrap32 v
  | none => 0

/-- The line before a chunk, behind the end of the chunk before it if there was one. -/
def readChunkSize (chunk_size : Int) (net : Net) : Int × Net :=
  -- gobble up crlf
  let net := if chunk_size = 0 then (readLine (SOCKET_BUFFER_SIZE - 1) net).2 else net
  match readLine (SOCKET_BUFFER_SIZE - 1) net with
  | (none, net) => (0, net)
  | (some [], net) => (0, net)
  | (some line, net) => (chunkSizeOf line, net)

/-- The room that is offered to `recv` for the next block. -/
def nextToRead (contentLength chunk_size : Int) : Int :=
  if contentLength = -1 then
    if chunk_size < SOCKET_BUFFER_SIZE then chunk_size else SOCKET_BUFFER_SIZE
  else if contentLength > 0 ∧ contentLength < SOCKET_BUFFER_SIZE then contentLength
  else SOCKET_BUFFER_SIZE

/-- The conversion of an `int` to `size_t`. -/
def toSize (n : Int) : Nat := (n % 18446744073709551616).toNat

theorem size_readLine_le (n : Nat) (net : Net) : (readLine n net).2.size ≤ net.size := by
  induction n generalizing net with
  | zero => exact le_rfl
  | succ n ih =>
    unfold readLine
    have := Net.size_recv_le 1 net
    split <;> rename_i heq <;> rw [heq] at this
    · split
      · exact this
      · exact (ih _).trans this
    · exact this
    · exact this

theorem size_readChunkSize_le (chunk_size : Int) (net : Net) :
    (readChunkSize chunk_size net).2.size ≤ net.size := by
  unfold readChunkSize
  set net₁ := if chunk_size = 0 then (readLine (SOCKET_BUFFER_SIZE - 1) net).2 else net with hnet₁
  have h₁ : net₁.size ≤ net.size := by
    rw [hnet₁]
    split
    · exact size_readLine_le ..
    · exact le_rfl
  have h₂ := size_readLine_le (SOCKET_BUFFER_SIZE - 1) net₁
  dsimp only
  split <;> rename_i heq <;> rw [heq] at h₂ <;> exact h₂.trans h₁

/-- The size of the chunk being read, after its line was read if it is a new one. -/
def currentChunk (contentLength chunk_size : Int) (net : Net) : Int × Net :=
  if contentLength = -1 ∧ chunk_size ≤ 0 then readChunkSize chunk_size net else (chunk_size, net)

theorem size_currentChunk_le (contentLength chunk_size : Int) (net : Net) :
    (currentChunk contentLength chunk_size net).2.size ≤ net.size := by
  unfold currentChunk
  split
  · exact size_readChunkSize_le ..
  · exact le_rfl

/-- The content length once `n` bytes of content are read. -/
def lengthLeft (contentLength : Int) (n : Nat) : Int :=
  if contentLength > 0 then wrap32 (contentLength - n) else contentLength

/-- The chunk size once `n` bytes of content are read. -/
def chunkLeft (contentLength chunk_size : Int) (n : Nat) : Int :=
  if contentLength = -1 then wrap32 (chunk_size - n) else chunk_size

/-- The loop of `read_http_response` behind the buffers `bufs`: the total size and the buffers at
its end. -/
def bodyLoop (malloc : Nat → Bool) (contentLength chunk_size total_size : Int)
    (bufs : List SocketBuffer) (net : Net) : Except Fault (Int × List SocketBuffer) :=
  let chunk := currentChunk contentLength chunk_size net
  if contentLength = -1 ∧ chunk.1 = 0 then .ok (total_size, bufs)
  else if !malloc (bufs.length - 1) then .error .memory
  else
    let next := nextToRead contentLength chunk.1
    if HTTP_READ_BYTES ≠ -1 ∧ wrap32 (total_size + next) > HTTP_READ_BYTES then
      .ok (total_size, bufs ++ [.ofRead []])
    else
      match hrecv : chunk.2.recv (toSize next) with
      | (.bytes (b :: bs), net') =>
        let block := b :: bs
        if block.length > SOCKET_BUFFER_SIZE then .error .overrun
        else
          let left := lengthLeft contentLength block.length
          let chunk_size := chunkLeft left chunk.1 block.length
          let total_size := wrap32 (total_size + block.length)
          if contentLength > 0 ∧ left = 0 then .ok (total_size, bufs ++ [.ofRead block])
          else bodyLoop malloc left chunk_size total_size (bufs ++ [.ofRead block]) net'
      | _ => .ok (total_size, bufs ++ [.ofRead []])
termination_by net.size
decreasing_by
  have h₁ := Net.size_of_recv_bytes hrecv
  have h₂ : chunk.2.size ≤ net.size := size_currentChunk_le ..
  simp only [List.length_cons] at h₁
  omega

section

variable {malloc : Nat → Bool} {contentLength chunk_size total_size : Int}
variable {bufs : List SocketBuffer} {net : Net}

theorem bodyLoop_of_block {b : Char} {bs : List Char} {net' : Net}
    (hmore : ¬ (contentLength = -1 ∧ (currentChunk contentLength chunk_size net).1 = 0))
    (hmalloc : ¬ (!malloc (bufs.length - 1)) = true)
    (hrecv : (currentChunk contentLength chunk_size net).2.recv
      (toSize (nextToRead contentLength (currentChunk contentLength chunk_size net).1)) =
        (.bytes (b :: bs), net')) :
    bodyLoop malloc contentLength chunk_size total_size bufs net =
      if (b :: bs).length > SOCKET_BUFFER_SIZE then .error .overrun
      else
        let left := lengthLeft contentLength (b :: bs).length
        let total_size := wrap32 (total_size + (b :: bs).length)
        if contentLength > 0 ∧ left = 0 then .ok (total_size, bufs ++ [.ofRead (b :: bs)])
        else bodyLoop malloc left
          (chunkLeft left (currentChunk contentLength chunk_size net).1 (b :: bs).length) total_size
          (bufs ++ [.ofRead (b :: bs)]) net' := by
  rw [bodyLoop]
  dsimp only
  rw [if_neg hmore, if_neg hmalloc, if_neg fun h ↦ h.1 rfl]
  split
  · rename_i heq
    rw [hrecv] at heq
    cases heq
    rfl
  · rename_i hnone
    exact absurd hrecv (hnone b bs net')

theorem bodyLoop_of_none
    (hmore : ¬ (contentLength = -1 ∧ (currentChunk contentLength chunk_size net).1 = 0))
    (hmalloc : ¬ (!malloc (bufs.length - 1)) = true)
    (hnone : ∀ b bs net', (currentChunk contentLength chunk_size net).2.recv
      (toSize (nextToRead contentLength (currentChunk contentLength chunk_size net).1)) ≠
        (.bytes (b :: bs), net')) :
    bodyLoop malloc contentLength chunk_size total_size bufs net =
      .ok (total_size, bufs ++ [.ofRead []]) := by
  rw [bodyLoop]
  dsimp only
  rw [if_neg hmore, if_neg hmalloc, if_neg fun h ↦ h.1 rfl]
  split
  · rename_i heq
    exact absurd heq (hnone _ _ _)
  · rfl

end

/-- The end of `read_http_response`: the buffers are concatenated into the output. -/
def conclude (total_size : Int) (bufs : List SocketBuffer) : Result :=
  if total_size < 0 then .error total_size
  else .output (wrap32 (total_size + 1)) (concatSocketBuffers bufs)

/-- `read_http_response`. -/
def readHttpResponse (malloc : Nat → Bool) (net : Net) : Result :=
  match getHeaders malloc net with
  | .error code => .error code
  | .ok h =>
    if h.total_size > 0 ∧ h.contentLength ≠ 0 then
      match bodyLoop malloc h.contentLength (-1) h.total_size h.buffers h.rest with
      | .error .memory => .error UPNP_E_OUTOF_MEMORY
      | .error .overrun => .overrun
      | .ok (total_size, bufs) => conclude total_size bufs
    else conclude h.total_size h.buffers

end Upnp.Http
