import Upnp.Http.Accounting

/-!
# The reads of the body

The loop of `read_http_response` again, with every call of `recv` that it makes for the body: how
much it asks for, what it gets, and for a chunked body the size line of the chunk and what is
taken for that chunk so far.  A size that is negative as an `int` becomes a huge number of bytes.
-/

namespace Upnp.Http

open Upnp.Lib

/-! ## Sizes in hexadecimal -/

/-- The number that `strtol` finds in base 16, whatever its magnitude. -/
def hexValue (line : CString) : Option Int :=
  let (sign, t) := signOf (line.dropWhile isSpace)
  let t := skipHexPrefix 16 t
  match t with
  | [] => none
  | c :: _ => if (digitVal 16 c).isSome then some (sign * digitRun 16 0 t) else none

theorem strtol_eq_hexValue (line : CString) : strtol 16 line = (hexValue line).map clampLong := by
  dsimp only [strtol, hexValue]
  generalize signOf (line.dropWhile isSpace) = signed
  cases skipHexPrefix 16 signed.2 with
  | nil => rfl
  | cons c t =>
    dsimp only
    split
    · rfl
    · rfl

theorem chunkSizeOf_eq (line : List Char) :
    chunkSizeOf line = ((hexValue line).map fun v ↦ wrap32 (clampLong v)).getD 0 := by
  rw [chunkSizeOf, strtol_eq_hexValue]
  cases hexValue line with
  | none => rfl
  | some v => rfl

/-- What is left of a number that is not negative is not greater. -/
theorem wrap32_clampLong_le {v : Int} (h₀ : 0 ≤ v) : wrap32 (clampLong v) ≤ v := by
  have hclamp : 0 ≤ clampLong v ∧ clampLong v ≤ v := by
    rw [clampLong]
    omega
  obtain ⟨hl, hle⟩ := hclamp
  generalize clampLong v = x at hl hle
  have hrange := wrap32_range x
  have hdvd := wrap32_dvd x
  omega

/-! ## The trace -/

/-- A call of `recv` for the body. -/
structure Read where
  /-- The size line of the chunk, if the body is chunked. -/
  line : Option (List Char)
  asked : Nat
  block : List Char
  /-- The bytes taken for the chunk, with those of this call. -/
  taken : Nat
deriving DecidableEq, Repr

/-- The size line that `readChunkSize` reads. -/
def chunkLine (chunk_size : Int) (net : Net) : List Char :=
  (readLine (SOCKET_BUFFER_SIZE - 1)
    (if chunk_size = 0 then (readLine (SOCKET_BUFFER_SIZE - 1) net).2 else net)).1.getD []

theorem readChunkSize_fst (chunk_size : Int) (net : Net) :
    (readChunkSize chunk_size net).1 = chunkSizeOf (chunkLine chunk_size net) := by
  rw [readChunkSize, chunkLine]
  split
  · rename_i heq
    rw [heq]
    rfl
  · rename_i heq
    rw [heq]
    rfl
  · rename_i heq
    rw [heq]
    rfl

/-- The line of the chunk that is read, and what was taken for it before. -/
def chunkBegun (contentLength chunk_size : Int) (line : Option (List Char)) (taken : Nat) (net : Net) :
    Option (List Char) × Nat :=
  if contentLength = -1 ∧ chunk_size ≤ 0 then (some (chunkLine chunk_size net), 0)
  else (line, taken)

/-- The calls of `recv` that `bodyLoop` makes behind `n` buffers. -/
def bodyReads (malloc : Nat → Bool) (contentLength chunk_size total_size : Int) (n : Nat)
    (line : Option (List Char)) (taken : Nat) (net : Net) : List Read :=
  let chunk := currentChunk contentLength chunk_size net
  let begun := chunkBegun contentLength chunk_size line taken net
  if contentLength = -1 ∧ chunk.1 = 0 then []
  else if !malloc (n - 1) then []
  else
    let next := nextToRead contentLength chunk.1
    if HTTP_READ_BYTES ≠ -1 ∧ wrap32 (total_size + next) > HTTP_READ_BYTES then []
    else
      match hrecv : chunk.2.recv (toSize next) with
      | (.bytes (b :: bs), net') =>
        let block := b :: bs
        let read : Read := ⟨begun.1, toSize next, block, begun.2 + block.length⟩
        if block.length > SOCKET_BUFFER_SIZE then [read]
        else
          let left := lengthLeft contentLength block.length
          let chunk_size := chunkLeft left chunk.1 block.length
          let total_size := wrap32 (total_size + block.length)
          if contentLength > 0 ∧ left = 0 then [read]
          else
            read :: bodyReads malloc left chunk_size total_size (n + 1) begun.1
              (begun.2 + block.length) net'
      | _ => [⟨begun.1, toSize next, [], begun.2⟩]
termination_by net.size
decreasing_by
  have h₁ := Net.size_of_recv_bytes hrecv
  have h₂ : chunk.2.size ≤ net.size := size_currentChunk_le ..
  simp only [List.length_cons] at h₁
  omega

/-- The calls of `recv` for the body of a response. -/
def responseReads (malloc : Nat → Bool) (net : Net) : List Read :=
  match getHeaders malloc net with
  | .error _ => []
  | .ok h =>
    if h.total_size > 0 ∧ h.contentLength ≠ 0 then
      bodyReads malloc h.contentLength (-1) h.total_size h.buffers.length none 0 h.rest
    else []

/-- The buffers that are filled with the blocks. -/
def blocks (reads : List Read) : List SocketBuffer :=
  ((reads.map (·.block)).filter (· ≠ [])).map .ofRead

variable {malloc : Nat → Bool} {contentLength chunk_size total_size : Int} {net : Net}
variable {line : Option (List Char)} {taken : Nat}

/-- What is traced when a block is received. -/
theorem bodyReads_of_block {n : Nat} {b : Char} {bs : List Char} {net' : Net}
    (hmore : ¬ (contentLength = -1 ∧ (currentChunk contentLength chunk_size net).1 = 0))
    (hmalloc : ¬ (!malloc (n - 1)) = true)
    (hrecv : (currentChunk contentLength chunk_size net).2.recv
      (toSize (nextToRead contentLength (currentChunk contentLength chunk_size net).1)) =
        (.bytes (b :: bs), net')) :
    bodyReads malloc contentLength chunk_size total_size n line taken net =
      let begun := chunkBegun contentLength chunk_size line taken net
      let chunk := currentChunk contentLength chunk_size net
      let read : Read := ⟨begun.1, toSize (nextToRead contentLength chunk.1), b :: bs,
        begun.2 + (b :: bs).length⟩
      if (b :: bs).length > SOCKET_BUFFER_SIZE then [read]
      else
        let left := lengthLeft contentLength (b :: bs).length
        if contentLength > 0 ∧ left = 0 then [read]
        else
          read :: bodyReads malloc left (chunkLeft left chunk.1 (b :: bs).length)
            (wrap32 (total_size + (b :: bs).length)) (n + 1) begun.1
            (begun.2 + (b :: bs).length) net' := by
  rw [bodyReads]
  dsimp only
  rw [if_neg hmore, if_neg hmalloc, if_neg fun h ↦ h.1 rfl]
  split
  · rename_i heq
    rw [hrecv] at heq
    cases heq
    rfl
  · rename_i hnone
    exact absurd hrecv (hnone b bs net')

/-- What is traced when nothing is received. -/
theorem bodyReads_of_none {n : Nat}
    (hmore : ¬ (contentLength = -1 ∧ (currentChunk contentLength chunk_size net).1 = 0))
    (hmalloc : ¬ (!malloc (n - 1)) = true)
    (hnone : ∀ b bs net', (currentChunk contentLength chunk_size net).2.recv
      (toSize (nextToRead contentLength (currentChunk contentLength chunk_size net).1)) ≠
        (.bytes (b :: bs), net')) :
    bodyReads malloc contentLength chunk_size total_size n line taken net =
      [⟨(chunkBegun contentLength chunk_size line taken net).1,
        toSize (nextToRead contentLength (currentChunk contentLength chunk_size net).1), [],
        (chunkBegun contentLength chunk_size line taken net).2⟩] := by
  rw [bodyReads]
  dsimp only
  rw [if_neg hmore, if_neg hmalloc, if_neg fun h ↦ h.1 rfl]
  split
  · rename_i heq
    exact absurd heq (hnone _ _ _)
  · rfl

/-- The trace is that of the loop: what it reads is what the loop stores. -/
theorem bodyLoop_blocks {bufs : List SocketBuffer} {r : Int × List SocketBuffer}
    (hok : bodyLoop malloc contentLength chunk_size total_size bufs net = .ok r) :
    r.2 = bufs ++ blocks (bodyReads malloc contentLength chunk_size total_size bufs.length line taken
        net) ∨
      r.2 = bufs ++ blocks (bodyReads malloc contentLength chunk_size total_size bufs.length line
        taken net) ++ [.ofRead []] := by
  induction hsize : net.size using Nat.strong_induction_on generalizing contentLength chunk_size
    total_size bufs net line taken with
  | h size ih =>
    rw [bodyLoop] at hok
    dsimp only at hok
    split at hok
    · rename_i hlast
      rw [bodyReads]
      dsimp only
      rw [if_pos hlast]
      cases hok
      exact .inl (List.append_nil bufs).symm
    rename_i hmore
    split at hok
    · cases hok
    rename_i hmalloc
    split at hok
    · rename_i hbytes
      exact absurd rfl hbytes.1
    split at hok
    · rename_i b bs net' hrecv
      rw [bodyReads_of_block hmore hmalloc hrecv]
      dsimp only
      split at hok
      · cases hok
      rename_i hfits
      rw [if_neg hfits]
      split at hok
      · rename_i hend
        rw [if_pos hend]
        cases hok
        exact .inl rfl
      · rename_i hend
        rw [if_neg hend]
        have hlt : net'.size < size := by
          have h₁ := Net.size_of_recv_bytes hrecv
          have h₂ := size_currentChunk_le contentLength chunk_size net
          simp only [List.length_cons] at h₁
          omega
        have hnext := @ih net'.size hlt _ _ _ net'
          (chunkBegun contentLength chunk_size line taken net).1
          ((chunkBegun contentLength chunk_size line taken net).2 + (b :: bs).length) _ hok rfl
        rw [List.length_append, List.append_assoc] at hnext
        exact hnext
    · rename_i hnone
      cases hok
      right
      rw [bodyReads_of_none hmore hmalloc hnone, blocks]
      simp

/-- The loop overruns a buffer if and only if a block is longer than that. -/
theorem bodyLoop_overrun_iff {bufs : List SocketBuffer} :
    bodyLoop malloc contentLength chunk_size total_size bufs net = .error .overrun ↔
      ∃ r ∈ bodyReads malloc contentLength chunk_size total_size bufs.length line taken net,
        SOCKET_BUFFER_SIZE < r.block.length := by
  induction hsize : net.size using Nat.strong_induction_on generalizing contentLength chunk_size
    total_size bufs net line taken with
  | h size ih =>
    have hnil : ¬ ∃ r ∈ ([] : List Read), SOCKET_BUFFER_SIZE < r.block.length := by
      rintro ⟨r, hr, -⟩
      cases hr
    by_cases hmore : contentLength = -1 ∧ (currentChunk contentLength chunk_size net).1 = 0
    · rw [bodyLoop, bodyReads]
      dsimp only
      rw [if_pos hmore, if_pos hmore]
      exact iff_of_false (fun h ↦ by cases h) hnil
    by_cases hmalloc : (!malloc (bufs.length - 1)) = true
    · rw [bodyLoop, bodyReads]
      dsimp only
      rw [if_neg hmore, if_pos hmalloc, if_neg hmore, if_pos hmalloc]
      exact iff_of_false (fun h ↦ by cases h) hnil
    by_cases hblock : ∃ b bs net', (currentChunk contentLength chunk_size net).2.recv
        (toSize (nextToRead contentLength (currentChunk contentLength chunk_size net).1)) =
          (.bytes (b :: bs), net')
    · obtain ⟨b, bs, net', hrecv⟩ := hblock
      rw [bodyLoop_of_block hmore hmalloc hrecv, bodyReads_of_block hmore hmalloc hrecv]
      dsimp only
      by_cases hlong : (b :: bs).length > SOCKET_BUFFER_SIZE
      · rw [if_pos hlong, if_pos hlong]
        exact iff_of_true rfl ⟨_, List.mem_singleton_self _, hlong⟩
      rw [if_neg hlong, if_neg hlong]
      by_cases hend : contentLength > 0 ∧ lengthLeft contentLength (b :: bs).length = 0
      · rw [if_pos hend, if_pos hend]
        apply iff_of_false
        · intro h
          cases h
        · rintro ⟨r, hr, hgt⟩
          rw [List.mem_singleton.mp hr] at hgt
          exact hlong hgt
      · rw [if_neg hend, if_neg hend]
        have hlt : net'.size < size := by
          have h₁ := Net.size_of_recv_bytes hrecv
          have h₂ := size_currentChunk_le contentLength chunk_size net
          simp only [List.length_cons] at h₁
          omega
        have hnext := @ih net'.size hlt (lengthLeft contentLength (b :: bs).length)
          (chunkLeft (lengthLeft contentLength (b :: bs).length)
            (currentChunk contentLength chunk_size net).1 (b :: bs).length)
          (wrap32 (total_size + (b :: bs).length)) net'
          (chunkBegun contentLength chunk_size line taken net).1
          ((chunkBegun contentLength chunk_size line taken net).2 + (b :: bs).length)
          (bufs ++ [.ofRead (b :: bs)]) rfl
        rw [List.length_append] at hnext
        rw [hnext]
        constructor
        · rintro ⟨r, hr, hgt⟩
          exact ⟨r, List.mem_cons_of_mem _ hr, hgt⟩
        · rintro ⟨r, hr, hgt⟩
          rcases List.mem_cons.mp hr with rfl | hr
          · exact absurd hgt hlong
          · exact ⟨r, hr, hgt⟩
    · have hnone : ∀ b bs net', (currentChunk contentLength chunk_size net).2.recv
          (toSize (nextToRead contentLength (currentChunk contentLength chunk_size net).1)) ≠
            (.bytes (b :: bs), net') := fun b bs net' h ↦ hblock ⟨b, bs, net', h⟩
      rw [bodyLoop_of_none hmore hmalloc hnone, bodyReads_of_none hmore hmalloc hnone]
      apply iff_of_false
      · intro h
        cases h
      · rintro ⟨r, hr, hgt⟩
        rw [List.mem_singleton.mp hr] at hgt
        cases hgt

/-! ## What a read may do -/

/-- A read asks for something, and for no more than a buffer holds; and what is taken for a chunk is
not more than its line declares. -/
def Read.Bounded (r : Read) : Prop :=
  (1 ≤ r.asked ∧ r.asked ≤ SOCKET_BUFFER_SIZE) ∧
    ∀ l ∈ r.line, ∃ v, hexValue l = some v ∧ r.taken ≤ v

/-- The line of the chunk declares a size that is not negative, and that is not negative in the 32
bits of an `int` either. -/
def Read.Sized (r : Read) : Prop :=
  ∀ l ∈ r.line, ∃ v, hexValue l = some v ∧ 0 ≤ v ∧ 0 ≤ wrap32 (clampLong v)

/-- At the head of the loop: a chunk that is not read to its end has a line that declares enough. -/
structure Begun (contentLength chunk_size : Int) (line : Option (List Char)) (taken : Nat) : Prop where
  length_ne : contentLength ≠ 0
  length_le : contentLength ≤ intMax
  chunk : contentLength = -1 → 0 < chunk_size → chunk_size ≤ intMax ∧
    ∀ l ∈ line, ∃ v, hexValue l = some v ∧ 0 ≤ wrap32 (clampLong v) ∧ taken + chunk_size ≤ v
  unchunked : contentLength ≠ -1 → line = none

/-- The number of bytes that are asked for. -/
theorem toSize_cases (n : Int) (hl : -2147483648 ≤ n) (hu : n ≤ intMax) :
    (0 ≤ n ∧ (toSize n : Int) = n) ∨ (n < 0 ∧ SOCKET_BUFFER_SIZE < toSize n) := by
  rw [intMax] at hu
  rw [toSize, SOCKET_BUFFER_SIZE]
  omega

/-- What a turn of the loop asks for, with the chunk size `k`, is in order. -/
structure Orderly (contentLength k : Int) (line : Option (List Char)) (taken : Nat) : Prop where
  one_le : 1 ≤ nextToRead contentLength k
  le_size : nextToRead contentLength k ≤ SOCKET_BUFFER_SIZE
  chunk : contentLength = -1 → nextToRead contentLength k ≤ k ∧ k ≤ intMax
  length : 0 < contentLength → nextToRead contentLength k ≤ contentLength
  unchunked : contentLength ≠ -1 → line = none
  declared : ∀ l ∈ line, ∃ v, hexValue l = some v ∧ 0 ≤ wrap32 (clampLong v) ∧ taken + k ≤ v

theorem nextToRead_chunk (k : Int) :
    nextToRead (-1) k = if k < SOCKET_BUFFER_SIZE then k else SOCKET_BUFFER_SIZE :=
  if_pos rfl

theorem Orderly.of_chunk {k : Int} (hpos : 0 < k) (hmax : k ≤ intMax)
    (hline : ∀ l ∈ line, ∃ v, hexValue l = some v ∧ 0 ≤ wrap32 (clampLong v) ∧ taken + k ≤ v) :
    Orderly (-1) k line taken := by
  have hsize : (SOCKET_BUFFER_SIZE : Int) = 5000 := rfl
  have hbounds : 1 ≤ nextToRead (-1) k ∧ nextToRead (-1) k ≤ SOCKET_BUFFER_SIZE ∧
      nextToRead (-1) k ≤ k := by
    rw [nextToRead_chunk]
    split
    · omega
    · omega
  obtain ⟨hone, hle, hchunk⟩ := hbounds
  exact ⟨hone, hle, fun _ ↦ ⟨hchunk, hmax⟩, fun h ↦ absurd h (by decide), fun h ↦ absurd rfl h, hline⟩

theorem Orderly.of_length (hlength : contentLength ≠ -1) (k : Int) (taken : Nat) :
    Orderly contentLength k none taken := by
  have hsize : (SOCKET_BUFFER_SIZE : Int) = 5000 := rfl
  have hbounds : 1 ≤ nextToRead contentLength k ∧
      nextToRead contentLength k ≤ SOCKET_BUFFER_SIZE ∧
      (0 < contentLength → nextToRead contentLength k ≤ contentLength) := by
    rw [nextToRead, if_neg hlength]
    split
    · omega
    · omega
  obtain ⟨hone, hle, hleft⟩ := hbounds
  refine ⟨hone, hle, fun h ↦ absurd h hlength, hleft, fun _ ↦ rfl, ?_⟩
  rintro l ⟨⟩

/-- A read for a chunk whose line is not to be trusted is out of order. -/
theorem not_bounded_of_line {l : List Char} {v : Int} {r : Read} (hvalue : hexValue l = some v)
    (hbad : ¬ (0 ≤ v ∧ 0 ≤ wrap32 (clampLong v))) (hline : r.line = some l)
    (hasked : r.asked = toSize (nextToRead (-1) (wrap32 (clampLong v)))) :
    ¬ r.Bounded ∧ ¬ r.Sized := by
  constructor
  · rintro ⟨hbound, htaken⟩
    obtain ⟨v', hv', hle⟩ := htaken l hline
    rw [hvalue] at hv'
    cases hv'
    have hrange := wrap32_range (clampLong v)
    rcases toSize_cases (wrap32 (clampLong v)) hrange.1 hrange.2 with ⟨hpos, -⟩ | ⟨hneg, hbig⟩
    · exact hbad ⟨by omega, hpos⟩
    · have hsize : (SOCKET_BUFFER_SIZE : Int) = 5000 := rfl
      rw [nextToRead_chunk, if_pos (by omega)] at hasked
      omega
  · intro hs
    obtain ⟨v', hv', h₁, h₂⟩ := hs l hline
    rw [hvalue] at hv'
    cases hv'
    exact hbad ⟨h₁, h₂⟩

/-- What a turn of the loop finds: it asks for a number of bytes that is in order, or the line of the
chunk is to blame. -/
theorem turn_cases (hbegun : Begun contentLength chunk_size line taken)
    (hmore : ¬ (contentLength = -1 ∧ (currentChunk contentLength chunk_size net).1 = 0)) :
    Orderly contentLength (currentChunk contentLength chunk_size net).1
        (chunkBegun contentLength chunk_size line taken net).1
        (chunkBegun contentLength chunk_size line taken net).2 ∨
      ∀ r : Read, r.line = (chunkBegun contentLength chunk_size line taken net).1 →
        r.asked = toSize (nextToRead contentLength (currentChunk contentLength chunk_size net).1) →
          ¬ r.Bounded ∧ ¬ r.Sized := by
  by_cases hchunked : contentLength = -1
  · subst hchunked
    by_cases hnew : chunk_size ≤ 0
    · -- a new chunk, with its line
      have hchunk : (currentChunk (-1) chunk_size net).1 =
          chunkSizeOf (chunkLine chunk_size net) := by
        rw [currentChunk, if_pos ⟨rfl, hnew⟩]
        exact readChunkSize_fst chunk_size net
      have hstart : chunkBegun (-1) chunk_size line taken net =
          (some (chunkLine chunk_size net), 0) := if_pos ⟨rfl, hnew⟩
      rw [hchunk] at hmore
      rw [hstart, hchunk]
      generalize chunkLine chunk_size net = l at hmore ⊢
      have hne : chunkSizeOf l ≠ 0 := fun h ↦ hmore ⟨rfl, h⟩
      rw [chunkSizeOf_eq] at hne ⊢
      cases hvalue : hexValue l with
      | none =>
        rw [hvalue] at hne
        exact absurd rfl hne
      | some v =>
        rw [hvalue] at hne
        rw [Option.map_some, Option.getD_some] at hne ⊢
        by_cases hgood : 0 ≤ v ∧ 0 ≤ wrap32 (clampLong v)
        · left
          have hle := wrap32_clampLong_le hgood.1
          refine .of_chunk (by omega) (wrap32_range (clampLong v)).2 ?_
          rintro l' ⟨⟩
          refine ⟨v, hvalue, hgood.2, ?_⟩
          dsimp only
          omega
        · exact .inr fun r hline hasked ↦ not_bounded_of_line hvalue hgood hline hasked
    · -- the chunk goes on
      have hpos : 0 < chunk_size := by omega
      have hchunk : (currentChunk (-1) chunk_size net).1 = chunk_size := by
        rw [currentChunk, if_neg fun h ↦ hnew h.2]
      have hstart : chunkBegun (-1) chunk_size line taken net = (line, taken) :=
        if_neg fun h ↦ hnew h.2
      obtain ⟨hmax, hlines⟩ := hbegun.chunk rfl hpos
      rw [hstart, hchunk]
      exact .inl (.of_chunk hpos hmax hlines)
  · have hstart : chunkBegun contentLength chunk_size line taken net = (none, taken) := by
      rw [chunkBegun, if_neg fun h ↦ hchunked h.1, hbegun.unchunked hchunked]
    rw [hstart]
    exact .inl (.of_length hchunked _ taken)

/-- The number is not changed by its conversion. -/
theorem Orderly.asked {k : Int} (h : Orderly contentLength k line taken) :
    (toSize (nextToRead contentLength k) : Int) = nextToRead contentLength k := by
  have hone := h.one_le
  have hmax := h.le_size
  rw [SOCKET_BUFFER_SIZE] at hmax
  rw [toSize]
  omega

/-- A read of an orderly turn is in order. -/
theorem Orderly.bounded {k : Int} (h : Orderly contentLength k line taken) {m : Nat}
    (hm : (m : Int) ≤ nextToRead contentLength k) (block : List Char) :
    Read.Bounded ⟨line, toSize (nextToRead contentLength k), block, taken + m⟩ ∧
      Read.Sized ⟨line, toSize (nextToRead contentLength k), block, taken + m⟩ := by
  have hone := h.one_le
  have hmax := h.le_size
  have hasked := h.asked
  have hsome : ∀ l ∈ line, contentLength = -1 := by
    intro l hl
    by_contra hne
    rw [h.unchunked hne] at hl
    cases hl
  refine ⟨⟨⟨by dsimp only; omega, by dsimp only; omega⟩, ?_⟩, ?_⟩
  · intro l hl
    obtain ⟨v, hv, -, hle⟩ := h.declared l hl
    have := h.chunk (hsome l hl)
    exact ⟨v, hv, by dsimp only; omega⟩
  · intro l hl
    obtain ⟨v, hv, hw, hle⟩ := h.declared l hl
    have := h.chunk (hsome l hl)
    exact ⟨v, hv, by omega, hw⟩

/-- What the loop keeps when a turn is in order. -/
theorem Begun.next (hbegun : Begun contentLength chunk_size line taken) {k : Int} {n : Nat}
    {line' : Option (List Char)} {taken' : Nat}
    (hchunk : contentLength = -1 → (n : Int) ≤ k ∧ k ≤ intMax)
    (hlength : 0 < contentLength → (n : Int) ≤ contentLength)
    (hnone : contentLength ≠ -1 → line' = none)
    (hline : ∀ l ∈ line', ∃ v, hexValue l = some v ∧ 0 ≤ wrap32 (clampLong v) ∧ taken' + k ≤ v)
    (hmore : ¬ (contentLength > 0 ∧ lengthLeft contentLength n = 0)) :
    Begun (lengthLeft contentLength n) (chunkLeft (lengthLeft contentLength n) k n) line'
      (taken' + n) := by
  have hne := hbegun.length_ne
  have hle := hbegun.length_le
  have hleft : lengthLeft contentLength n = if 0 < contentLength then contentLength - n
      else contentLength := by
    rw [lengthLeft]
    split
    · rename_i hpos
      have := hlength hpos
      rw [intMax] at hle
      rw [wrap32_of_range (by omega) (by omega)]
    · rfl
  rw [hleft] at hmore ⊢
  by_cases hpos : 0 < contentLength
  · rw [if_pos hpos] at hmore ⊢
    have hn := hlength hpos
    have hzero : contentLength - n ≠ 0 := fun h ↦ hmore ⟨hpos, h⟩
    refine ⟨hzero, by omega, fun h ↦ by omega, fun _ ↦ hnone (by omega)⟩
  · rw [if_neg hpos]
    refine ⟨hne, hle, fun h _ ↦ ?_, hnone⟩
    obtain ⟨hn, hk⟩ := hchunk h
    have hrest : chunkLeft contentLength k n = k - n := by
      rw [intMax] at hk
      rw [chunkLeft, if_pos h, wrap32_of_range (by omega) (by omega)]
    rw [hrest]
    refine ⟨by omega, ?_⟩
    intro l hl
    obtain ⟨v, hv, hw, hv'⟩ := hline l hl
    exact ⟨v, hv, hw, by omega⟩

/-- All reads are in order if and only if all lines are to be trusted. -/
theorem bodyReads_bounded_iff {n : Nat} (hbegun : Begun contentLength chunk_size line taken) :
    (∀ r ∈ bodyReads malloc contentLength chunk_size total_size n line taken net, r.Bounded) ↔
      ∀ r ∈ bodyReads malloc contentLength chunk_size total_size n line taken net, r.Sized := by
  induction hsize : net.size using Nat.strong_induction_on generalizing contentLength chunk_size
    total_size n net line taken with
  | h size ih =>
    have hnil : (∀ r ∈ ([] : List Read), r.Bounded) ↔ ∀ r ∈ ([] : List Read), r.Sized := by
      constructor <;> intro _ r hr <;> cases hr
    rw [bodyReads]
    dsimp only
    split
    · exact hnil
    rename_i hmore
    split
    · exact hnil
    split
    · exact hnil
    have hcases := @turn_cases contentLength chunk_size net line taken hbegun hmore
    have hshrink := size_currentChunk_le contentLength chunk_size net
    generalize chunkBegun contentLength chunk_size line taken net = begun at hcases ⊢
    generalize currentChunk contentLength chunk_size net = chunk at hcases hshrink ⊢
    rcases hcases with horderly | hbad
    · have hasked := horderly.asked
      split
      · rename_i b bs net' hrecv
        have hlt := Net.size_of_recv_bytes hrecv
        have hblock := (Net.received_of_recv_bytes hrecv).2
        generalize hbytes : b :: bs = block at hlt hblock ⊢
        have hpos : 0 < block.length := by
          rw [← hbytes]
          exact Nat.succ_pos _
        obtain ⟨hbounded, hsized⟩ := @Orderly.bounded _ _ _ _ horderly block.length (by omega) block
        split
        · exact iff_of_true (List.forall_mem_singleton.mpr hbounded)
            (List.forall_mem_singleton.mpr hsized)
        · split
          · exact iff_of_true (List.forall_mem_singleton.mpr hbounded)
              (List.forall_mem_singleton.mpr hsized)
          · rename_i hend
            rw [List.forall_mem_cons, List.forall_mem_cons]
            refine and_congr (iff_of_true hbounded hsized) ?_
            refine @ih net'.size (by omega) _ _ _ net' _ _ _ ?_ rfl
            refine hbegun.next (fun h ↦ ?_) (fun h ↦ ?_) horderly.unchunked horderly.declared hend
            · obtain ⟨hle, hmax⟩ := horderly.chunk h
              exact ⟨by omega, hmax⟩
            · have := horderly.length h
              omega
      · have hone := horderly.one_le
        obtain ⟨hbounded, hsized⟩ := @Orderly.bounded _ _ _ _ horderly 0 (by omega) []
        exact iff_of_true (List.forall_mem_singleton.mpr hbounded)
          (List.forall_mem_singleton.mpr hsized)
    · -- the first read of the chunk is not in order, whatever comes behind it
      have hfalse : ∀ {r : Read} {rest : List Read}, r.line = begun.1 →
          r.asked = toSize (nextToRead contentLength chunk.1) →
          ((∀ r' ∈ r :: rest, r'.Bounded) ↔ ∀ r' ∈ r :: rest, r'.Sized) := by
        intro r rest hl ha
        obtain ⟨hbounded, hsized⟩ := hbad r hl ha
        refine iff_of_false ?_ ?_
        · exact fun h ↦ hbounded (h r List.mem_cons_self)
        · exact fun h ↦ hsized (h r List.mem_cons_self)
      split
      · split
        · exact hfalse rfl rfl
        · split
          · exact hfalse rfl rfl
          · exact hfalse rfl rfl
      · exact hfalse rfl rfl

/-- The length that the headers give is an `int`. -/
theorem lengthAfter_range {line : CString} (h : contentLength ≤ intMax) :
    lengthAfter contentLength line ≤ intMax := by
  have hite : ∀ {p : Prop} [Decidable p] {a b : Int}, a ≤ intMax → b ≤ intMax →
      (if p then a else b) ≤ intMax := by
    intro p _ a b ha hb
    split
    · exact ha
    · exact hb
  rw [lengthAfter]
  refine hite ?_ (hite (by decide) (hite (by decide) h))
  split
  · exact (wrap32_range _).2
  · decide

theorem headerLoop_contentLength {before : List SocketBuffer} {prev : Option SocketBuffer}
    {h : Headers} (hmax : contentLength ≤ intMax)
    (hok : headerLoop malloc before prev total_size contentLength net = .ok h) :
    h.contentLength ≤ intMax := by
  have hend : ∀ {n : Int}, n ≤ intMax → lengthAtEnd n ≤ intMax := by
    intro n hn
    rw [lengthAtEnd]
    split
    · decide
    · exact hn
  induction hsize : net.size using Nat.strong_induction_on generalizing before prev total_size
    contentLength net with
  | h size ih =>
    obtain ⟨line, net', hread, ⟨rfl, rfl⟩ | ⟨hne, newLine, contentLength', -, hlength, hcases⟩⟩ :=
      headerLoop_ok hok
    · exact hend hmax
    · have hmax' : contentLength' ≤ intMax := by
        rw [hlength]
        split
        · exact lengthAfter_range hmax
        · exact hmax
      rcases hcases with ⟨-, rfl⟩ | ⟨-, hloop⟩
      · exact hend hmax'
      · have hlt : net'.size < size := by
          have := size_of_readLine hread
          have := List.length_pos_iff.mpr hne
          omega
        exact ih net'.size hlt hmax' hloop rfl

/-- Each read for the body of a response asks for something that fits a buffer, and takes no more
for a chunk than it declares, if and only if each chunk that is read declares a size that
is not negative, in 32 bits either. -/
theorem responseReads_bounded_iff (malloc : Nat → Bool) (net : Net) :
    (∀ r ∈ responseReads malloc net, r.Bounded) ↔ ∀ r ∈ responseReads malloc net, r.Sized := by
  rw [responseReads]
  split
  · constructor <;> intro _ r hr <;> cases hr
  · rename_i h hok
    split
    · rename_i hbody
      refine bodyReads_bounded_iff ⟨hbody.2, ?_, fun _ hpos ↦ ?_, fun _ ↦ rfl⟩
      · exact headerLoop_contentLength (by decide) hok
      · exact absurd hpos (by decide)
    · constructor <;> intro _ r hr <;> cases hr

/-- A chunk of `ffffffff` bytes. -/
def hugeChunk : Net :=
  [.segment "HTTP/1.1 200 OK\r\nTransfer-Encoding: chunked\r\n\r\nffffffff\r\nx".toList]

/-- The room of a buffer is given as almost `2^64` bytes. -/
theorem hugeChunk_unbounded :
    ¬ ∀ (malloc : Nat → Bool) (net : Net), ∀ r ∈ responseReads malloc net, r.Bounded := by
  intro h
  have hread : ⟨some "ffffffff\r\n".toList, 18446744073709551615, ['x'], 1⟩ ∈
      responseReads (fun _ ↦ true) hugeChunk := by
    decide +kernel
  have hbounded := (h _ _ _ hread).1.2
  revert hbounded
  decide

end Upnp.Http
