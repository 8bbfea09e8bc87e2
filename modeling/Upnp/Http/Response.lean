import Upnp.Http.HeaderRun

/-!
# Reading a well-formed response

However a response is cut into receives, `read_http_response` stores its header
and the bytes of its body, without the framing of the chunks, as long as every
size line before a chunk fits the line buffer and the result is shorter than the
largest `int`.  A longer size line is split, and the rest of it is taken for data.
-/

namespace Upnp.Http

open Upnp.Lib

variable {malloc : Nat → Bool} {contentLength chunk_size total_size : Int}
  {bufs : List SocketBuffer} {net net' : Net} {block data rest : List Char}

@[simp] theorem concatSocketBuffers_append (bufs bufs' : List SocketBuffer) :
    concatSocketBuffers (bufs ++ bufs') = concatSocketBuffers bufs ++ concatSocketBuffers bufs' := by
  simp [concatSocketBuffers]

@[simp] theorem concatSocketBuffers_ofRead (bytes : List Char) :
    concatSocketBuffers [.ofRead bytes] = bytes := by
  simp [concatSocketBuffers, SocketBuffer.bytes, SocketBuffer.ofRead]

/-- A shorter front of a text splits it. -/
theorem exists_of_append_eq {a b c d : List Char} (h : a ++ b = c ++ d) (hle : c.length ≤ a.length) :
    ∃ e, a = c ++ e ∧ d = e ++ b := by
  rcases List.append_eq_append_iff.mp h with ⟨e, rfl, rfl⟩ | ⟨e, rfl, rfl⟩
  · have : e = [] := List.length_eq_zero_iff.mp (by simpa using hle)
    subst this
    exact ⟨[], by simp, by simp⟩
  · exact ⟨e, rfl, rfl⟩

/-! ## One turn of the body loop -/

theorem bodyLoop_block (hmalloc : ∀ i, malloc i = true) {chunk : Int × Net}
    (hchunk : currentChunk contentLength chunk_size net = chunk)
    (hmore : ¬ (contentLength = -1 ∧ chunk.1 = 0))
    (hrecv : chunk.2.recv (toSize (nextToRead contentLength chunk.1)) = (.bytes block, net'))
    (hne : block ≠ []) (hlen : block.length ≤ SOCKET_BUFFER_SIZE) :
    bodyLoop malloc contentLength chunk_size total_size bufs net =
      if contentLength > 0 ∧ lengthLeft contentLength block.length = 0 then
        .ok (wrap32 (total_size + block.length), bufs ++ [.ofRead block])
      else bodyLoop malloc (lengthLeft contentLength block.length)
        (chunkLeft (lengthLeft contentLength block.length) chunk.1 block.length)
        (wrap32 (total_size + block.length)) (bufs ++ [.ofRead block]) net' := by
  obtain ⟨b, bs, rfl⟩ := List.exists_cons_of_ne_nil hne
  subst hchunk
  have hallocated : ¬ (!malloc (bufs.length - 1)) = true := by
    rw [hmalloc]
    exact Bool.false_ne_true
  rw [bodyLoop_of_block hmore hallocated hrecv, if_neg (Nat.not_lt.mpr hlen)]

theorem bodyLoop_closed (hmalloc : ∀ i, malloc i = true)
    (hlen : contentLength ≠ -1) (hrecv : net.recv (toSize (nextToRead contentLength chunk_size)) =
      (.closed, net')) :
    bodyLoop malloc contentLength chunk_size total_size bufs net =
      .ok (total_size, bufs ++ [.ofRead []]) := by
  have hchunk : currentChunk contentLength chunk_size net = (chunk_size, net) := by
    simp [currentChunk, hlen]
  have hallocated : ¬ (!malloc (bufs.length - 1)) = true := by
    rw [hmalloc]
    exact Bool.false_ne_true
  apply bodyLoop_of_none (fun h ↦ hlen h.1) hallocated
  intro b bs net₁ heq
  rw [hchunk, hrecv] at heq
  cases heq

theorem bodyLoop_last (hchunk : (currentChunk (-1) chunk_size net).1 = 0) :
    bodyLoop malloc (-1) chunk_size total_size bufs net = .ok (total_size, bufs) := by
  rw [bodyLoop]
  simp [hchunk]

/-- The loop looks at the chunk size only to find out the current one. -/
theorem bodyLoop_congr {chunk_size' : Int}
    (h : currentChunk contentLength chunk_size net = currentChunk contentLength chunk_size' net') :
    bodyLoop malloc contentLength chunk_size total_size bufs net =
      bodyLoop malloc contentLength chunk_size' total_size bufs net' := by
  rw [bodyLoop]
  conv_rhs => rw [bodyLoop]
  rw [h]

theorem toSize_of_nonneg {k : Int} (h₀ : 0 ≤ k) (h₁ : k ≤ intMax) : (toSize k : Int) = k := by
  unfold toSize intMax at *
  omega

/-- A receive where `data` is still to come takes a front of it. -/
theorem recv_data {k : Int} (h₀ : 0 < k) (h₁ : k ≤ data.length) (h₂ : k ≤ intMax) (hq : net.Quiet)
    (hr : net.received = data ++ rest) :
    ∃ block data' net', net.recv (toSize k) = (.bytes block, net') ∧ block ≠ [] ∧
      (block.length : Int) ≤ k ∧ data = block ++ data' ∧ net'.received = data' ++ rest ∧
      net'.Quiet := by
  have hsize := toSize_of_nonneg h₀.le h₂
  have hdata : data ≠ [] := by
    rintro rfl
    simp only [List.length_nil, Nat.cast_zero] at h₁
    omega
  obtain ⟨block, net', hrecv⟩ := Net.exists_recv_bytes (n := net)
    (by rw [hr]; simp [hdata]) (toSize k)
  obtain ⟨happ, hlen⟩ := Net.received_of_recv_bytes hrecv
  have hq' := hq.recv (toSize k)
  rw [hrecv] at hq'
  obtain ⟨data', rfl, hr'⟩ := exists_of_append_eq (hr.symm.trans happ) (by omega)
  exact ⟨block, data', net', hrecv, Net.ne_nil_of_recv_bytes hrecv (by omega), by omega, rfl, hr',
    hq'⟩

/-! ## The three ways a body is framed -/

/-- A body of known length. -/
theorem bodyLoop_length (chunk_size n : Int) (bufs : List SocketBuffer)
    (hmalloc : ∀ i, malloc i = true) (hne : data ≠ [])
    (hle : (data.length : Int) ≤ intMax) (hq : net.Quiet) (hr : net.received = data ++ rest) :
    ∃ blocks, concatSocketBuffers blocks = data ∧
      bodyLoop malloc data.length chunk_size (wrap32 n) bufs net =
        .ok (wrap32 (n + data.length), bufs ++ blocks) := by
  induction hlen : data.length using Nat.strong_induction_on generalizing data net n bufs chunk_size
  with
  | h len ih =>
    subst hlen
    have hpos := List.length_pos_iff.mpr hne
    have hnext : nextToRead data.length chunk_size ≤ data.length ∧
        0 < nextToRead data.length chunk_size ∧
        nextToRead data.length chunk_size ≤ SOCKET_BUFFER_SIZE := by
      unfold nextToRead SOCKET_BUFFER_SIZE
      rw [if_neg (by omega)]
      split <;> omega
    obtain ⟨block, data', net', hrecv, hbne, hblen, rfl, hr', hq'⟩ := recv_data hnext.2.1 hnext.1
      (hnext.1.trans hle) hq hr
    have hleft : lengthLeft (block ++ data').length block.length = data'.length := by
      unfold lengthLeft intMax at *
      rw [List.length_append] at hle hpos ⊢
      rw [if_pos (by omega), wrap32_of_range (by omega) (by omega)]
      omega
    have hchunk : currentChunk (block ++ data').length chunk_size net = (chunk_size, net) := by
      unfold currentChunk
      rw [if_neg (by omega)]
    rw [bodyLoop_block hmalloc hchunk (by omega) hrecv hbne (by omega), hleft, wrap32_add]
    by_cases hdata : data' = []
    · subst hdata
      rw [if_pos ⟨by omega, rfl⟩]
      exact ⟨[.ofRead block], by simp, by simp⟩
    · have hdpos := List.length_pos_iff.mpr hdata
      have hbpos := List.length_pos_iff.mpr hbne
      rw [List.length_append] at hle
      obtain ⟨blocks, hblocks, hloop⟩ := ih data'.length (by rw [List.length_append]; omega)
        (chunkLeft data'.length chunk_size block.length) (n + block.length)
        (bufs ++ [.ofRead block]) hdata (by omega) hq' hr' rfl
      rw [if_neg (by omega), hloop]
      refine ⟨.ofRead block :: blocks, ?_, ?_⟩
      · rw [← List.singleton_append, concatSocketBuffers_append, hblocks, concatSocketBuffers_ofRead]
      · simp [Int.add_assoc]

/-- A body that ends with the connection. -/
theorem bodyLoop_untilClose (chunk_size n : Int) (bufs : List SocketBuffer)
    (hmalloc : ∀ i, malloc i = true) (hq : net.Quiet)
    (hr : net.received = data) :
    ∃ blocks, concatSocketBuffers blocks = data ∧
      bodyLoop malloc (-2) chunk_size (wrap32 n) bufs net =
        .ok (wrap32 (n + data.length), bufs ++ blocks) := by
  induction hlen : data.length using Nat.strong_induction_on generalizing data net n bufs chunk_size
  with
  | h len ih =>
    subst hlen
    have hnext : nextToRead (-2) chunk_size = SOCKET_BUFFER_SIZE := by simp [nextToRead]
    cases data with
    | nil =>
      rw [bodyLoop_closed hmalloc (by decide) (hq.recv_closed hr _)]
      exact ⟨[.ofRead []], by simp, by simp⟩
    | cons b bs =>
      obtain ⟨block, net', hrecv⟩ := Net.exists_recv_bytes (n := net) (by simp [hr])
        (toSize (nextToRead (-2) chunk_size))
      obtain ⟨happ, hblen⟩ := Net.received_of_recv_bytes hrecv
      have hq' := hq.recv (toSize (nextToRead (-2) chunk_size))
      rw [hrecv] at hq'
      rw [hnext, show toSize SOCKET_BUFFER_SIZE = SOCKET_BUFFER_SIZE from rfl] at hblen
      have hbne : block ≠ [] := Net.ne_nil_of_recv_bytes hrecv (by rw [hnext]; decide)
      have hbpos := List.length_pos_iff.mpr hbne
      rw [hr] at happ
      rw [happ, bodyLoop_block hmalloc (by simp [currentChunk]; rfl) (by simp) hrecv hbne hblen,
        if_neg (by simp), wrap32_add]
      obtain ⟨blocks, hblocks, hloop⟩ := ih net'.received.length
        (by rw [happ, List.length_append]; omega) (chunkLeft (-2) chunk_size block.length)
        (n + block.length) (bufs ++ [.ofRead block]) hq' rfl rfl
      rw [show lengthLeft (-2) block.length = -2 by simp [lengthLeft], hloop]
      refine ⟨.ofRead block :: blocks, ?_, ?_⟩
      · rw [← List.singleton_append, concatSocketBuffers_append, hblocks, concatSocketBuffers_ofRead]
      · simp [Int.add_assoc]

/-- The data of one chunk. -/
theorem bodyLoop_chunk (n : Int) (bufs : List SocketBuffer) (hmalloc : ∀ i, malloc i = true)
    (hne : data ≠ [])
    (hle : (data.length : Int) ≤ intMax) (hq : net.Quiet) (hr : net.received = data ++ rest) :
    ∃ blocks net', concatSocketBuffers blocks = data ∧ net'.Quiet ∧ net'.received = rest ∧
      bodyLoop malloc (-1) data.length (wrap32 n) bufs net =
        bodyLoop malloc (-1) 0 (wrap32 (n + data.length)) (bufs ++ blocks) net' := by
  induction hlen : data.length using Nat.strong_induction_on generalizing data net n bufs with
  | h len ih =>
    subst hlen
    have hpos := List.length_pos_iff.mpr hne
    have hnext : nextToRead (-1) data.length ≤ data.length ∧ 0 < nextToRead (-1) data.length ∧
        nextToRead (-1) data.length ≤ SOCKET_BUFFER_SIZE := by
      unfold nextToRead SOCKET_BUFFER_SIZE
      rw [if_pos rfl]
      split <;> omega
    obtain ⟨block, data', net', hrecv, hbne, hblen, rfl, hr', hq'⟩ := recv_data hnext.2.1 hnext.1
      (hnext.1.trans hle) hq hr
    have hleft : chunkLeft (-1) (block ++ data').length block.length = data'.length := by
      unfold chunkLeft intMax at *
      rw [List.length_append] at hle hpos ⊢
      rw [if_pos rfl, wrap32_of_range (by omega) (by omega)]
      omega
    have hchunk : currentChunk (-1) (block ++ data').length net =
        (((block ++ data').length : Int), net) := by
      unfold currentChunk
      rw [if_neg (by omega)]
    rw [bodyLoop_block hmalloc hchunk (by simp only; omega) hrecv hbne (by omega),
      show lengthLeft (-1) block.length = -1 by simp [lengthLeft], if_neg (by decide), hleft,
      wrap32_add]
    by_cases hdata : data' = []
    · subst hdata
      exact ⟨[.ofRead block], net', by simp, hq', by simpa using hr', by simp⟩
    · have hbpos := List.length_pos_iff.mpr hbne
      rw [List.length_append] at hle
      obtain ⟨blocks, net'', hblocks, hq'', hr'', hloop⟩ := ih data'.length
        (by rw [List.length_append]; omega) (n + block.length) (bufs ++ [.ofRead block]) hdata
        (by omega) hq' hr' rfl
      refine ⟨.ofRead block :: blocks, net'', ?_, hq'', hr'', ?_⟩
      · rw [← List.singleton_append, concatSocketBuffers_append, hblocks, concatSocketBuffers_ofRead]
      · rw [hloop]
        simp [Int.add_assoc]

/-! ## Size lines -/

theorem numeral_append (base : Nat) (ds ds' : CString) :
    numeral base (ds ++ ds') =
      ds'.foldl (fun n c ↦ n * base + (digitVal base c).getD 0) (numeral base ds) :=
  List.foldl_append ..

/-- Reading on does not make a numeral smaller. -/
theorem numeral_le_append (base : Nat) (hbase : 0 < base) (ds ds' : CString) :
    numeral base ds ≤ numeral base (ds ++ ds') := by
  rw [numeral_append]
  generalize numeral base ds = n
  induction ds' generalizing n with
  | nil => exact le_rfl
  | cons c ds' ih =>
    refine le_trans ?_ (ih _)
    change n ≤ n * base + (digitVal base c).getD 0
    have := Nat.le_mul_of_pos_right n hbase
    omega

namespace SizeLine

variable (l : SizeLine)

theorem endsNumeral_front {q : CString} (h : q <+: l.extension ++ crlf) :
    EndsNumeral 16 q := by
  intro c hc
  have hmem : (l.extension ++ crlf).head? = some c := by
    obtain ⟨r, hr⟩ := h
    cases q with
    | nil => simp at hc
    | cons d q => rw [← hr]; simpa using hc
  cases he : l.extension with
  | nil =>
    rw [he] at hmem
    obtain rfl : '\r' = c := by simpa [crlf] using hmem
    decide
  | cons d ext =>
    rw [he] at hmem
    obtain rfl : d = c := by simpa using hmem
    rcases l.extension_start d (by simp [he]) with rfl | rfl | rfl <;> decide

/-- A size line is read as its value. -/
theorem chunkSizeOf_encode (h : (l.value : Int) ≤ intMax) : chunkSizeOf l.encode = l.value := by
  have hstrtol : strtol 16 l.encode = some (clampLong l.value) := by
    have := strtol_of_digits [] (by simp) l.digits_hex
      (l.endsNumeral_front (List.prefix_refl _)) l.digits_ne
    rw [encode, List.append_assoc]
    exact this
  unfold chunkSizeOf
  rw [hstrtol]
  have hclamp : clampLong l.value = l.value := by
    unfold clampLong intMax at *
    omega
  simp only [hclamp]
  unfold intMax at h
  exact wrap32_of_range (by omega) (by omega)

/-- Any front of a last size line is read as zero. -/
theorem chunkSizeOf_front (hzero : l.value = 0) {p : CString} (hp : p <+: l.encode) (hne : p ≠ []) :
    chunkSizeOf p = 0 := by
  obtain ⟨r, hr⟩ := hp
  obtain ⟨ds, q, rfl, hds, hdsne, hq, hval⟩ : ∃ ds q, p = ds ++ q ∧ IsDigits 16 ds ∧ ds ≠ [] ∧
      EndsNumeral 16 q ∧ numeral 16 ds = 0 := by
    unfold encode at hr
    rw [List.append_assoc] at hr
    rcases List.append_eq_append_iff.mp hr with ⟨e, hpe, -⟩ | ⟨e, hpe, he⟩
    · refine ⟨p, [], by simp, fun c hc ↦ l.digits_hex c (by simp [hpe, hc]), hne, by simp [EndsNumeral],
        ?_⟩
      have := numeral_le_append 16 (by decide) p e
      rw [← hpe] at this
      exact Nat.le_zero.mp (this.trans hzero.le)
    · exact ⟨l.digits, e, hpe, l.digits_hex, l.digits_ne,
        l.endsNumeral_front ⟨r, he.symm⟩, hzero⟩
  have hstrtol := strtol_of_digits [] (by simp) hds hq hdsne
  rw [List.nil_append, hval] at hstrtol
  simp only [chunkSizeOf, hstrtol]
  decide

theorem encode_eq : l.encode = l.digits ++ l.extension ++ ['\r'] ++ ['\n'] := by
  simp [encode, crlf]

theorem lf_notMem : '\n' ∉ l.digits ++ l.extension ++ ['\r'] := by
  have : '\n' ∉ l.digits := fun h ↦ absurd (l.digits_hex _ h) (by decide)
  simp [this, l.extension_line]

end SizeLine

/-- A piece of a line is a front of it. -/
theorem cut_prefix_of_line {line : List Char} (hline : '\n' ∉ line) (k : Nat) :
    (cut k (line ++ '\n' :: rest)).1 <+: line ++ ['\n'] := by
  induction line generalizing k with
  | nil => cases k <;> simp [cut]
  | cons c line ih =>
    rw [List.mem_cons, not_or] at hline
    have hc : c ≠ '\n' := fun h ↦ hline.1 h.symm
    cases k with
    | zero => simp [cut]
    | succ k => simpa [cut, hc, List.cons_prefix_cons] using ih hline.2 k

/-- The end of the chunk before, for a reader that is behind one. -/
def chunkEnd (chunk_size : Int) : List Char := if chunk_size = 0 then crlf else []

/-- Behind the end of the last chunk there is a size line. -/
theorem readChunkSize_skip (hq : net.Quiet)
    (hr : net.received = chunkEnd chunk_size ++ rest) :
    ∃ net', net'.Quiet ∧ net'.received = rest ∧
      readChunkSize chunk_size net = readChunkSize (-1) net' := by
  unfold chunkEnd at hr
  by_cases hc : chunk_size = 0
  · rw [if_pos hc] at hr
    obtain ⟨net', hread, hr', hq'⟩ := readLine_text [] rest (by simp) (by decide) hq hr
    refine ⟨net', hq', hr', ?_⟩
    have h₀ : ¬ (-1 : Int) = 0 := by decide
    simp only [readChunkSize, hc, h₀, if_true, if_false, hread]
  · rw [if_neg hc] at hr
    exact ⟨net, hq, hr, by simp [readChunkSize, hc]⟩

/-- The line before a chunk is read. -/
theorem readChunkSize_line {l : SizeLine} (hfits : l.encode.length < SOCKET_BUFFER_SIZE)
    (hle : (l.value : Int) ≤ intMax) (hq : net.Quiet)
    (hr : net.received = chunkEnd chunk_size ++ (l.encode ++ rest)) :
    ∃ net', net'.Quiet ∧ net'.received = rest ∧
      readChunkSize chunk_size net = ((l.value : Int), net') := by
  obtain ⟨net₁, hq₁, hr₁, hskip⟩ := readChunkSize_skip hq hr
  have hline : '\n' ∉ l.digits ++ l.extension := fun h ↦ l.lf_notMem (List.mem_append_left _ h)
  obtain ⟨net', hread, hr', hq'⟩ := readLine_text (l.digits ++ l.extension) rest hline
    (by rw [SizeLine.encode, List.length_append] at hfits; exact hfits) hq₁ hr₁
  refine ⟨net', hq', hr', ?_⟩
  rw [hskip]
  change readLine _ _ = (some l.encode, net') at hread
  have hne : l.encode ≠ [] := by simp [SizeLine.encode, l.digits_ne]
  have h₀ : ¬ (-1 : Int) = 0 := by decide
  unfold readChunkSize
  simp only [h₀, if_false, hread]
  obtain ⟨c, cs, hcs⟩ := List.exists_cons_of_ne_nil hne
  rw [hcs]
  change (chunkSizeOf (c :: cs), net') = _
  rw [← hcs, l.chunkSizeOf_encode hle]

/-- The last size line, or what is read of it, gives zero. -/
theorem readChunkSize_last {l : SizeLine} (hzero : l.value = 0) (hq : net.Quiet)
    (hr : net.received = chunkEnd chunk_size ++ (l.encode ++ rest)) :
    (readChunkSize chunk_size net).1 = 0 := by
  obtain ⟨net₁, hq₁, hr₁, hskip⟩ := readChunkSize_skip hq hr
  obtain ⟨net', hread, -, -⟩ := readLine_quiet hq₁ (SOCKET_BUFFER_SIZE - 1)
  have hpre : (cut (SOCKET_BUFFER_SIZE - 1) net₁.received).1 <+: l.encode := by
    rw [hr₁, l.encode_eq, List.append_assoc]
    exact cut_prefix_of_line l.lf_notMem _
  have h₀ : ¬ (-1 : Int) = 0 := by decide
  rw [hskip]
  unfold readChunkSize
  simp only [h₀, if_false, hread]
  split
  · rfl
  · rfl
  · rename_i hne heq
    rw [Prod.mk.injEq, Option.some.injEq] at heq
    rw [heq.1] at hpre
    exact l.chunkSizeOf_front hzero hpre hne

/-- A body in chunks. -/
theorem bodyLoop_chunks (chunk_size n : Int) (bufs : List SocketBuffer)
    (hmalloc : ∀ i, malloc i = true) {chunks : List Chunk}
    (hfit : ∀ c ∈ chunks, c.line.encode.length < SOCKET_BUFFER_SIZE) {last : SizeLine}
    (hzero : last.value = 0) (hc : chunk_size ≤ 0) (hq : net.Quiet)
    (hr : net.received =
      chunkEnd chunk_size ++ (chunks.flatMap (·.encode) ++ (last.encode ++ rest))) :
    ∃ blocks, concatSocketBuffers blocks = chunks.flatMap (·.data) ∧
      bodyLoop malloc (-1) chunk_size (wrap32 n) bufs net =
        .ok (wrap32 (n + (chunks.flatMap (·.data)).length), bufs ++ blocks) := by
  have hcur : ∀ net, currentChunk (-1) chunk_size net = readChunkSize chunk_size net := by
    simp [currentChunk, hc]
  induction chunks generalizing net chunk_size n bufs with
  | nil =>
    rw [bodyLoop_last (by rw [hcur]; exact readChunkSize_last hzero hq hr)]
    exact ⟨[], rfl, by simp⟩
  | cons c chunks ih =>
    have hdpos := List.length_pos_iff.mpr c.data_ne
    have hle := c.size_le
    rw [List.flatMap_cons, Chunk.encode, List.append_assoc, List.append_assoc, List.append_assoc]
      at hr
    obtain ⟨net₁, hq₁, hr₁, hread⟩ := readChunkSize_line (hfit c (by simp))
      (by rw [c.size_eq]; exact hle) hq hr
    obtain ⟨blocks₁, net₂, hblocks₁, hq₂, hr₂, hloop₁⟩ :=
      bodyLoop_chunk n bufs hmalloc c.data_ne hle hq₁ hr₁
    obtain ⟨blocks₂, hblocks₂, hloop₂⟩ := ih 0 (n + c.data.length) (bufs ++ blocks₁)
      (fun c hc ↦ hfit c (by simp [hc])) le_rfl hq₂ hr₂ (by simp [currentChunk])
    have hstart : bodyLoop malloc (-1) chunk_size (wrap32 n) bufs net =
        bodyLoop malloc (-1) c.data.length (wrap32 n) bufs net₁ := by
      apply bodyLoop_congr
      have hsame : currentChunk (-1) c.data.length net₁ = ((c.data.length : Int), net₁) := by
        unfold currentChunk
        rw [if_neg (by omega)]
      rw [hcur, hread, c.size_eq, hsame]
    refine ⟨blocks₁ ++ blocks₂, ?_, ?_⟩
    · rw [concatSocketBuffers_append, hblocks₁, hblocks₂, List.flatMap_cons]
    · rw [hstart, hloop₁, hloop₂]
      simp [Int.add_assoc]

/-! ## The whole response -/

/-- The output of a total that fits. -/
theorem conclude_wrap32 {k : Nat} (h : (k : Int) + 1 ≤ intMax) :
    conclude (wrap32 k) bufs = .output (k + 1) (concatSocketBuffers bufs) := by
  unfold intMax at h
  rw [conclude, wrap32_of_range (by omega) (by omega), if_neg (by omega),
    wrap32_of_range (by omega) (by omega)]

/-- The size that is allocated for the output is an `int`. -/
theorem allocated_le {allocated : Int} {written : List Char}
    (h : readHttpResponse malloc net = .output allocated written) : allocated ≤ intMax := by
  have hconclude : ∀ {t : Int} {bs : List SocketBuffer},
      conclude t bs = .output allocated written → allocated ≤ intMax := by
    intro t bs hc
    unfold conclude at hc
    split at hc
    · simp at hc
    · rw [← (Result.output.inj hc).1]
      exact (wrap32_range _).2
  unfold readHttpResponse at h
  split at h
  · simp at h
  · split at h
    · split at h
      · simp at h
      · simp at h
      · exact hconclude h
    · exact hconclude h

theorem concat_ofRead_texts (texts : List (List Char)) :
    concatSocketBuffers (texts.map fun t ↦ .ofRead (t ++ crlf)) = texts.flatMap (· ++ crlf) := by
  induction texts with
  | nil => rfl
  | cons t texts ih =>
    rw [List.map_cons, ← List.singleton_append, concatSocketBuffers_append, ih,
      concatSocketBuffers_ofRead, List.flatMap_cons]

/-- The header of a response is read into buffers of its lines. -/
theorem getHeaders_message (m : Message) (hmalloc : ∀ i, malloc i = true) (hq : net.Quiet)
    (hr : net.received = m.encode ++ rest) :
    ∃ bufs net', net'.Quiet ∧ net'.received = m.body.encode ++ rest ∧
      concatSocketBuffers bufs = m.header ∧
      getHeaders malloc net = .ok ⟨wrap32 m.header.length, m.body.code, bufs, net'⟩ := by
  have hr' : net.received =
      m.texts.flatMap (· ++ crlf) ++ crlf ++ (m.body.encode ++ rest) := by
    rw [hr, Message.encode, Message.header, List.append_assoc _ m.body.encode]
  obtain ⟨net', hq', hr', hloop⟩ := headerLoop_texts [] none (-3) 0 hmalloc m.plainLine hq hr' rfl
  refine ⟨m.texts.map (fun t ↦ .ofRead (t ++ crlf)) ++ [.ofRead crlf], net', hq', hr', ?_, ?_⟩
  · rw [concatSocketBuffers_append, concat_ofRead_texts, concatSocketBuffers_ofRead]
    rfl
  · have hzero : wrap32 0 = 0 := by decide
    rw [hzero] at hloop
    rw [← m.lengthAtEnd_texts]
    simpa [getHeaders, Message.header] using hloop

/-- The body of a response is read without its framing. -/
theorem bodyLoop_message (m : Message) (hfit : m.SizeLinesFit) (n : Int)
    (bufs : List SocketBuffer) (hmalloc : ∀ i, malloc i = true) (hq : net.Quiet)
    (hfollow : m.Followed rest) (hr : net.received = m.body.encode ++ rest)
    (hne : m.body.code ≠ 0) :
    ∃ blocks, concatSocketBuffers blocks = m.body.data ∧
      bodyLoop malloc m.body.code (-1) (wrap32 n) bufs net =
        .ok (wrap32 (n + m.body.data.length), bufs ++ blocks) := by
  have hann := m.announced
  unfold Message.SizeLinesFit at hfit
  unfold Message.Followed at hfollow
  cases hb : m.body with
  | contentLength data =>
    rw [hb] at hr hann hne
    refine bodyLoop_length (-1) n bufs hmalloc ?_ hann.1 hq hr
    rintro rfl
    exact hne rfl
  | chunked chunks last trailers =>
    rw [hb] at hr hann hfit
    have hr' : net.received = chunkEnd (-1) ++ (chunks.flatMap (·.encode) ++
        (last.encode ++ (trailers.flatMap (·.text ++ crlf) ++ crlf ++ rest))) := by
      simpa [Body.encode, chunkEnd] using hr
    exact bodyLoop_chunks (-1) n bufs hmalloc hfit hann.1 (by decide) hq hr'
  | untilClose data =>
    rw [hb] at hr hfollow
    obtain rfl : rest = [] := hfollow
    rw [List.append_nil] at hr
    exact bodyLoop_untilClose (-1) n bufs hmalloc hq hr

/-- `read_http_response` on a well-formed response, cut in any way: the header and the body
without its framing, exactly when they are shorter than the largest `int`, provided that the size
lines of its chunks fit the line buffer. -/
theorem readHttpResponse_output_iff (m : Message) (hfit : m.SizeLinesFit)
    (hmalloc : ∀ i, malloc i = true) (hq : net.Quiet) (hfollow : m.Followed rest)
    (hr : net.received = m.encode ++ rest) :
    readHttpResponse malloc net = .output (m.content.length + 1) m.content ↔
      (m.content.length : Int) + 1 ≤ intMax := by
  refine ⟨fun h ↦ allocated_le h, fun hle ↦ ?_⟩
  obtain ⟨bufs, net', hq', hr', hheader, hget⟩ := getHeaders_message m hmalloc hq hr
  have hlen : m.content.length = m.header.length + m.body.data.length := List.length_append
  have hpos : 0 < m.header.length := by simp [Message.header, crlf]
  have htotal : 0 < wrap32 m.header.length := by
    unfold intMax at hle
    rw [wrap32_of_range (by omega) (by omega)]
    omega
  have hconclude : ∀ blocks, concatSocketBuffers blocks = m.body.data →
      conclude (wrap32 (m.header.length + m.body.data.length)) (bufs ++ blocks) =
        .output (m.content.length + 1) m.content := by
    intro blocks hblocks
    have : conclude _ (bufs ++ blocks) = _ := conclude_wrap32 hle
    rw [concatSocketBuffers_append, hheader, hblocks, hlen, Nat.cast_add] at this
    rw [this, hlen, Nat.cast_add]
    rfl
  unfold readHttpResponse
  rw [hget]
  by_cases hcode : m.body.code = 0
  · have hdata : m.body.data = [] := by
      cases hb : m.body <;> simp_all [Body.code, Body.data]
    simp only [hcode, ne_eq, not_true, and_false, if_false]
    simpa [hdata] using hconclude [] (by simp [hdata, concatSocketBuffers])
  · obtain ⟨blocks, hblocks, hloop⟩ := bodyLoop_message m hfit m.header.length bufs hmalloc hq'
      hfollow hr' hcode
    simp only [htotal, hcode, hloop, ne_eq, not_false_eq_true, and_self, if_true]
    exact hconclude blocks hblocks

/-! ### A chunk with a size line of any length -/

/-- `Transfer-Encoding: chunked`. -/
def chunkedField : Field where
  name := transferEncodingName
  value := chunkedValue
  name_ne := by decide
  name_token := forall_mem_of_all (by decide)
  value_line := by decide
  fits := by decide

/-- The size line of a chunk of one byte, with an extension of `k + 1` bytes. -/
def extendedLine (k : Nat) : SizeLine where
  digits := ['1']
  extension := ';' :: List.replicate k 'e'
  digits_ne := by decide
  digits_hex := by decide
  extension_line := by
    rw [List.mem_cons, List.mem_replicate]
    rintro (h | ⟨-, h⟩)
    · exact absurd h (by decide)
    · exact absurd h (by decide)
  extension_start := by simp

/-- The last size line. -/
def lastLine : SizeLine where
  digits := ['0']
  extension := []
  digits_ne := by decide
  digits_hex := by decide
  extension_line := by decide
  extension_start := by simp

/-- A chunk with the one byte `x`. -/
def extendedChunk (k : Nat) : Chunk where
  line := extendedLine k
  data := ['x']
  data_ne := by decide
  size_eq := rfl
  size_le := by decide

/-- A response of one chunk. -/
def oneChunk (k : Nat) : Message where
  status := "HTTP/1.1 200 OK".toList
  fields := [chunkedField]
  body := .chunked [extendedChunk k] lastLine []
  status_http := by decide
  status_line := by decide
  status_fits := by decide
  announced := ⟨by decide, chunkedField, by simp, by decide, by decide⟩

theorem readHttpResponse_output_iff_oneChunk :
    readHttpResponse (fun _ ↦ true) [.segment (oneChunk 3).encode] =
      .output ((oneChunk 3).content.length + 1) (oneChunk 3).content := by
  refine (readHttpResponse_output_iff (oneChunk 3) ?_ (fun _ ↦ rfl) ?_ trivial
    (List.append_nil _).symm).mpr (by decide)
  · intro c hc
    rw [List.mem_singleton.mp hc]
    decide
  · simp [Net.Quiet]

/-- A line that is too long is cut where the buffer is full. -/
theorem cut_of_full {line : List Char} (hline : '\n' ∉ line) :
    cut line.length (line ++ rest) = (line, rest) := by
  induction line with
  | nil => rfl
  | cons c line ih =>
    rw [List.mem_cons, not_or] at hline
    have hc : c ≠ '\n' := fun h ↦ hline.1 h.symm
    simp [cut, hc, ih hline.2]

/-- A size line that fills the buffer before its CRLF: the CRLF is read as the data. -/
theorem readHttpResponse_oneChunk {k : Nat} (hk : k + 2 = SOCKET_BUFFER_SIZE - 1) (hq : net.Quiet)
    (hr : net.received = (oneChunk k).encode) :
    readHttpResponse (fun _ ↦ true) net =
      .output ((oneChunk k).header.length + 2) ((oneChunk k).header ++ ['\r']) := by
  obtain ⟨bufs, net₁, hq₁, hr₁, hheader, hget⟩ := getHeaders_message (oneChunk k)
    (fun _ ↦ rfl) hq (hr.trans (List.append_nil _).symm)
  have hcode : (oneChunk k).body.code = -1 := rfl
  have hheaderLen : (oneChunk k).header.length = 47 := rfl
  rw [hcode, hheaderLen] at hget
  have hline : '\n' ∉ (extendedLine k).digits ++ (extendedLine k).extension := fun h ↦
    (extendedLine k).lf_notMem (List.mem_append_left _ h)
  have hlen : ((extendedLine k).digits ++ (extendedLine k).extension).length =
      SOCKET_BUFFER_SIZE - 1 := by
    rw [← hk]
    simp only [extendedLine, List.length_append, List.length_cons, List.length_nil,
      List.length_replicate]
    omega
  have hstream : net₁.received = (extendedLine k).digits ++ (extendedLine k).extension ++
      ['\r', '\n', 'x', '\r', '\n', '0', '\r', '\n', '\r', '\n'] := by
    have hbody : (oneChunk k).body.encode = (extendedChunk k).encode ++ lastLine.encode ++ crlf := by
      change Body.encode (.chunked [extendedChunk k] lastLine []) = _
      simp [Body.encode]
    have hchunk : (extendedChunk k).encode = (extendedLine k).digits ++ (extendedLine k).extension ++
        (crlf ++ ['x'] ++ crlf) := by
      change (extendedLine k).digits ++ (extendedLine k).extension ++ crlf ++ ['x'] ++ crlf = _
      simp
    rw [hr₁, hbody, hchunk, List.append_nil, List.append_assoc, List.append_assoc]
    rfl
  have hcut : cut (SOCKET_BUFFER_SIZE - 1) net₁.received =
      ((extendedLine k).digits ++ (extendedLine k).extension,
        ['\r', '\n', 'x', '\r', '\n', '0', '\r', '\n', '\r', '\n']) := by
    rw [hstream, ← hlen]
    exact cut_of_full hline
  obtain ⟨net₂, hread, hr₂, hq₂⟩ := readLine_quiet hq₁ (SOCKET_BUFFER_SIZE - 1)
  rw [hcut] at hread hr₂
  -- the size is read from the part of the line that fits
  have hsize : chunkSizeOf ((extendedLine k).digits ++ (extendedLine k).extension) = 1 := by
    have hends := (extendedLine k).endsNumeral_front (List.prefix_append _ _)
    have := strtol_of_digits [] (by simp) (extendedLine k).digits_hex hends
      (extendedLine k).digits_ne
    rw [List.nil_append] at this
    rw [chunkSizeOf, this]
    change wrap32 (clampLong (numeral 16 ['1'])) = 1
    decide
  have hchunk : currentChunk (-1) (-1) net₁ = currentChunk (-1) (['\r'].length : Nat) net₂ := by
    have hleft : currentChunk (-1) (-1) net₁ = readChunkSize (-1) net₁ := rfl
    rw [hleft]
    unfold readChunkSize
    have h₀ : ¬ (-1 : Int) = 0 := by decide
    simp only [h₀, if_false, hread]
    change (chunkSizeOf ((extendedLine k).digits ++ (extendedLine k).extension), net₂) = _
    rw [hsize]
    rfl
  obtain ⟨blocks, net₃, hblocks, hq₃, hr₃, hloop⟩ := bodyLoop_chunk 47 bufs
    (fun _ ↦ rfl) (List.cons_ne_nil '\r' []) (by decide) hq₂ hr₂
  -- the line `x` that comes next has no size
  obtain ⟨net₄, hread₄, hr₄, hq₄⟩ := readLine_quiet hq₃ (SOCKET_BUFFER_SIZE - 1)
  obtain ⟨net₅, hread₅, -, -⟩ := readLine_quiet hq₄ (SOCKET_BUFFER_SIZE - 1)
  have hlast : (currentChunk (-1) 0 net₃).1 = 0 := by
    have hleft : currentChunk (-1) 0 net₃ = readChunkSize 0 net₃ := rfl
    rw [hr₃] at hread₄ hr₄
    rw [hr₄] at hread₅
    rw [hleft]
    unfold readChunkSize
    simp only [if_true, hread₄, hread₅]
    rfl
  unfold readHttpResponse
  rw [hget]
  have hpos : (0 : Int) < wrap32 47 := by decide
  simp only [Nat.cast_ofNat, hpos, true_and, ne_eq]
  rw [if_pos (by decide), bodyLoop_congr hchunk, hloop, bodyLoop_last hlast, hheaderLen]
  simp only [conclude, concatSocketBuffers_append, hheader, hblocks]
  rfl

/-- Where the size line does not fit the line buffer, the rest of it is taken for data. -/
theorem readHttpResponse_longLine : ¬ ∀ (m : Message) (malloc : Nat → Bool) (net : Net),
    (∀ i, malloc i = true) → net.Quiet → net.received = m.encode →
      readHttpResponse malloc net = .output (m.content.length + 1) m.content := by
  intro hall
  have hr : Net.received [.segment (oneChunk 4997).encode] = (oneChunk 4997).encode :=
    List.append_nil _
  have h := hall (oneChunk 4997) (fun _ ↦ true) [.segment (oneChunk 4997).encode] (fun _ ↦ rfl)
    (by simp [Net.Quiet]) hr
  rw [readHttpResponse_oneChunk (by decide) (by simp [Net.Quiet]) hr] at h
  have hlast := congrArg List.getLast? (Result.output.inj h).2
  rw [Message.content, List.getLast?_append, List.getLast?_append] at hlast
  exact absurd hlast (by decide)

end Upnp.Http
