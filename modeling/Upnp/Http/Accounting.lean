import Upnp.Http.Lines

/-!
# The accounts of the header buffers

`getHeaders` counts the bytes it stores in `total_size`, and the buffers know
their own sizes.  A continuation line takes two bytes off the total; it takes
them off the buffer before it as well only if that ends with CRLF.  So the two
agree exactly when every continuation line follows such a line, up to the range
of an `int`.
-/

namespace Upnp.Http

open Upnp.Lib

/-! ## The header lines of a stream -/

/-- A stream cut into lines, each short enough for a buffer. -/
def lines (bs : List Char) : List (List Char) :=
  if _hne : (cut (SOCKET_BUFFER_SIZE - 1) bs).1 = [] then []
  else (cut (SOCKET_BUFFER_SIZE - 1) bs).1 :: lines (cut (SOCKET_BUFFER_SIZE - 1) bs).2
termination_by bs.length
decreasing_by
  have hlen := congrArg List.length (cut_append (SOCKET_BUFFER_SIZE - 1) bs)
  have hpos := List.length_pos_iff.mpr _hne
  rw [List.length_append] at hlen
  omega

/-- The line ends with CRLF. -/
def crlfEnded (line : List Char) : Bool := (SocketBuffer.ofRead line).crlfEnded

/-- The lines up to the empty one that ends the headers, behind the line `prev`. -/
def headerLines : Option (List Char) → List (List Char) → List (List Char)
  | _, [] => []
  | prev, l :: ls =>
    if isLastLine (prev.all crlfEnded) l then [l] else l :: headerLines (some l) ls

/-- A continuation of a line that ends with CRLF. -/
def isFold (prev : Option (List Char)) (line : List Char) : Bool :=
  isContinuation line && prev.any crlfEnded

/-- A continuation of a line that does not end with CRLF. -/
def isMisfold (prev : Option (List Char)) (line : List Char) : Bool :=
  isContinuation line && prev.any (!crlfEnded ·)

/-- The number of lines that satisfy a test together with the line before them. -/
def countLines (test : Option (List Char) → List Char → Bool) :
    Option (List Char) → List (List Char) → Nat
  | _, [] => 0
  | prev, l :: ls => (test prev l).toNat + countLines test (some l) ls

/-- The length of the lines with the folds removed. -/
def foldedLength (ls : List (List Char)) : Int :=
  (ls.map List.length).sum - 2 * countLines isFold none ls

/-- The header lines in a stream. -/
def streamHeader (bs : List Char) : List (List Char) := headerLines none (lines bs)

/-! ## The loop over the lines -/

/-- The buffers that the loop leaves behind. -/
def foldedBuffers : Option (List Char) → List (List Char) → List SocketBuffer
  | prev, [] => (prev.map .ofRead).toList
  | prev, l :: ls => (foldPrev (prev.map .ofRead) l).toList ++ foldedBuffers (some l) ls

/-- The total size that the loop leaves behind. -/
def foldedTotal : Option (List Char) → Int → List (List Char) → Int
  | _, total_size, [] => total_size
  | prev, total_size, l :: ls =>
    foldedTotal (some l) (foldTotal (prev.map .ofRead) total_size l) ls

/-- The sum of the sizes of buffers. -/
def sizes (bufs : List SocketBuffer) : Nat := (bufs.map (·.size)).sum

@[simp] theorem sizes_nil : sizes [] = 0 := rfl

@[simp] theorem sizes_append (bufs bufs' : List SocketBuffer) :
    sizes (bufs ++ bufs') = sizes bufs + sizes bufs' := by simp [sizes]

@[simp] theorem sizes_singleton (b : SocketBuffer) : sizes [b] = b.size := by simp [sizes]

theorem lines_of_cut {bs line rest : List Char}
    (h : cut (SOCKET_BUFFER_SIZE - 1) bs = (line, rest)) :
    lines bs = if line = [] then [] else line :: lines rest := by
  rw [lines, h]
  rfl

/-- A continuation line is never the last. -/
theorem isLastLine_foldPrev (prev : Option (List Char)) (line : List Char) :
    isLastLine ((foldPrev (prev.map .ofRead) line).all (·.crlfEnded)) line =
      isLastLine (prev.all crlfEnded) line := by
  unfold foldPrev
  split
  · rename_i hc
    have hne : line.head? ≠ some '\r' := by
      intro hr
      simp [isContinuation, hr] at hc
    simp [isLastLine, hne]
  · cases prev <;> rfl

/-- The loop computes the fold over the header lines. -/
theorem headerLoop_eq {malloc : Nat → Bool} {before : List SocketBuffer}
    (prev : Option (List Char)) {total_size contentLength : Int} {net : Net} {h : Headers}
    (hok : headerLoop malloc before (prev.map .ofRead) total_size contentLength net = .ok h) :
    h.total_size = foldedTotal prev total_size (headerLines prev (lines net.received)) ∧
    (h.buffers = before ++ foldedBuffers prev (headerLines prev (lines net.received)) ∨
      h.buffers = before ++ foldedBuffers prev (headerLines prev (lines net.received)) ++
        [.ofRead []]) := by
  induction hsize : net.size using Nat.strong_induction_on generalizing before prev total_size
    contentLength net with
  | h size ih =>
    obtain ⟨line, net', hread, hcases⟩ := headerLoop_ok hok
    rw [lines_of_cut (cut_of_readLine hread)]
    rcases hcases with ⟨rfl, rfl⟩ | ⟨hne, newLine, contentLength', hnew, -, hcases⟩
    · rw [if_pos rfl]
      exact ⟨rfl, .inr rfl⟩
    rw [if_neg hne, headerLines, ← isLastLine_foldPrev, ← hnew]
    rcases hcases with ⟨hlast, rfl⟩ | ⟨hlast, hloop⟩
    · rw [hlast]
      exact ⟨rfl, .inl (by simp [foldedBuffers])⟩
    · have hlt : net'.size < size := by
        have := size_of_readLine hread
        have := List.length_pos_iff.mpr hne
        omega
      obtain ⟨htotal, hbufs⟩ := ih net'.size hlt (some line) hloop rfl
      rw [hlast]
      refine ⟨htotal, ?_⟩
      simpa [foldedBuffers] using hbufs

/-! ## The two accounts -/

theorem two_le_of_crlfEnded {line : List Char} (h : crlfEnded line) : 2 ≤ line.length := by
  simp only [crlfEnded, SocketBuffer.crlfEnded, Bool.and_eq_true] at h
  exact of_decide_eq_true h.1.1

theorem size_chopCRLF_ofRead (line : List Char) :
    (SocketBuffer.ofRead line).chopCRLF.size + (if crlfEnded line then 2 else 0) =
      line.length := by
  unfold SocketBuffer.chopCRLF
  change (if crlfEnded line then _ else _ : SocketBuffer).size + _ = _
  split
  · rename_i h
    exact Nat.sub_add_cancel (two_le_of_crlfEnded h)
  · rfl

/-- What the buffer before a line loses. -/
theorem size_foldPrev (prev : Option (List Char)) (line : List Char) :
    sizes (foldPrev (prev.map .ofRead) line).toList + 2 * (isFold prev line).toNat =
      (prev.map List.length).getD 0 := by
  unfold foldPrev isFold
  cases prev with
  | none => simp
  | some p =>
    by_cases hc : isContinuation line
    · have := size_chopCRLF_ofRead p
      by_cases he : crlfEnded p <;> simpa [hc, he] using this
    · simp [hc, SocketBuffer.ofRead]

/-- The sizes of the buffers: the lines without the folds. -/
theorem sizes_foldedBuffers (prev : Option (List Char)) (ls : List (List Char)) :
    sizes (foldedBuffers prev ls) + 2 * countLines isFold prev ls =
      (prev.map List.length).getD 0 + (ls.map List.length).sum := by
  induction ls generalizing prev with
  | nil => cases prev <;> simp [foldedBuffers, countLines, SocketBuffer.ofRead]
  | cons l ls ih =>
    have h₁ := size_foldPrev prev l
    have h₂ := ih (some l)
    simp only [foldedBuffers, countLines, sizes_append, List.map_cons, List.sum_cons,
      Option.map_some, Option.getD_some] at h₂ ⊢
    omega

/-- The total size: the lines without two bytes for each continuation, in `int` arithmetic. -/
theorem foldedTotal_dvd (prev : Option (List Char)) (total_size : Int) (ls : List (List Char)) :
    (4294967296 : Int) ∣ foldedTotal prev total_size ls -
      (total_size + (ls.map List.length).sum -
        2 * (countLines isFold prev ls + countLines isMisfold prev ls)) := by
  induction ls generalizing prev total_size with
  | nil => simp [foldedTotal, countLines]
  | cons l ls ih =>
    have h₁ := ih (some l) (foldTotal (prev.map .ofRead) total_size l)
    have h₂ : (4294967296 : Int) ∣ foldTotal (prev.map .ofRead) total_size l -
        (total_size + l.length - 2 * ((isFold prev l).toNat + (isMisfold prev l).toNat)) := by
      have hw := wrap32_dvd (total_size + l.length)
      unfold foldTotal isFold isMisfold
      cases prev with
      | none => simpa using hw
      | some p =>
        by_cases hc : isContinuation l
        · have hw' := wrap32_dvd (wrap32 (total_size + l.length) - 2)
          cases hp : crlfEnded p <;> simp [hc, hp] <;> omega
        · simpa [hc] using hw
    simp only [foldedTotal, countLines, List.map_cons, List.sum_cons, Nat.cast_add] at h₁ ⊢
    omega

theorem foldTotal_range (prev : Option SocketBuffer) (total_size : Int) (line : List Char) :
    -2147483648 ≤ foldTotal prev total_size line ∧ foldTotal prev total_size line ≤ 2147483647 := by
  unfold foldTotal
  split
  · exact wrap32_range _
  · exact wrap32_range _

theorem foldedTotal_range (prev : Option (List Char)) (total_size : Int) (ls : List (List Char))
    (h : -2147483648 ≤ total_size ∧ total_size ≤ 2147483647) :
    -2147483648 ≤ foldedTotal prev total_size ls ∧ foldedTotal prev total_size ls ≤ 2147483647 := by
  induction ls generalizing prev total_size with
  | nil => exact h
  | cons l ls ih =>
    exact ih _ _ (foldTotal_range ..)

/-- A buffer with a continuation line keeps at least the blank it begins with. -/
theorem size_foldPrev_pos {p line : List Char} (hp : isContinuation p) :
    1 ≤ sizes (foldPrev (some (.ofRead p)) line).toList := by
  have hne : p ≠ [] := by
    rintro rfl
    simp [isContinuation] at hp
  have h := size_foldPrev (some p) line
  simp only [Option.map_some, Option.getD_some] at h
  have hlen := List.length_pos_iff.mpr hne
  by_contra hlt
  have hfold : isFold (some p) line := by
    by_contra hf
    rw [Bool.eq_false_iff.mpr hf] at h
    simp only [Bool.toNat_false] at h
    omega
  have hp2 : p.length = 2 := by
    rw [hfold] at h
    simp only [Bool.toNat_true] at h
    omega
  -- a line of two bytes that ends with CRLF begins with CR
  obtain ⟨a, b, rfl⟩ := List.length_eq_two.mp hp2
  have hended : crlfEnded [a, b] := by
    simp only [isFold, Option.any_some, Bool.and_eq_true] at hfold
    exact hfold.2
  have ha : a = '\r' := by
    simp only [crlfEnded, SocketBuffer.crlfEnded, SocketBuffer.ofRead, Bool.and_eq_true] at hended
    simpa using hended.2
  simp [isContinuation, ha] at hp

/-- There are no more misplaced continuations than bytes in the buffers. -/
theorem countLines_isMisfold_le (prev : Option (List Char)) (ls : List (List Char)) :
    countLines isMisfold prev ls + (prev.any isContinuation).toNat ≤
      sizes (foldedBuffers prev ls) := by
  induction ls generalizing prev with
  | nil =>
    cases prev with
    | none => simp [countLines]
    | some p =>
      by_cases hp : isContinuation p
      · have hne : p ≠ [] := by
          rintro rfl
          simp [isContinuation] at hp
        have := List.length_pos_iff.mpr hne
        simp only [countLines, foldedBuffers, hp, Option.any_some, Bool.toNat_true, Option.map_some,
          Option.toList_some, sizes_singleton, SocketBuffer.ofRead]
        omega
      · simp [countLines, hp]
  | cons l ls ih =>
    have h₁ := ih (some l)
    have h₂ : (isMisfold prev l).toNat ≤ (isContinuation l).toNat := by
      unfold isMisfold
      cases isContinuation l <;> cases prev.any _ <;> simp
    have h₃ : (prev.any isContinuation).toNat ≤
        sizes (foldPrev (prev.map .ofRead) l).toList := by
      cases prev with
      | none => simp
      | some p =>
        by_cases hp : isContinuation p
        · simpa [hp] using size_foldPrev_pos hp
        · simp [hp]
    simp only [countLines, foldedBuffers, sizes_append, Option.any_some] at h₁ ⊢
    omega

/-! ## The output -/

/-- No buffer counts more bytes than it stores. -/
def Stored (bufs : List SocketBuffer) : Prop := ∀ b ∈ bufs, b.size ≤ b.buff.length

theorem Stored.append {bufs bufs' : List SocketBuffer} (h : Stored bufs) (h' : Stored bufs') :
    Stored (bufs ++ bufs') := fun b hb ↦ (List.mem_append.mp hb).elim (h b) (h' b)

theorem stored_ofRead (line : List Char) : Stored [.ofRead line] := by
  simp [Stored, SocketBuffer.ofRead]

theorem stored_foldedBuffers (prev : Option (List Char)) (ls : List (List Char)) :
    Stored (foldedBuffers prev ls) := by
  induction ls generalizing prev with
  | nil => cases prev <;> simp [foldedBuffers, Stored, SocketBuffer.ofRead]
  | cons l ls ih =>
    refine Stored.append ?_ (ih (some l))
    cases prev with
    | none => simp [foldPrev, Stored]
    | some p =>
      unfold foldPrev SocketBuffer.chopCRLF
      split <;> simp [Stored, SocketBuffer.ofRead]
      split <;> simp

/-- The concatenation writes as many bytes as the buffers count. -/
theorem length_concatSocketBuffers {bufs : List SocketBuffer} (h : Stored bufs) :
    (concatSocketBuffers bufs).length = sizes bufs := by
  unfold concatSocketBuffers sizes
  rw [List.length_flatMap]
  refine congrArg List.sum (List.map_congr_left fun b hb ↦ ?_)
  simpa [SocketBuffer.bytes] using h b hb

/-- One turn of the body loop, when it does not fail. -/
theorem bodyLoop_ok {malloc : Nat → Bool} {contentLength chunk_size total_size : Int}
    {bufs : List SocketBuffer} {net : Net} {r : Int × List SocketBuffer}
    (hok : bodyLoop malloc contentLength chunk_size total_size bufs net = .ok r) :
    r = (total_size, bufs) ∨ r = (total_size, bufs ++ [.ofRead []]) ∨
    ∃ block net', net'.size < net.size ∧
      (r = (wrap32 (total_size + block.length), bufs ++ [.ofRead block]) ∨
      ∃ contentLength' chunk_size', bodyLoop malloc contentLength' chunk_size'
        (wrap32 (total_size + block.length)) (bufs ++ [.ofRead block]) net' = .ok r) := by
  rw [bodyLoop] at hok
  dsimp only at hok
  split at hok
  · exact .inl (Except.ok.inj hok).symm
  split at hok
  · simp at hok
  split at hok
  · exact .inr (.inl (Except.ok.inj hok).symm)
  split at hok
  · rename_i b bs net' hrecv
    have h₁ := Net.size_of_recv_bytes hrecv
    have h₂ := size_currentChunk_le contentLength chunk_size net
    simp only [List.length_cons] at h₁
    split at hok
    · simp at hok
    refine .inr (.inr ⟨b :: bs, net', by omega, ?_⟩)
    split at hok
    · exact .inl (Except.ok.inj hok).symm
    · exact .inr ⟨_, _, hok⟩
  · exact .inr (.inl (Except.ok.inj hok).symm)

/-- The body adds the same to both accounts. -/
theorem bodyLoop_total {malloc : Nat → Bool} {contentLength chunk_size total_size : Int}
    {bufs : List SocketBuffer} {net : Net} {r : Int × List SocketBuffer}
    (hok : bodyLoop malloc contentLength chunk_size total_size bufs net = .ok r)
    (hrange : -2147483648 ≤ total_size ∧ total_size ≤ 2147483647) (hstored : Stored bufs) :
    (4294967296 : Int) ∣ r.1 - (total_size + (sizes r.2 - sizes bufs)) ∧
    (-2147483648 ≤ r.1 ∧ r.1 ≤ 2147483647) ∧ Stored r.2 ∧ sizes bufs ≤ sizes r.2 := by
  induction hsize : net.size using Nat.strong_induction_on generalizing contentLength chunk_size
    total_size bufs net with
  | h size ih =>
    rcases bodyLoop_ok hok with rfl | rfl | ⟨block, net', hlt, hr⟩
    · simpa using ⟨hrange, hstored⟩
    · refine ⟨by simp [SocketBuffer.ofRead], hrange, hstored.append (stored_ofRead _), ?_⟩
      simp
    · have hw := wrap32_dvd (total_size + block.length)
      have hst := hstored.append (stored_ofRead block)
      have hsz : sizes (bufs ++ [.ofRead block]) = sizes bufs + block.length := by
        simp [SocketBuffer.ofRead]
      rcases hr with rfl | ⟨_, _, hr⟩
      · refine ⟨?_, wrap32_range _, hst, hsz ▸ Nat.le_add_right ..⟩
        simp only [hsz]
        omega
      · obtain ⟨h₁, h₂, h₃, h₄⟩ := ih net'.size (hsize ▸ hlt) hr (wrap32_range _) hst rfl
        refine ⟨?_, h₂, h₃, by omega⟩
        omega

theorem exists_of_map_ok {ε α β : Type*} {x : Except ε α} {f : α → β} {b : β}
    (h : x.map f = .ok b) : ∃ a, x = .ok a ∧ f a = b := by
  cases x with
  | error e => simp [Except.map] at h
  | ok a => exact ⟨a, rfl, Except.ok.inj h⟩

section Results

variable {malloc : Nat → Bool} {net : Net} {h : Headers}

/-- What `getHeaders` leaves, in terms of the header lines of the stream. -/
theorem getHeaders_accounts (hok : getHeaders malloc net = .ok h) :
    (4294967296 : Int) ∣ h.total_size -
      (sizes h.buffers - 2 * countLines isMisfold none (streamHeader net.received)) ∧
    (-2147483648 ≤ h.total_size ∧ h.total_size ≤ 2147483647) ∧
    countLines isMisfold none (streamHeader net.received) ≤ sizes h.buffers ∧
    (sizes h.buffers : Int) = foldedLength (streamHeader net.received) ∧ Stored h.buffers := by
  obtain ⟨htotal, hbufs⟩ := headerLoop_eq none hok
  have hdvd := foldedTotal_dvd none 0 (streamHeader net.received)
  have hsz := sizes_foldedBuffers none (streamHeader net.received)
  have hle := countLines_isMisfold_le none (streamHeader net.received)
  have hst := stored_foldedBuffers none (streamHeader net.received)
  have hsizes : sizes h.buffers = sizes (foldedBuffers none (streamHeader net.received)) := by
    rcases hbufs with hb | hb <;> rw [hb] <;> simp [streamHeader, SocketBuffer.ofRead]
  have hstored : Stored h.buffers := by
    rcases hbufs with hb | hb <;> rw [hb]
    · exact hst
    · exact hst.append (stored_ofRead [])
  have hrange := foldedTotal_range none 0 (streamHeader net.received) (by decide)
  simp only [Option.map_none, Option.getD_none, Option.any_none, Bool.toNat_false] at hsz hle
  rw [hsizes]
  unfold foldedLength
  refine ⟨?_, htotal ▸ hrange, by omega, by omega, hstored⟩
  rw [htotal]
  change (4294967296 : Int) ∣ foldedTotal none 0 (streamHeader net.received) - _
  omega

end Results

end Upnp.Http
