import Mathlib.Tactic.Linarith
import Upnp.Lib.Machine
import Upnp.Util.XString

/-!
# Strings with a buffer stand for lists of characters

`xstring.Rep` says for which list a string stands.  An operation does to the list what it should, or
finds no memory and leaves it, on the conditions of `xstring.Op.Meets`: those under which the
defects of the operations are not reached.
-/

namespace Upnp.Util

open Upnp.Lib

/-! ## Memory -/

namespace Buf

variable {cells cells' : Buffer} {l s : CString} {n size : Nat} {i : Int}

/-- What is asked for is enough, also where the sum wraps. -/
theorem bytesFor_le (h₀ : 0 ≤ i) (h : i ≤ intMax) : i + 1 ≤ bytesFor i := by
  unfold intMax at h
  unfold bytesFor
  rcases lt_or_eq_of_le h with hlt | rfl
  · rw [wrap32_of_range (by omega) (by omega)]
    omega
  · decide

theorem holds_iff : cells.Holds l ↔ ∃ rest, cells = (l ++ ['\x00']).map some ++ rest := by
  unfold Buffer.Holds
  constructor
  · rintro ⟨rest, rfl⟩
    exact ⟨rest, rfl⟩
  · rintro ⟨rest, rfl⟩
    exact List.prefix_append _ _

/-- Memory that is got anew keeps a string for which there is room. -/
theorem holds_realloc (h : cells.Holds l) (hsize : l.length + 1 ≤ size) :
    Buffer.Holds (cells.take size ++ Buffer.alloc (size - cells.length)) l := by
  obtain ⟨rest, rfl⟩ := holds_iff.mp h
  have hlength : ((l ++ ['\x00']).map some).length = l.length + 1 := by
    rw [List.length_map, List.length_append, List.length_singleton]
  refine holds_iff.mpr ⟨rest.take (size - (l.length + 1)) ++ Buffer.alloc (size -
    ((l ++ ['\x00']).map some ++ rest).length), ?_⟩
  rw [List.take_append, List.take_of_length_le (hlength.trans_le hsize), hlength, List.append_assoc]

theorem length_realloc (cells : Buffer) (size : Nat) :
    (cells.take size ++ Buffer.alloc (size - cells.length)).length = size := by
  rw [List.length_append, List.length_take, Buffer.length_alloc]
  omega

theorem stringAt_holds (h : cells.Holds l) (hnul : '\x00' ∉ l) : stringAt cells = some l := by
  obtain ⟨rest, rfl⟩ := holds_iff.mp h
  induction l with
  | nil => rfl
  | cons c l ih =>
    rw [List.mem_cons, not_or] at hnul
    change (if c = '\x00' then some []
      else (stringAt ((l ++ ['\x00']).map some ++ rest)).map (c :: ·)) = _
    rw [if_neg (Ne.symm hnul.1), ih hnul.2 (holds_iff.mpr ⟨rest, rfl⟩)]
    rfl

/-- The string from an index on. -/
theorem string_holds (h : cells.Holds l) (hnul : '\x00' ∉ l) (h₀ : 0 ≤ i) (hi : i ≤ l.length) :
    (block cells).string i = some (l.drop i.toNat) := by
  obtain ⟨k, rfl⟩ := Int.eq_ofNat_of_zero_le h₀
  have hk : k ≤ l.length := Int.ofNat_le.mp hi
  have hdrop : Buffer.Holds (cells.drop k) (l.drop k) := by
    obtain ⟨rest, rfl⟩ := holds_iff.mp h
    refine holds_iff.mpr ⟨rest, ?_⟩
    rw [List.drop_append_of_le_length, ← List.map_drop, List.drop_append_of_le_length hk]
    rw [List.length_map, List.length_append]
    omega
  rw [string, if_neg (not_lt.mpr h₀)]
  exact stringAt_holds hdrop fun hmem ↦ hnul (List.mem_of_mem_drop hmem)

/-- A text that is written behind the start of a string, and then a NUL. -/
theorem write_holds (front s : CString) (hcells : ∃ rest, cells = front.map some ++ rest)
    (hroom : front.length + s.length + 1 ≤ cells.length) :
    ∃ cells', (block cells).write front.length s = some (block cells') ∧
      cells'.length = cells.length ∧
      ∃ cells'', (block cells').write ((front.length : Int) + s.length) ['\x00'] =
        some (block cells'') ∧ cells''.length = cells.length ∧ cells''.Holds (front ++ s) := by
  obtain ⟨rest, rfl⟩ := hcells
  rw [List.length_append, List.length_map] at hroom
  have hfront : (front.map some).length = front.length := List.length_map _
  have hwrite := @Buffer.memcpy_append s (front.map some) rest (by omega)
  rw [hfront] at hwrite
  refine ⟨front.map some ++ s.map some ++ rest.drop s.length, ?_, ?_, ?_⟩
  · rw [write, if_neg (by omega), Int.toNat_natCast, hwrite]
    rfl
  · simp only [List.length_append, List.length_map, List.length_drop]
    omega
  have hnul := @Buffer.memcpy_append ['\x00'] ((front ++ s).map some) (rest.drop s.length)
    (by rw [List.length_drop, List.length_singleton]; omega)
  rw [List.length_map, List.length_append] at hnul
  refine ⟨(front ++ s).map some ++ ['\x00'].map some ++ (rest.drop s.length).drop 1, ?_, ?_, ?_⟩
  · rw [write, if_neg (by omega), ← Nat.cast_add, Int.toNat_natCast, ← List.map_append, hnul]
    rfl
  · simp only [List.length_append, List.length_map, List.length_drop, List.length_singleton]
    omega
  · refine holds_iff.mpr ⟨(rest.drop s.length).drop 1, ?_⟩
    rw [List.map_append, List.map_append, List.map_append]

end Buf

namespace xstring

variable {x x' : xstring} {l s : CString} {grants : Grants} {i n : Int}

theorem copied_of_le (h₀ : 0 ≤ n) (h : n ≤ s.length) : copied s n = some (s.take n.toNat) :=
  if_pos ⟨h₀, h⟩

theorem length_taken (h₀ : 0 ≤ n) (hn : n ≤ s.length) :
    (s.take n.toNat).length = n.toNat ∧ ((s.take n.toNat).length : Int) = n := by
  rw [List.length_take]
  omega

theorem strlen_eq (h : (s.length : Int) ≤ intMax) : strlen s = s.length := by
  unfold intMax at h
  exact wrap32_of_range (by omega) h

/-! ## What a string stands for -/

/-- The buffer is memory with room for `bufLen` characters and a NUL. -/
def Owns (x : xstring) (cells : Buffer) : Prop :=
  x.buf = .block cells ∧ x.bufLen + 1 ≤ cells.length ∧ x.bufLen ≤ intMax

/-- A string stands for a list: the buffer has it with a NUL, within the size that was allocated. -/
structure Rep (x : xstring) (l : CString) : Prop where
  owns : ∃ cells, x.Owns cells ∧ cells.Holds l
  len : x.len = l.length
  fits : x.len ≤ x.bufLen
  nul : '\x00' ∉ l

theorem Rep.le_intMax (h : x.Rep l) : (l.length : Int) ≤ intMax := by
  obtain ⟨cells, ⟨-, -, hrange⟩, -⟩ := h.owns
  exact h.len ▸ h.fits.trans hrange

/-! ## Getting memory -/

/-- `setBufSize` does not come to the smaller size. -/
def Grows (grants : Grants) (x : xstring) (newLen : Int) : Prop :=
  newLen ≤ intMax ∧ (newLen ≤ x.bufLen ∨ grants 0 = true ∨ grants 1 = false ∨
    wrap32 (x.bufLen + DEFAULT_SIZE_INCREMENT) ≤ newLen)

/-- `setBufferSizeAssign` keeps the buffer, or gets one. -/
def Assigns (grants : Grants) (x : xstring) (newSize : Int) : Prop :=
  0 ≤ x.bufLen - newSize ∧ x.bufLen - newSize < DEFAULT_SIZE_INCREMENT ∨ grants 0 = true ∨
    newSize < DEFAULT_SIZE_INCREMENT ∧ grants 1 = true

/-- There is room for the new length, or nothing has changed. -/
theorem setBufSize_spec (h : x.Rep l) (hgrows : Grows grants x n) (hn : x.len ≤ n) :
    ∃ b x', setBufSize grants x n = some (b, x') ∧
      (b = true ∧ x'.Rep l ∧ n ≤ x'.bufLen ∨ b = false ∧ x' = x) := by
  obtain ⟨⟨cells, ⟨hbuf, hroom, hrange⟩, hholds⟩, hlen, hfits, hnul⟩ := h
  obtain ⟨hmax, hgrows⟩ := hgrows
  rw [setBufSize]
  by_cases hle : n ≤ x.bufLen
  · exact ⟨true, x, if_pos hle,
      .inl ⟨rfl, ⟨⟨cells, ⟨hbuf, hroom, hrange⟩, hholds⟩, hlen, hfits, hnul⟩, hle⟩⟩
  rw [if_neg hle]
  have hwrap := (wrap32_range (x.bufLen + DEFAULT_SIZE_INCREMENT)).2
  have hallocMax : max n (wrap32 (x.bufLen + DEFAULT_SIZE_INCREMENT)) ≤ intMax :=
    max_le hmax hwrap
  have hnonneg : 0 ≤ n := (hlen ▸ Int.natCast_nonneg l.length : 0 ≤ x.len).trans hn
  have hallocNonneg := hnonneg.trans (le_max_left n (wrap32 (x.bufLen + DEFAULT_SIZE_INCREMENT)))
  have hbytes := Buf.bytesFor_le hallocNonneg hallocMax
  by_cases hfirst : grants 0 = true
  · rw [if_pos hfirst, hbuf]
    refine ⟨true, _, rfl, .inl ⟨rfl, ⟨⟨_, ⟨rfl, ?_, hallocMax⟩, Buf.holds_realloc hholds ?_⟩, hlen,
      ?_, hnul⟩, le_max_left _ _⟩⟩
    · rw [Buf.length_realloc]
      exact hbytes
    · have hlt : x.len + 1 ≤ Buf.bytesFor (max n (wrap32 (x.bufLen + DEFAULT_SIZE_INCREMENT))) :=
        le_trans (Int.add_le_add_right (hn.trans (le_max_left _ _)) 1) hbytes
      rw [hlen] at hlt
      exact Int.ofNat_le.mp hlt
    · exact hn.trans (le_max_left _ _)
  · rw [if_neg hfirst, if_neg ?_]
    · exact ⟨false, x, rfl, .inr ⟨rfl, rfl⟩⟩
    · rintro ⟨hlt, hsecond⟩
      rcases hgrows with h | h | h | h
      · exact hle h
      · exact hfirst h
      · rw [h] at hsecond
        cases hsecond
      · exact absurd hlt (not_lt.mpr h)

/-- A buffer with room for the new size is kept or got; on the condition there is one. -/
theorem setBufferSizeAssign_spec (grants : Grants) (h : x.buf = .NULL ∨ ∃ cells, x.Owns cells)
    (h₀ : 0 ≤ n) (hn : n ≤ intMax) : ∃ b x', setBufferSizeAssign grants x n = some (b, x') ∧
      (b = true ∧ (∃ cells, x'.Owns cells) ∧ n ≤ x'.bufLen ∨ b = false ∧
        ¬ (grants 0 = true ∨ n < DEFAULT_SIZE_INCREMENT ∧ grants 1 = true) ∧
        ¬ (x.buf ≠ .NULL ∧ Assigns grants x n)) := by
  have hfree : ∃ buf, x.buf.free = some buf := by
    rcases h with h | ⟨cells, h, -, -⟩
    · exact ⟨.NULL, by rw [h]; rfl⟩
    · exact ⟨.freed, by rw [h]; rfl⟩
  obtain ⟨buf, hfree⟩ := hfree
  rw [setBufferSizeAssign, if_neg (not_lt.mpr h₀)]
  by_cases hkeep : x.buf ≠ .NULL ∧ 0 ≤ x.bufLen - n ∧ x.bufLen - n < DEFAULT_SIZE_INCREMENT
  · obtain ⟨cells, hcells⟩ := h.resolve_left hkeep.1
    exact ⟨true, x, if_pos hkeep, .inl ⟨rfl, ⟨cells, hcells⟩, by omega⟩⟩
  have hinc : DEFAULT_SIZE_INCREMENT ≤ intMax := by decide
  have hbytes := Buf.bytesFor_le (h₀.trans (le_max_left n DEFAULT_SIZE_INCREMENT)) (max_le hn hinc)
  have hbytes' := Buf.bytesFor_le h₀ hn
  dsimp only
  rw [if_neg hkeep, hfree, Option.map_some]
  by_cases hfirst : grants 0 = true
  · refine ⟨true, _, by rw [if_pos hfirst],
      .inl ⟨rfl, ⟨_, rfl, ?_, max_le hn hinc⟩, le_max_left _ _⟩⟩
    rw [Buffer.length_alloc]
    exact hbytes
  by_cases hsecond : n < DEFAULT_SIZE_INCREMENT ∧ grants 1 = true
  · refine ⟨true, _, by rw [if_neg hfirst, if_pos hsecond], .inl ⟨rfl, ⟨_, rfl, ?_, hn⟩, le_refl _⟩⟩
    rw [Buffer.length_alloc]
    exact hbytes'
  · refine ⟨false, _, by rw [if_neg hfirst, if_neg hsecond], .inr ⟨rfl, ?_, ?_⟩⟩
    · exact fun h ↦ h.elim hfirst hsecond
    · rintro ⟨hbuf, h | h⟩
      · exact hkeep ⟨hbuf, h⟩
      · exact h.elim hfirst hsecond

/-! ## Copies -/

/-- A copy of a part of a text, for which memory is got; without memory an exception is thrown. -/
theorem doCopy_spec (grants : Grants) (h : x.buf = .NULL ∨ ∃ cells, x.Owns cells)
    (hnul : '\x00' ∉ s) (h₀ : 0 ≤ n) (hn : n ≤ s.length) (hmax : n ≤ intMax) :
    ∃ v x', doCopy grants x s n = some (v, x') ∧
      (v = .void ∧ x'.Rep (s.take n.toNat) ∨ v = .OutOfMemoryException ∧
        ¬ (grants 0 = true ∨ n < DEFAULT_SIZE_INCREMENT ∧ grants 1 = true) ∧
        ¬ (x.buf ≠ .NULL ∧ Assigns grants x n)) := by
  obtain ⟨b, x₁, hset, hb⟩ := setBufferSizeAssign_spec grants h h₀ hmax
  rw [doCopy, hset]
  rcases hb with ⟨rfl, ⟨cells, hbuf, hroom, hrange⟩, hfits⟩ | ⟨rfl, hb⟩
  · obtain ⟨hlength, hcast⟩ := length_taken h₀ hn
    have hfront : ∃ rest, cells = ([] : CString).map some ++ rest := ⟨cells, rfl⟩
    have hfit : ([] : CString).length + (s.take n.toNat).length + 1 ≤ cells.length := by
      rw [List.length_nil, hlength]
      omega
    obtain ⟨cells₁, hwrite, -, cells₂, hwrite', hlength', hholds⟩ :=
      Buf.write_holds [] (s.take n.toNat) hfront hfit
    rw [List.length_nil, Nat.cast_zero, zero_add, hcast] at hwrite'
    refine ⟨.void, { x₁ with buf := .block cells₂, len := n }, ?_, .inl ⟨rfl, ?_⟩⟩
    · change (copied s n).bind _ = _
      rw [copied_of_le h₀ hn, Option.bind_some, hbuf]
      change ((Buf.block cells).write 0 (s.take n.toNat)).bind _ = _
      rw [show (Buf.block cells).write 0 (s.take n.toNat) = some (.block cells₁) from hwrite,
        Option.bind_some]
      change ((Buf.block cells₁).write n ['\x00']).bind _ = _
      rw [hwrite']
      rfl
    · refine ⟨⟨cells₂, ⟨rfl, ?_, hrange⟩, hholds⟩, hcast.symm, hfits,
        fun hmem ↦ hnul (List.mem_of_mem_take hmem)⟩
      rw [hlength']
      exact hroom
  · exact ⟨.OutOfMemoryException, x₁, rfl, .inr ⟨rfl, hb⟩⟩

/-- A copy into a string, on the condition of `Assigns`. -/
theorem Rep.doCopy (h : x.Rep l) (hnul : '\x00' ∉ s) (h₀ : 0 ≤ n) (hn : n ≤ s.length)
    (hmax : n ≤ intMax) (hassigns : Assigns grants x n) :
    ∃ x', doCopy grants x s n = some (.void, x') ∧ x'.Rep (s.take n.toNat) := by
  obtain ⟨⟨cells, howns, -⟩, -⟩ := h
  obtain ⟨v, x', hcopy, ⟨rfl, hrep⟩ | ⟨-, -, hnot⟩⟩ :=
    doCopy_spec grants (.inr ⟨cells, howns⟩) hnul h₀ hn hmax
  · exact ⟨x', hcopy, hrep⟩
  · refine absurd ⟨?_, hassigns⟩ hnot
    rw [howns.1]
    exact fun heq ↦ nomatch heq

/-- The empty string of `xstring()` and `detach`. -/
theorem doCopy_empty (grants : Grants) :
    ∃ v x', doCopy grants ⟨.NULL, 0, 0⟩ [] 0 = some (v, x') ∧
      (v = .void ∧ x'.Rep [] ∨ v = .OutOfMemoryException ∧
        ¬ (grants 0 = true ∨ grants 1 = true)) := by
  obtain ⟨v, x', hcopy, hv⟩ := doCopy_spec (x := ⟨.NULL, 0, 0⟩) (s := []) (n := 0) grants
    (.inl rfl) List.not_mem_nil (Int.le_refl 0) (Int.le_refl 0) (by decide)
  refine ⟨v, x', hcopy, hv.imp_right fun hv ↦ ⟨hv.1, fun h ↦ hv.2.1 ?_⟩⟩
  exact h.imp_right fun h ↦ ⟨by decide, h⟩

/-! ## Additions -/

/-- A part of a text is added, or there is no memory and nothing changes. -/
theorem Rep.doAdd (h : x.Rep l) (hnul : '\x00' ∉ s) (h₀ : 0 ≤ n) (hn : n ≤ s.length)
    (hgrows : Grows grants x (l.length + n)) :
    ∃ v x', doAdd grants x s n = some (v, x') ∧
      (v = .void ∧ x'.Rep (l ++ s.take n.toNat) ∨ v = .OutOfMemoryException ∧ x' = x) := by
  have hmax := hgrows.1
  have hwrap : wrap32 (x.len + n) = l.length + n := by
    rw [h.len]
    unfold intMax at hmax
    exact wrap32_of_range (by omega) hmax
  obtain ⟨b, x₁, hset, hb⟩ := setBufSize_spec h hgrows (by rw [h.len]; omega)
  rw [xstring.doAdd, hwrap, hset]
  rcases hb with ⟨rfl, hrep, hfits⟩ | ⟨rfl, rfl⟩
  · obtain ⟨⟨cells, ⟨hbuf, hroom, hrange⟩, hholds⟩, hlen, -, hnulL⟩ := hrep
    obtain ⟨hlength, hcast⟩ := length_taken h₀ hn
    obtain ⟨rest, hcells⟩ := Buf.holds_iff.mp hholds
    have hfront : ∃ rest, cells = l.map some ++ rest := by
      refine ⟨['\x00'].map some ++ rest, ?_⟩
      rw [hcells, List.map_append, List.append_assoc]
    have hfit : l.length + (s.take n.toNat).length + 1 ≤ cells.length := by
      rw [hlength]
      omega
    obtain ⟨cells₁, hwrite, -, cells₂, hwrite', hlength', hholds'⟩ :=
      Buf.write_holds l (s.take n.toNat) hfront hfit
    rw [hcast] at hwrite'
    refine ⟨.void, { x₁ with buf := .block cells₂, len := l.length + n }, ?_, .inl ⟨rfl, ?_⟩⟩
    · change ((copied s n).bind fun bytes ↦ (x₁.buf.write x₁.len bytes).bind fun buf ↦
        (buf.write (wrap32 (x₁.len + n)) ['\x00']).bind fun buf ↦
          some (Value.void, { x₁ with buf := buf, len := wrap32 (x₁.len + n) })) = _
      rw [h.len] at hwrap
      rw [copied_of_le h₀ hn, Option.bind_some, hbuf, hlen, hwrap, hwrite, Option.bind_some,
        hwrite']
      rfl
    · refine ⟨⟨cells₂, ⟨rfl, ?_, hrange⟩, hholds'⟩, ?_, hfits, ?_⟩
      · rw [hlength']
        exact hroom
      · rw [List.length_append, Nat.cast_add, hcast]
      · rw [List.mem_append, not_or]
        exact ⟨hnulL, fun hmem ↦ hnul (List.mem_of_mem_take hmem)⟩
  · exact ⟨.OutOfMemoryException, x₁, rfl, .inr ⟨rfl, rfl⟩⟩

/-! ## Insertions and deletions -/

/-- The text behind an index, with the NUL. -/
def behind (l : CString) (k : Nat) : Buffer := (l.drop k ++ ['\x00']).map some

theorem length_behind (l : CString) (k : Nat) : (behind l k).length = l.length - k + 1 := by
  rw [behind, List.length_map, List.length_append, List.length_drop, List.length_singleton]

theorem length_cut {k : Nat} (hk : k ≤ l.length) : ((l.take k).map some).length = k := by
  rw [List.length_map, List.length_take, min_eq_left hk]

/-- The text is cut at an index. -/
theorem holds_split {cells : Buffer} (h : cells.Holds l) (k : Nat) :
    ∃ rest, cells = (l.take k).map some ++ (behind l k ++ rest) := by
  obtain ⟨rest, rfl⟩ := Buf.holds_iff.mp h
  refine ⟨rest, ?_⟩
  rw [behind, ← List.append_assoc, ← List.map_append, ← List.append_assoc, List.take_append_drop]

/-- The text behind an index is moved, and another comes before it. -/
theorem insertCells {cells : Buffer} {k : Nat} (h : cells.Holds l) (hk : k ≤ l.length)
    (hroom : l.length + s.length + 1 ≤ cells.length) :
    ∃ cells₁, (Buf.block cells).memmove (k + s.length) k (l.length - k + 1) =
        some (.block cells₁) ∧
      ∃ cells₂, (Buf.block cells₁).write k s = some (.block cells₂) ∧
        cells₂.length = cells.length ∧ cells₂.Holds (l.take k ++ s ++ l.drop k) := by
  obtain ⟨rest, hcells⟩ := holds_split h k
  have hA := length_cut hk
  have hB := length_behind l k
  rw [hcells, List.length_append, List.length_append, hA, hB] at hroom
  refine ⟨(l.take k).map some ++ ((behind l k ++ rest).take s.length ++ behind l k ++
    (behind l k ++ rest).drop (s.length + (behind l k).length)), ?_, ?_⟩
  · rw [Buf.memmove, if_pos ?_]
    · have hdst : ((k : Int) + s.length).toNat = k + s.length := by omega
      have hn : ((l.length : Int) - k + 1).toNat = (behind l k).length := by omega
      have hend : ((k : Int) + s.length + (l.length - k + 1)).toNat =
          k + (s.length + (behind l k).length) := by omega
      rw [hdst, hn, hend, Int.toNat_natCast, hcells, List.take_append, hA,
        List.take_of_length_le (by rw [hA]; omega), Nat.add_sub_cancel_left, List.drop_left' hA,
        List.take_left, ← List.drop_drop, List.drop_left' hA]
      simp only [List.append_assoc]
    · rw [hcells, List.length_append, List.length_append, hA, hB]
      omega
  · have htake : ((behind l k ++ rest).take s.length).length = s.length := by
      rw [List.length_take, List.length_append, hB]
      omega
    have hwrite := @Buffer.memcpy_append s ((l.take k).map some)
      ((behind l k ++ rest).take s.length ++ behind l k ++
        (behind l k ++ rest).drop (s.length + (behind l k).length)) (by
          rw [List.length_append, List.length_append, htake]
          omega)
    rw [hA, List.append_assoc ((behind l k ++ rest).take s.length)] at hwrite
    have hdrop : ((behind l k ++ rest).take s.length ++ (behind l k ++
        (behind l k ++ rest).drop (s.length + (behind l k).length))).drop s.length =
        behind l k ++ (behind l k ++ rest).drop (s.length + (behind l k).length) :=
      List.drop_left' htake
    rw [hdrop] at hwrite
    refine ⟨(l.take k).map some ++ s.map some ++ (behind l k ++
      (behind l k ++ rest).drop (s.length + (behind l k).length)), ?_, ?_, Buf.holds_iff.mpr
      ⟨(behind l k ++ rest).drop (s.length + (behind l k).length), ?_⟩⟩
    · rw [Buf.write, if_neg (by omega), Int.toNat_natCast, List.append_assoc, hwrite]
      rfl
    · rw [hcells]
      simp only [List.length_append, List.length_drop, hA, hB, List.length_map]
      omega
    · simp only [behind, List.map_append, List.append_assoc]

theorem Rep.insert (h : x.Rep l) (hnul : '\x00' ∉ s) (hs : (s.length : Int) ≤ intMax) (h₀ : 0 ≤ i)
    (hi : i ≤ l.length) (hgrows : Grows grants x (l.length + s.length)) :
    ∃ v x', insert grants x s i = some (v, x') ∧
      (v = .void ∧ x'.Rep (l.take i.toNat ++ s ++ l.drop i.toNat) ∨
        v = .OutOfMemoryException ∧ x' = x) := by
  obtain ⟨k, rfl⟩ := Int.eq_ofNat_of_zero_le h₀
  have hk : k ≤ l.length := Int.ofNat_le.mp hi
  have hmax := hgrows.1
  have hbounds : ¬ ((k : Int) < 0 ∨ x.len < k) := by
    rw [h.len]
    omega
  rw [xstring.insert, if_neg hbounds, strlen_eq hs]
  dsimp only
  by_cases hempty : s = []
  · subst hempty
    rw [if_pos (by simp)]
    refine ⟨.void, x, rfl, .inl ⟨rfl, ?_⟩⟩
    rw [Int.toNat_natCast, List.append_nil, List.take_append_drop]
    exact h
  have hpos : ¬ (s.length : Int) ≤ 0 := by
    have hpos := List.length_pos_of_ne_nil hempty
    omega
  have hwrap : wrap32 (x.len + s.length) = l.length + s.length := by
    rw [h.len]
    unfold intMax at hmax
    exact wrap32_of_range (by omega) hmax
  obtain ⟨b, x₁, hset, hb⟩ := setBufSize_spec h hgrows (by rw [h.len]; omega)
  rw [if_neg hpos, hwrap, hset]
  rcases hb with ⟨rfl, hrep, hfits⟩ | ⟨rfl, rfl⟩
  · obtain ⟨⟨cells, ⟨hbuf, hroom, hrange⟩, hholds⟩, hlen, -, hnulL⟩ := hrep
    obtain ⟨cells₁, hmove, cells₂, hwrite, hlength, hholds'⟩ :=
      insertCells hholds hk (s := s) (by omega)
    refine ⟨.void, { x₁ with buf := .block cells₂, len := l.length + s.length }, ?_,
      .inl ⟨rfl, ?_⟩⟩
    · change ((x₁.buf.memmove (k + s.length) k (x₁.len - k + 1)).bind fun buf ↦
        (copied s s.length).bind fun bytes ↦ (buf.write k bytes).bind fun buf ↦
          some (Value.void, { x₁ with buf := buf, len := l.length + s.length })) = _
      rw [hbuf, hlen, hmove, Option.bind_some,
        copied_of_le (Int.natCast_nonneg _) (le_refl _), Option.bind_some, Int.toNat_natCast,
        List.take_length, hwrite]
      rfl
    · refine ⟨⟨cells₂, ⟨rfl, ?_, hrange⟩, hholds'⟩, ?_, hfits, ?_⟩
      · rw [hlength]
        exact hroom
      · simp only [Int.toNat_natCast, List.length_append, List.length_take, List.length_drop]
        omega
      · intro hmem
        simp only [List.mem_append] at hmem
        rcases hmem with (hmem | hmem) | hmem
        · exact hnulL (List.mem_of_mem_take hmem)
        · exact hnul hmem
        · exact hnulL (List.mem_of_mem_drop hmem)
  · exact ⟨.OutOfMemoryException, x₁, rfl, .inr ⟨rfl, rfl⟩⟩

/-- The text behind a gap is copied to the gap. -/
theorem deleteCells {cells : Buffer} {j k : Nat} (h : cells.Holds l) (hk : j + k ≤ l.length)
    (hgap : l.length - j - k < k) :
    ∃ cells₁, (Buf.block cells).memcpy j (j + k) (l.length - j - k + 1) = some (.block cells₁) ∧
      cells₁.length = cells.length ∧ cells₁.Holds (l.take j ++ l.drop (j + k)) := by
  obtain ⟨rest, hcells⟩ := holds_split h (j + k)
  have hA := length_cut hk
  have hB := length_behind l (j + k)
  have hlength : cells.length = j + k + ((behind l (j + k)).length + rest.length) := by
    rw [hcells, List.length_append, List.length_append, hA]
  refine ⟨(l.take j).map some ++ behind l (j + k) ++ cells.drop (j + (behind l (j + k)).length), ?_,
    ?_, Buf.holds_iff.mpr ⟨cells.drop (j + (behind l (j + k)).length), ?_⟩⟩
  · rw [Buf.memcpy, if_pos (.inl (by omega)), Buf.memmove, if_pos (by omega)]
    have hsrc : ((j : Int) + k).toNat = j + k := by omega
    have hn : ((l.length : Int) - j - k + 1).toNat = (behind l (j + k)).length := by omega
    have hend : ((j : Int) + (l.length - j - k + 1)).toNat = j + (behind l (j + k)).length := by
      omega
    have htake : cells.take j = (l.take j).map some := by
      rw [hcells, List.take_append_of_le_length (by rw [hA]; omega), ← List.map_take,
        List.take_take, min_eq_left (Nat.le_add_right j k)]
    have hdrop : (cells.drop (j + k)).take (behind l (j + k)).length = behind l (j + k) := by
      rw [hcells, List.drop_left' hA, List.take_left]
    rw [hsrc, hn, hend, Int.toNat_natCast, htake, hdrop]
  · rw [List.length_append, List.length_append, length_cut (by omega), List.length_drop]
    omega
  · simp only [behind, List.map_append, List.append_assoc]

/-- The buffer is cut to what is needed, if there is much more. -/
theorem Rep.trimBuffer (grants : Grants) (h : x.Rep l)
    (htrims : x.bufLen - x.len ≤ DEFAULT_SIZE_INCREMENT ∨ grants 0 = true) :
    ∃ x', trimBuffer grants x = some (true, x') ∧ x'.Rep l := by
  by_cases hle : x.bufLen - x.len ≤ DEFAULT_SIZE_INCREMENT
  · exact ⟨x, if_pos hle, h⟩
  obtain ⟨⟨cells, ⟨hbuf, hroom, hrange⟩, hholds⟩, hlen, hfits, hnul⟩ := h
  have hinc : DEFAULT_SIZE_INCREMENT = 5 := rfl
  rw [hinc] at hle
  have hbytes : x.len + 5 + 1 ≤ Buf.bytesFor (x.len + 5) := Buf.bytesFor_le (by omega) (by omega)
  rw [xstring.trimBuffer, hinc, if_neg hle]
  dsimp only
  rw [if_pos (htrims.resolve_left hle), hbuf]
  refine ⟨_, rfl, ⟨_, ⟨rfl, ?_, ?_⟩, Buf.holds_realloc hholds ?_⟩, hlen, ?_, hnul⟩
  · rw [Buf.length_realloc]
    exact hbytes
  · change x.len + 5 ≤ intMax
    omega
  · omega
  · change x.len ≤ x.len + 5
    omega

theorem Rep.deleteSubstring {j k : Nat} (h : x.Rep l) (hk : j + k ≤ l.length) (hpos : 0 < k)
    (hsum : n = k ∨ j + k = l.length ∧ k ≤ n ∧ j + n ≤ intMax)
    (hgap : l.length - j - k < k)
    (htrims : x.bufLen - (l.length - k) ≤ DEFAULT_SIZE_INCREMENT ∨ grants 0 = true) :
    ∃ x', deleteSubstring grants x j n = some (.void, x') ∧
      x'.Rep (l.take j ++ l.drop (j + k)) := by
  have hle := h.le_intMax
  have hmax : (j : Int) + n ≤ intMax := by
    rcases hsum with rfl | ⟨-, -, hsum⟩
    · omega
    · exact hsum
  have hn : (k : Int) ≤ n := by
    rcases hsum with rfl | ⟨-, hsum, -⟩
    · exact le_refl _
    · exact hsum
  have hwrap : wrap32 (j + n) = j + n := by
    unfold intMax at hmax
    exact wrap32_of_range (by omega) hmax
  have hchars : (if x.len < wrap32 (j + n) then x.len - j else n) = k := by
    rw [hwrap, h.len]
    split
    · rcases hsum with rfl | ⟨hsum, -⟩ <;> omega
    · rcases hsum with rfl | ⟨hsum, -⟩ <;> omega
  have hbounds : ¬ ((j : Int) < 0 ∨ x.len ≤ j ∨ n < 0) := by
    rw [h.len]
    omega
  rw [xstring.deleteSubstring, if_neg (by omega), if_neg hbounds]
  dsimp only
  rw [hchars]
  obtain ⟨⟨cells, ⟨hbuf, hroom, hrange⟩, hholds⟩, hlen, hfits, hnul⟩ := h
  obtain ⟨cells₁, hcopy, hlength, hholds'⟩ := deleteCells hholds hk hgap
  have hrep : ({ buf := .block cells₁, len := x.len - k, bufLen := x.bufLen } : xstring).Rep
      (l.take j ++ l.drop (j + k)) := by
    refine ⟨⟨cells₁, ⟨rfl, ?_, hrange⟩, hholds'⟩, ?_, ?_, ?_⟩
    · rw [hlength]
      exact hroom
    · rw [hlen]
      simp only [List.length_append, List.length_take, List.length_drop]
      omega
    · dsimp only
      omega
    · rw [List.mem_append, not_or]
      exact ⟨fun hmem ↦ hnul (List.mem_of_mem_take hmem),
        fun hmem ↦ hnul (List.mem_of_mem_drop hmem)⟩
  obtain ⟨x', htrim, hrep'⟩ := hrep.trimBuffer grants (by rw [hlen]; exact htrims)
  refine ⟨x', ?_, hrep'⟩
  rw [hbuf, hlen, hcopy]
  rw [hlen] at htrim
  change (xstring.trimBuffer grants
    { buf := .block cells₁, len := l.length - k, bufLen := x.bufLen }).bind _ = _
  rw [htrim]
  rfl

/-! ## Searches -/

/-- The first index from `start` on with a property, or -1. -/
def FirstIndex (P : Nat → Prop) (start : Nat) (i : Int) : Prop :=
  (∃ k : Nat, i = k ∧ start ≤ k ∧ P k ∧ ∀ j, start ≤ j → j < k → ¬ P j) ∨
    i = -1 ∧ ∀ j, start ≤ j → ¬ P j

/-- A text stands at an index. -/
def Occurs (l s : CString) (k : Nat) : Prop := k ≤ l.length ∧ s <+: l.drop k

theorem strchr_cases (s : CString) (c : Char) : strchr s c = none ∧ c ∉ s ∨
    ∃ front rest, strchr s c = some (c :: rest) ∧ s = front ++ c :: rest ∧ c ∉ front := by
  induction s with
  | nil => exact .inl ⟨rfl, List.not_mem_nil⟩
  | cons d s ih =>
    by_cases hd : d = c
    · subst hd
      exact .inr ⟨[], s, if_pos rfl, rfl, List.not_mem_nil⟩
    · rw [strchr, if_neg hd]
      rcases ih with ⟨hnone, hmem⟩ | ⟨front, rest, hsome, rfl, hmem⟩
      · exact .inl ⟨hnone, fun h ↦ (List.mem_cons.mp h).elim (Ne.symm hd) hmem⟩
      · exact .inr ⟨d :: front, rest, hsome, rfl,
          fun h ↦ (List.mem_cons.mp h).elim (Ne.symm hd) hmem⟩

theorem strstr_cases (text s : CString) : strstr text s = none ∧ (∀ m, ¬ Occurs text s m) ∨
    ∃ front rest, strstr text s = some rest ∧ text = front ++ rest ∧ s <+: rest ∧
      ∀ m < front.length, ¬ s <+: text.drop m := by
  induction text with
  | nil =>
    by_cases hs : s = []
    · subst hs
      exact .inr ⟨[], [], rfl, rfl, List.prefix_rfl, fun m hm ↦ absurd hm (Nat.not_lt_zero m)⟩
    · refine .inl ⟨if_neg hs, fun m hm ↦ hs ?_⟩
      have hprefix := hm.2
      rw [List.drop_nil] at hprefix
      exact List.prefix_nil.mp hprefix
  | cons c text ih =>
    rw [strstr]
    by_cases hhere : s <+: c :: text
    · rw [if_pos (List.isPrefixOf_iff_prefix.mpr hhere)]
      exact .inr ⟨[], c :: text, rfl, rfl, hhere, fun m hm ↦ absurd hm (Nat.not_lt_zero m)⟩
    · rw [if_neg (mt List.isPrefixOf_iff_prefix.mp hhere)]
      rcases ih with ⟨hnone, hnot⟩ | ⟨front, rest, hsome, rfl, hprefix, hnot⟩
      · refine .inl ⟨hnone, fun m hm ↦ ?_⟩
        cases m with
        | zero => exact hhere hm.2
        | succ m => exact hnot m ⟨Nat.le_of_succ_le_succ hm.1, hm.2⟩
      · refine .inr ⟨c :: front, rest, hsome, rfl, hprefix, fun m hm ↦ ?_⟩
        cases m with
        | zero => exact hhere
        | succ m => exact hnot m (Nat.lt_of_succ_lt_succ hm)

/-- The text at an index, and how an index behind it is counted. -/
theorem Rep.string {k : Nat} (h : x.Rep l) (hk : k ≤ l.length) :
    x.buf.string k = some (l.drop k) ∧ ¬ ((k : Int) < 0 ∨ x.len < k) := by
  obtain ⟨⟨cells, ⟨hbuf, -, -⟩, hholds⟩, hlen, -, hnul⟩ := h
  constructor
  · rw [hbuf, Buf.string_holds hholds hnul (Int.natCast_nonneg k) (Int.ofNat_le.mpr hk),
      Int.toNat_natCast]
  · rw [hlen]
    omega

theorem indexOf_append {k : Nat} {front rest : CString} (hk : k ≤ l.length)
    (hl : l.drop k = front ++ rest) : indexOf k (l.drop k) rest = k + front.length ∧
      k + front.length ≤ l.length := by
  have hlength := congrArg List.length hl
  rw [List.length_drop, List.length_append] at hlength
  rw [indexOf, hl, List.length_append]
  omega

/-- `find` is right. -/
theorem Rep.find {k : Nat} {c : Char} (h : x.Rep l) (hk : k ≤ l.length) :
    ∃ i, find x c k = some (.index i, x) ∧ FirstIndex (fun j ↦ l[j]? = some c) k i := by
  obtain ⟨hstring, hbounds⟩ := h.string hk
  rw [xstring.find, if_neg hbounds, hstring]
  rcases strchr_cases (l.drop k) c with ⟨hnone, hmem⟩ | ⟨front, rest, hsome, hl, hmem⟩
  · refine ⟨-1, ?_, .inr ⟨rfl, fun j hj hc ↦ hmem ?_⟩⟩
    · rw [Option.bind_eq_bind, Option.bind_some, hnone]
    · obtain ⟨m, rfl⟩ := Nat.exists_eq_add_of_le hj
      rw [← List.getElem?_drop] at hc
      exact List.mem_of_getElem? hc
  · obtain ⟨hindex, hle⟩ := indexOf_append hk hl
    have hmax := h.le_intMax
    unfold intMax at hmax
    refine ⟨(k + front.length : Nat), ?_, .inl ⟨_, rfl, Nat.le_add_right _ _, ?_, ?_⟩⟩
    · rw [Option.bind_eq_bind, Option.bind_some, hsome]
      dsimp only
      rw [hindex, wrap32_of_range (by omega) (by omega), Nat.cast_add]
    · dsimp only
      rw [← List.getElem?_drop, hl, List.getElem?_append_right (le_refl _), Nat.sub_self]
      rfl
    · intro j hj hlt hc
      obtain ⟨m, rfl⟩ := Nat.exists_eq_add_of_le hj
      rw [← List.getElem?_drop, hl, List.getElem?_append_left (by omega)] at hc
      exact hmem (List.mem_of_getElem? hc)

/-- `findStr` is right where nothing is found, and where the index is 0. -/
theorem Rep.findStr {k : Nat} (h : x.Rep l) (hk : k ≤ l.length)
    (hmeets : (∀ j, k ≤ j → ¬ Occurs l s j) ∨ k = 0 ∧ s <+: l) :
    ∃ i, findStr x s k = some (.index i, x) ∧ FirstIndex (Occurs l s) k i := by
  obtain ⟨hstring, hbounds⟩ := h.string hk
  rw [xstring.findStr, if_neg hbounds, hstring]
  rcases hmeets with hnot | ⟨rfl, hprefix⟩
  · have hnone : strstr (l.drop k) s = none := by
      rcases strstr_cases (l.drop k) s with ⟨hnone, -⟩ | ⟨front, rest, -, hl, hprefix, -⟩
      · exact hnone
      · refine absurd ⟨?_, ?_⟩ (hnot (k + front.length) (Nat.le_add_right _ _))
        · exact (indexOf_append hk hl).2
        · rw [← List.drop_drop, hl, List.drop_left]
          exact hprefix
    refine ⟨-1, ?_, .inr ⟨rfl, hnot⟩⟩
    rw [Option.bind_eq_bind, Option.bind_some, hnone]
  · have hsome : strstr l s = some l := by
      cases l with
      | nil =>
        obtain rfl := List.prefix_nil.mp hprefix
        rfl
      | cons c l => exact if_pos (List.isPrefixOf_iff_prefix.mpr hprefix)
    refine ⟨0, ?_, .inl ⟨0, rfl, le_refl 0, ⟨Nat.zero_le _, hprefix⟩, ?_⟩⟩
    · rw [Option.bind_eq_bind, Option.bind_some, List.drop_zero, hsome]
      dsimp only
      rw [indexOf, Int.sub_self]
      rfl
    · exact fun j _ hj ↦ absurd hj (Nat.not_lt_zero j)

/-! ## Operations -/

/-- The operations, on texts that are not in the buffer itself. -/
inductive Op where
  | assign (s : CString)
  | append (s : CString)
  | appendLimited (s : CString) (maxLen : Int)
  | copyLimited (s : CString) (maxLen : Int)
  | substring (startIndex numChars : Int)
  | insert (s : CString) (index : Int)
  | deleteSubstring (startIndex numChars : Int)
  | find (c : Char) (startIndex : Int)
  | findStr (s : CString) (startIndex : Int)
  | detach
  | attach (s : Option (CString × Nat))
deriving Repr

namespace Op

def run (grants : Grants) (x : xstring) : Op → Option (Value × xstring)
  | assign s => x.assign grants s
  | append s => x.append grants s
  | appendLimited s maxLen => x.appendLimited grants s maxLen
  | copyLimited s maxLen => x.copyLimited grants s maxLen
  | substring startIndex numChars => x.substring grants startIndex numChars
  | insert s index => x.insert grants s index
  | deleteSubstring startIndex numChars => x.deleteSubstring grants startIndex numChars
  | find c startIndex => x.find c startIndex
  | findStr s startIndex => x.findStr s startIndex
  | detach => x.detach grants
  | attach s => x.attach grants s

/-- The same operation on a list.  A deletion ends with the list. -/
def onList (l : CString) : Op → CString
  | assign s => s
  | append s => l ++ s
  | appendLimited s maxLen => l ++ s.take maxLen.toNat
  | copyLimited s maxLen => if maxLen < 0 then l else s.take maxLen.toNat
  | insert s index =>
    if index < 0 ∨ (l.length : Int) < index then l
    else l.take index.toNat ++ s ++ l.drop index.toNat
  | deleteSubstring startIndex numChars =>
    if startIndex < 0 ∨ (l.length : Int) ≤ startIndex ∨ numChars < 0 then l
    else l.take startIndex.toNat ++ l.drop (startIndex + numChars).toNat
  | detach | attach none => []
  | attach (some (s, _)) => s
  | substring .. | find .. | findStr .. => l

/-- What the operation has to return, where it finds the memory that it asks for. -/
def Answers (l : CString) (v : Value) : Op → Prop
  | substring startIndex numChars =>
    if startIndex < 0 ∨ (l.length : Int) ≤ startIndex ∨ numChars < 0 then v = .OutOfBoundsException
    else ∃ s, v = .string s ∧ s.Rep ((l.drop startIndex.toNat).take numChars.toNat)
  | insert _ index =>
    v = if index < 0 ∨ (l.length : Int) < index then .OutOfBoundsException else .void
  | deleteSubstring startIndex numChars =>
    v = if numChars ≠ 0 ∧ (startIndex < 0 ∨ (l.length : Int) ≤ startIndex ∨ numChars < 0) then
      .OutOfBoundsException else .void
  | find c startIndex =>
    if startIndex < 0 ∨ (l.length : Int) < startIndex then v = .OutOfBoundsException
    else ∃ i, v = .index i ∧ FirstIndex (fun k ↦ l[k]? = some c) startIndex.toNat i
  | findStr s startIndex =>
    if startIndex < 0 ∨ (l.length : Int) < startIndex then v = .OutOfBoundsException
    else ∃ i, v = .index i ∧ FirstIndex (Occurs l s) startIndex.toNat i
  | detach => ∃ cells, v = .text (.block cells) ∧ cells.Holds l
  | _ => v = .void

/-- A text without NULs, the length of which is an `int`. -/
def IsText (s : CString) : Prop := '\x00' ∉ s ∧ (s.length : Int) ≤ intMax

/-- What the callers promise. -/
def Documented : Op → Prop
  | assign s | append s | appendLimited s _ | copyLimited s _ | insert s _ | findStr s _
  | attach (some (s, _)) => IsText s
  | find c _ => c ≠ '\x00'
  | _ => True

/-- The operations that do not come to a defect: the smaller buffer of `setBufSize`; the buffer that
is not there after `setBufferSizeAssign` or `trimBuffer` has thrown; the overlapping copy of
`deleteSubstring`; the sign of the index of `findStr`; the freed buffer of `attach( NULL )`; and
lengths that are no `int`. -/
def Meets (grants : Grants) (x : xstring) (l : CString) : Op → Prop
  | assign s => Assigns grants x s.length
  | append s => Grows grants x (l.length + s.length)
  | appendLimited s maxLen => Grows grants x (l.length + (s.take maxLen.toNat).length)
  | copyLimited s maxLen => 0 ≤ maxLen → Assigns grants x (s.take maxLen.toNat).length
  | insert s index => 0 ≤ index → index ≤ l.length → Grows grants x (l.length + s.length)
  | deleteSubstring startIndex numChars =>
    0 ≤ startIndex → startIndex < l.length → 0 < numChars →
      startIndex + numChars ≤ intMax ∧
      (l.length : Int) - startIndex < 2 * min numChars (l.length - startIndex) ∧
      (x.bufLen - (l.length - min numChars (l.length - startIndex)) ≤ DEFAULT_SIZE_INCREMENT ∨
        grants 0 = true)
  | findStr s startIndex =>
    0 ≤ startIndex → startIndex ≤ l.length →
      (∀ k : Nat, startIndex ≤ k → ¬ Occurs l s k) ∨ startIndex = 0 ∧ s <+: l
  | detach => grants 0 = true ∨ grants 1 = true
  | attach s => s.isSome
  | substring .. | find .. => True

end Op

/-- An operation does what it should, or it finds no memory and leaves the string as it was. -/
def Agrees (grants : Grants) (x : xstring) (l : CString) (op : Op) : Prop :=
  ∃ v x', op.run grants x = some (v, x') ∧
    (v = .OutOfMemoryException ∧ x'.Rep l ∨
      v ≠ .OutOfMemoryException ∧ x'.Rep (op.onList l) ∧ op.Answers l v)

theorem length_limited (s : CString) {maxLen : Int} (h₀ : 0 ≤ maxLen)
    (hs : (s.length : Int) ≤ intMax) :
    (if strlen s < maxLen then strlen s else maxLen) = (s.take maxLen.toNat).length := by
  rw [strlen_eq hs, List.length_take]
  split <;> omega

theorem length_limited_le (s : CString) (maxLen : Int) :
    ((s.take maxLen.toNat).length : Int) ≤ s.length :=
  Int.ofNat_le.mpr ((List.take_sublist _ _).length_le)

theorem take_limited (s : CString) (maxLen : Int) :
    s.take ((s.take maxLen.toNat).length : Int).toNat = s.take maxLen.toNat := by
  rw [Int.toNat_natCast, List.length_take, ← List.take_eq_take_min]

theorem void_ne : Value.void ≠ .OutOfMemoryException := fun h ↦ nomatch h

/-- What was added, or was not. -/
theorem agrees_added {op : Op} (h : x.Rep l) (hanswers : op.Answers l .void)
    (hrun : ∃ v x', op.run grants x = some (v, x') ∧
      (v = .void ∧ x'.Rep (op.onList l) ∨ v = .OutOfMemoryException ∧ x' = x)) :
    Agrees grants x l op := by
  obtain ⟨v, x', hrun, ⟨rfl, hrep⟩ | ⟨rfl, rfl⟩⟩ := hrun
  · exact ⟨.void, x', hrun, .inr ⟨void_ne, hrep, hanswers⟩⟩
  · exact ⟨.OutOfMemoryException, x', hrun, .inl ⟨rfl, h⟩⟩

/-- What refuses an index, or has nothing to do. -/
theorem agrees_same {op : Op} {v : Value} (h : x.Rep l) (hrun : op.run grants x = some (v, x))
    (hlist : op.onList l = l) (hv : v ≠ .OutOfMemoryException) (hanswers : op.Answers l v) :
    Agrees grants x l op :=
  ⟨v, x, hrun, .inr ⟨hv, hlist.symm ▸ h, hanswers⟩⟩

theorem Rep.appendLimited_agrees {maxLen : Int} (h : x.Rep l) (hdoc : Op.IsText s)
    (hgrows : Grows grants x (l.length + (s.take maxLen.toNat).length)) :
    Agrees grants x l (.appendLimited s maxLen) := by
  by_cases hle : maxLen ≤ 0
  · have hlist : (Op.appendLimited s maxLen).onList l = l := by
      rw [Op.onList, Int.toNat_of_nonpos hle, List.take_zero, List.append_nil]
    exact agrees_same h (if_pos hle) hlist void_ne rfl
  · have h₀ : 0 ≤ maxLen := by omega
    have hn := length_limited_le s maxLen
    obtain ⟨v, x', hrun, hv⟩ := h.doAdd hdoc.1 (Int.natCast_nonneg _) hn hgrows
    refine agrees_added h rfl ⟨v, x', ?_, ?_⟩
    · rw [Op.run, xstring.appendLimited, if_neg hle]
      dsimp only
      rw [length_limited s h₀ hdoc.2, hrun]
    · rw [take_limited] at hv
      exact hv

theorem Rep.copyLimited_agrees {maxLen : Int} (h : x.Rep l) (hdoc : Op.IsText s)
    (hassigns : 0 ≤ maxLen → Assigns grants x (s.take maxLen.toNat).length) :
    Agrees grants x l (.copyLimited s maxLen) := by
  by_cases hlt : maxLen < 0
  · exact agrees_same h (if_pos hlt) (if_pos hlt) void_ne rfl
  · have h₀ : 0 ≤ maxLen := not_lt.mp hlt
    have hn := length_limited_le s maxLen
    obtain ⟨x', hrun, hrep⟩ := h.doCopy hdoc.1 (Int.natCast_nonneg _) hn (hn.trans hdoc.2)
      (hassigns h₀)
    rw [take_limited] at hrep
    refine ⟨.void, x', ?_, .inr ⟨void_ne, ?_, rfl⟩⟩
    · rw [Op.run, xstring.copyLimited, if_neg hlt]
      dsimp only
      rw [length_limited s h₀ hdoc.2, hrun]
    · rw [Op.onList, if_neg hlt]
      exact hrep

theorem Rep.substring_agrees {numChars : Int} (h : x.Rep l) :
    Agrees grants x l (.substring i numChars) := by
  by_cases hbad : i < 0 ∨ (l.length : Int) ≤ i ∨ numChars < 0
  · have hrun : (Op.substring i numChars).run grants x = some (.OutOfBoundsException, x) := by
      rw [Op.run, xstring.substring, h.len, if_pos hbad]
    refine agrees_same h hrun rfl (fun h ↦ nomatch h) ?_
    rw [Op.Answers, if_pos hbad]
  obtain ⟨k, rfl⟩ := Int.eq_ofNat_of_zero_le (show 0 ≤ i by omega)
  have hk : k ≤ l.length := by omega
  obtain ⟨hstring, -⟩ := h.string hk
  obtain ⟨v, s₁, hnew, hv⟩ := doCopy_empty grants
  rcases hv with ⟨rfl, hrep⟩ | ⟨rfl, -⟩
  · have hle := h.le_intMax
    have h₀ : 0 ≤ numChars := by omega
    have htext : ((l.drop k).length : Int) ≤ intMax := by
      rw [List.length_drop]
      omega
    have hn := length_limited_le (l.drop k) numChars
    obtain ⟨cells, howns, -⟩ := hrep.owns
    obtain ⟨v, s₂, hcopy, hv⟩ := doCopy_spec (fun i ↦ grants (i + 2)) (.inr ⟨cells, howns⟩)
      (fun hmem ↦ h.nul (List.mem_of_mem_drop hmem)) (Int.natCast_nonneg _) hn (hn.trans htext)
    have hrun : (Op.substring k numChars).run grants x =
        some (if v = .void then .string s₂ else v, x) := by
      rw [Op.run, xstring.substring, h.len, if_neg hbad, new, hnew]
      change (x.buf.string k).bind (fun text ↦ (s₁.copyLimited (fun i ↦ grants (i + 2)) text
        numChars).bind fun r ↦ some (if r.1 = .void then .string r.2 else r.1, x)) = _
      rw [hstring, Option.bind_some, xstring.copyLimited, if_neg (not_lt.mpr h₀)]
      dsimp only
      rw [length_limited _ h₀ htext, hcopy]
      rfl
    rcases hv with ⟨rfl, hrep₂⟩ | ⟨rfl, -⟩
    · rw [take_limited] at hrep₂
      refine ⟨_, x, hrun, .inr ⟨fun h ↦ ?_, h, ?_⟩⟩
      · rw [if_pos rfl] at h
        cases h
      · rw [Op.Answers, if_neg hbad, if_pos rfl]
        exact ⟨s₂, rfl, hrep₂⟩
    · exact ⟨_, x, hrun, .inl ⟨rfl, h⟩⟩
  · refine ⟨.OutOfMemoryException, x, ?_, .inl ⟨rfl, h⟩⟩
    rw [Op.run, xstring.substring, h.len, if_neg hbad, new, hnew]
    rfl

theorem Rep.insert_agrees (h : x.Rep l) (hdoc : Op.IsText s)
    (hgrows : 0 ≤ i → i ≤ l.length → Grows grants x (l.length + s.length)) :
    Agrees grants x l (.insert s i) := by
  by_cases hbad : i < 0 ∨ (l.length : Int) < i
  · have hrun : (Op.insert s i).run grants x = some (.OutOfBoundsException, x) := by
      rw [Op.run, xstring.insert, h.len, if_pos hbad]
    refine agrees_same h hrun (if_pos hbad) (fun h ↦ nomatch h) ?_
    rw [Op.Answers, if_pos hbad]
  · have h₀ : 0 ≤ i := by omega
    have hi : i ≤ l.length := by omega
    refine agrees_added h ?_ ?_
    · rw [Op.Answers, if_neg hbad]
    · rw [Op.onList, if_neg hbad]
      exact h.insert hdoc.1 hdoc.2 h₀ hi (hgrows h₀ hi)

theorem Rep.deleteSubstring_agrees {numChars : Int} (h : x.Rep l)
    (hmeets : (Op.deleteSubstring i numChars).Meets grants x l) :
    Agrees grants x l (.deleteSubstring i numChars) := by
  by_cases hzero : numChars = 0
  · subst hzero
    have hrun : (Op.deleteSubstring i 0).run grants x = some (.void, x) := by
      rw [Op.run, xstring.deleteSubstring, if_pos rfl]
    refine agrees_same h hrun ?_ void_ne ?_
    · rw [Op.onList]
      split
      · rfl
      · rw [Int.add_zero, List.take_append_drop]
    · rw [Op.Answers, if_neg fun h ↦ h.1 rfl]
  by_cases hbad : i < 0 ∨ (l.length : Int) ≤ i ∨ numChars < 0
  · have hrun : (Op.deleteSubstring i numChars).run grants x = some (.OutOfBoundsException, x) := by
      rw [Op.run, xstring.deleteSubstring, h.len, if_neg hzero, if_pos hbad]
    refine agrees_same h hrun (if_pos hbad) (fun h ↦ nomatch h) ?_
    rw [Op.Answers, if_pos ⟨hzero, hbad⟩]
  obtain ⟨j, rfl⟩ := Int.eq_ofNat_of_zero_le (show 0 ≤ i by omega)
  obtain ⟨n, rfl⟩ := Int.eq_ofNat_of_zero_le (show 0 ≤ numChars by omega)
  obtain ⟨hsum, hgap, htrims⟩ := hmeets (by omega) (by omega) (by omega)
  obtain ⟨k, hk⟩ : ∃ k, k = min n (l.length - j) := ⟨_, rfl⟩
  have hmin : min (n : Int) (l.length - j) = k := by omega
  rw [hmin] at hgap htrims
  obtain ⟨x', hrun, hrep⟩ := h.deleteSubstring (j := j) (k := k) (n := n) (by omega) (by omega)
    (by omega) (by omega) htrims
  have hdrop : l.drop (j + k) = l.drop (j + n) := by
    rcases Nat.le_total n (l.length - j) with hle | hle
    · rw [hk, min_eq_left hle]
    · rw [List.drop_eq_nil_of_le (by omega), List.drop_eq_nil_of_le (by omega)]
  refine ⟨.void, x', hrun, .inr ⟨void_ne, ?_, ?_⟩⟩
  · rw [Op.onList, if_neg hbad, Int.toNat_natCast, ← Nat.cast_add, Int.toNat_natCast, ← hdrop]
    exact hrep
  · rw [Op.Answers, if_neg fun h ↦ hbad h.2]

theorem Rep.find_agrees {c : Char} (h : x.Rep l) : Agrees grants x l (.find c i) := by
  by_cases hbad : i < 0 ∨ (l.length : Int) < i
  · have hrun : (Op.find c i).run grants x = some (.OutOfBoundsException, x) := by
      rw [Op.run, xstring.find, h.len, if_pos hbad]
    refine agrees_same h hrun rfl (fun h ↦ nomatch h) ?_
    rw [Op.Answers, if_pos hbad]
  obtain ⟨k, rfl⟩ := Int.eq_ofNat_of_zero_le (show 0 ≤ i by omega)
  obtain ⟨index, hrun, hfirst⟩ := h.find (c := c) (k := k) (by omega)
  refine agrees_same h hrun rfl (fun h ↦ nomatch h) ?_
  rw [Op.Answers, if_neg hbad]
  exact ⟨index, rfl, hfirst⟩

theorem Rep.findStr_agrees (h : x.Rep l) (hmeets : (Op.findStr s i).Meets grants x l) :
    Agrees grants x l (.findStr s i) := by
  by_cases hbad : i < 0 ∨ (l.length : Int) < i
  · have hrun : (Op.findStr s i).run grants x = some (.OutOfBoundsException, x) := by
      rw [Op.run, xstring.findStr, h.len, if_pos hbad]
    refine agrees_same h hrun rfl (fun h ↦ nomatch h) ?_
    rw [Op.Answers, if_pos hbad]
  obtain ⟨k, rfl⟩ := Int.eq_ofNat_of_zero_le (show 0 ≤ i by omega)
  have hmeets' : (∀ j, k ≤ j → ¬ Occurs l s j) ∨ k = 0 ∧ s <+: l := by
    rcases hmeets (by omega) (by omega) with hnot | ⟨hk, hprefix⟩
    · exact .inl fun j hj ↦ hnot j (Int.ofNat_le.mpr hj)
    · exact .inr ⟨Int.ofNat_eq_zero.mp hk, hprefix⟩
  obtain ⟨index, hrun, hfirst⟩ := h.findStr (k := k) (by omega) hmeets'
  refine agrees_same h hrun rfl (fun h ↦ nomatch h) ?_
  rw [Op.Answers, if_neg hbad]
  exact ⟨index, rfl, hfirst⟩

theorem Rep.detach_agrees (h : x.Rep l) (hmeets : grants 0 = true ∨ grants 1 = true) :
    Agrees grants x l .detach := by
  obtain ⟨cells, ⟨hbuf, -, -⟩, hholds⟩ := h.owns
  obtain ⟨v, x', hcopy, ⟨rfl, hrep⟩ | ⟨-, hnot⟩⟩ := doCopy_empty grants
  · refine ⟨.text x.buf, x', ?_, .inr ⟨fun h ↦ (nomatch h), hrep, cells, ?_, hholds⟩⟩
    · rw [Op.run, xstring.detach, hcopy]
      rfl
    · rw [hbuf]
  · exact absurd hmeets hnot

theorem Rep.attach_agrees {more : Nat} (h : x.Rep l) (hdoc : Op.IsText s) :
    Agrees grants x l (.attach (some (s, more))) := by
  obtain ⟨cells, ⟨hbuf, -, -⟩, -⟩ := h.owns
  have hrun : (Op.attach (some (s, more))).run grants x = some (.void,
      ⟨.block ((s ++ ['\x00']).map some ++ Buffer.alloc more), s.length, s.length⟩) := by
    rw [Op.run, xstring.attach, hbuf, strlen_eq hdoc.2]
    rfl
  refine ⟨_, _, hrun, .inr ⟨void_ne, ?_, rfl⟩⟩
  refine ⟨⟨_, ⟨rfl, ?_, hdoc.2⟩, List.prefix_append _ _⟩, rfl, le_refl _, hdoc.1⟩
  dsimp only
  simp only [List.length_append, List.length_map, List.length_singleton]
  omega

/-- One operation. -/
theorem Op.agrees {op : Op} (h : x.Rep l) (hdoc : op.Documented) (hmeets : op.Meets grants x l) :
    Agrees grants x l op := by
  cases op with
  | assign s =>
    obtain ⟨x', hrun, hrep⟩ := h.doCopy hdoc.1 (Int.natCast_nonneg _) (le_refl _) hdoc.2 hmeets
    rw [Int.toNat_natCast, List.take_length] at hrep
    refine ⟨.void, x', ?_, .inr ⟨void_ne, hrep, rfl⟩⟩
    rw [Op.run, xstring.assign, strlen_eq hdoc.2, hrun]
  | append s =>
    obtain ⟨v, x', hrun, hv⟩ := h.doAdd hdoc.1 (Int.natCast_nonneg _) (le_refl _) hmeets
    rw [Int.toNat_natCast, List.take_length] at hv
    refine agrees_added h rfl ⟨v, x', ?_, hv⟩
    rw [Op.run, xstring.append, strlen_eq hdoc.2, hrun]
  | appendLimited s maxLen => exact h.appendLimited_agrees hdoc hmeets
  | copyLimited s maxLen => exact h.copyLimited_agrees hdoc hmeets
  | substring startIndex numChars => exact h.substring_agrees
  | insert s index => exact h.insert_agrees hdoc hmeets
  | deleteSubstring startIndex numChars => exact h.deleteSubstring_agrees hmeets
  | find c startIndex => exact h.find_agrees
  | findStr s startIndex => exact h.findStr_agrees hmeets
  | detach => exact h.detach_agrees hmeets
  | attach s =>
    cases s with
    | none => cases hmeets
    | some s => exact h.attach_agrees hdoc

/-! ## Runs -/

/-- A string and the list that it stands for: the list does what the string does, unless the string
finds no memory. -/
def machine : Machine (xstring × CString) (Grants × Op) where
  init s := Op.IsText s.2 ∧
    ∃ grants, doCopy grants ⟨.NULL, 0, 0⟩ s.2 (strlen s.2) = some (.void, s.1)
  step s l := do
    let (v, x) ← l.2.run l.1 s.1
    some (x, if v = .OutOfMemoryException then s.2 else l.2.onList s.2)

/-- The steps that are documented and do not come to a defect. -/
def meets (s : xstring × CString) (l : Grants × Op) : Prop :=
  l.2.Documented ∧ l.2.Meets l.1 s.1 s.2

/-- The string stands for its list, and the next operation does what it should. -/
def Stands (ok : xstring × CString → Grants × Op → Prop) (s : xstring × CString) : Prop :=
  s.1.Rep s.2 ∧ ∀ l, ok s l → Agrees l.1 s.1 s.2 l.2

theorem rep_inductive : machine.Inductive meets fun s ↦ s.1.Rep s.2 where
  init := by
    rintro ⟨x, s⟩ ⟨htext, grants, hcopy⟩
    obtain ⟨v, x', hcopy', hv⟩ := doCopy_spec (x := ⟨.NULL, 0, 0⟩) grants (.inl rfl) htext.1
      (Int.natCast_nonneg s.length) (le_refl _) htext.2
    rw [strlen_eq htext.2, hcopy'] at hcopy
    cases hcopy
    rcases hv with ⟨-, hrep⟩ | ⟨h, -⟩
    · rw [Int.toNat_natCast, List.take_length] at hrep
      exact hrep
    · cases h
  step := by
    rintro ⟨x, s⟩ ⟨grants, op⟩ s' hrep ⟨hdoc, hmeets⟩ hstep
    obtain ⟨v, x', hrun, hv⟩ := Op.agrees hrep hdoc hmeets
    obtain ⟨r, hr, hstep⟩ := Option.bind_eq_some_iff.mp hstep
    dsimp only at hr
    rw [hrun] at hr
    cases hr
    cases hstep
    rcases hv with ⟨rfl, hrep'⟩ | ⟨hne, hrep', -⟩
    · exact hrep'
    · dsimp only
      rw [if_neg hne]
      exact hrep'

/-- **A string stands for its list after every run of operations that do not come to a defect**, and
what the next one of them returns is right. -/
theorem xstring_refines {s : xstring × CString} (h : machine.Reach meets s) : Stands meets s := by
  have hrep := h.invariant rep_inductive
  exact ⟨hrep, fun l hl ↦ Op.agrees hrep hl.1 hl.2⟩

/-- The string "ab", in the buffer of a new string. -/
def ab : xstring := ⟨.block ("ab\x00".toList.map some ++ [none, none, none]), 2, 5⟩

theorem reach_ab {ok : xstring × CString → Grants × Op → Prop} :
    machine.Reach ok (ab, "ab".toList) :=
  .init ⟨⟨by decide, by decide⟩, fun _ ↦ true, by decide +kernel⟩

/-- A string to which a text was added. -/
theorem xstring_refines_append :
    ∃ x, x.len = 3 ∧ Stands meets (x, "abc".toList) := by
  have hmeets : meets (ab, "ab".toList) (fun _ ↦ true, .append "c".toList) :=
    ⟨⟨by decide, by decide⟩, by decide, .inl (by decide)⟩
  have hstep : machine.step (ab, "ab".toList) (fun _ ↦ true, .append "c".toList) =
      some (⟨.block ("abc\x00".toList.map some ++ [none, none]), 3, 5⟩, "abc".toList) := by
    decide +kernel
  exact ⟨_, rfl, xstring_refines (reach_ab.step hmeets hstep)⟩

/-- What is found at the index 1 is said not to be there. -/
theorem findStr_negative : ¬ ∀ s, machine.Reach (fun _ l ↦ l.2.Documented) s →
    Stands (fun _ l ↦ l.2.Documented) s := by
  intro h
  obtain ⟨v, x, hrun, hv⟩ := (h _ reach_ab).2 (fun _ ↦ true, .findStr "b".toList 0)
    ⟨by decide, by decide⟩
  have hfind : ab.findStr "b".toList 0 = some (.index (-1), ab) := by
    decide +kernel
  cases hrun.symm.trans hfind
  rcases hv with ⟨hv, -⟩ | ⟨-, -, hanswers⟩
  · cases hv
  · rw [Op.Answers, if_neg (by decide)] at hanswers
    obtain ⟨i, hi, hfirst⟩ := hanswers
    cases hi
    rcases hfirst with ⟨k, hk, -⟩ | ⟨-, hnot⟩
    · exact absurd hk (by omega)
    · exact hnot 1 (Nat.zero_le 1) ⟨by decide, by decide⟩

end xstring

end Upnp.Util
