import Upnp.Util.XStringRefinement

/-!
# Where the operations of a string go wrong

`xstring.Op.Meets` is exact.  An operation that is not on its condition uses memory that it does not
own, leaves what stands for no list, or returns a wrong index.
-/

namespace Upnp.Util

open Upnp.Lib

namespace Buf

variable {cells : Buffer} {buf : Buf} {s : CString} {i dst src n : Int}

theorem bytesFor_of_lt (h₀ : 0 ≤ i) (h : i < intMax) : bytesFor i = i + 1 := by
  unfold intMax at h
  unfold bytesFor
  rw [wrap32_of_range (by omega) (by omega)]
  omega

/-- What is written is within the memory, which stays as large as it was. -/
theorem of_write (h : (block cells).write i s = some buf) :
    0 ≤ i ∧ ∃ cells', buf = block cells' ∧ cells'.length = cells.length := by
  rw [write] at h
  by_cases hi : i < 0
  · rw [if_pos hi] at h
    cases h
  rw [if_neg hi, Buffer.memcpy] at h
  by_cases hfit : i.toNat + s.length ≤ cells.length
  · rw [if_pos hfit] at h
    cases h
    refine ⟨not_lt.mp hi, _, rfl, ?_⟩
    simp only [List.length_append, List.length_take, List.length_map, List.length_drop]
    omega
  · rw [if_neg hfit] at h
    cases h

theorem of_memmove (h : (block cells).memmove dst src n = some buf) :
    0 ≤ n ∧ ∃ cells', buf = block cells' ∧ cells'.length = cells.length := by
  rw [memmove] at h
  by_cases hfit : 0 ≤ dst ∧ 0 ≤ src ∧ 0 ≤ n ∧ dst + n ≤ cells.length ∧ src + n ≤ cells.length
  · rw [if_pos hfit] at h
    cases h
    refine ⟨hfit.2.2.1, _, rfl, ?_⟩
    simp only [List.length_append, List.length_take, List.length_drop]
    omega
  · rw [if_neg hfit] at h
    cases h

theorem of_memcpy (h : (block cells).memcpy dst src n = some buf) :
    0 ≤ n ∧ (dst + n ≤ src ∨ src + n ≤ dst) := by
  rw [memcpy] at h
  by_cases hapart : dst + n ≤ src ∨ src + n ≤ dst
  · rw [if_pos hapart] at h
    exact ⟨(of_memmove h).1, hapart⟩
  · rw [if_neg hapart] at h
    cases h

end Buf

namespace xstring

variable {x x' x₁ : xstring} {l l' s : CString} {grants : Grants} {i n : Int} {v : Value}

theorem Rep.buf_ne (h : x.Rep l) : x.buf ≠ .NULL := by
  obtain ⟨cells, ⟨hbuf, -, -⟩, -⟩ := h.owns
  rw [hbuf]
  exact fun h ↦ nomatch h

/-! ## Additions -/

/-- Off its condition `setBufSize` goes on: with a length that is no `int`, or without the room that
`bufLen` says. -/
theorem Rep.setBufSize_fails (h : x.Rep l) (hn : n ≤ intMax)
    (hnot : ¬ Grows grants x (l.length + n)) :
    ∃ x₁ cells, setBufSize grants x (wrap32 (l.length + n)) = some (true, x₁) ∧
      x₁.len = l.length ∧ x₁.buf = .block cells ∧
      (wrap32 (l.length + n) < 0 ∨ (cells.length : Int) ≤ x₁.bufLen) := by
  have hle := h.le_intMax
  obtain ⟨⟨cells, ⟨hbuf, -, -⟩, -⟩, hlen, hfits, -⟩ := h
  have hrange := wrap32_range (l.length + n)
  unfold Grows at hnot
  by_cases hmax : (l.length : Int) + n ≤ intMax
  · obtain ⟨hlt, hnot'⟩ := not_or.mp fun h ↦ hnot ⟨hmax, h⟩
    obtain ⟨hfirst, hnot'⟩ := not_or.mp hnot'
    obtain ⟨hsecond, hlarger⟩ := not_or.mp hnot'
    rw [Bool.not_eq_false] at hsecond
    rw [not_le] at hlarger
    have hwrap : wrap32 (l.length + n) = l.length + n := by
      unfold intMax at hmax
      exact wrap32_of_range (by omega) hmax
    have hbytes : Buf.bytesFor (l.length + n) = (l.length + n + 1 : Int) := by
      refine Buf.bytesFor_of_lt (by omega) (hlarger.trans_le ?_)
      exact (wrap32_range _).2
    rw [hwrap, setBufSize, if_neg hlt]
    dsimp only
    rw [if_neg hfirst, if_pos ⟨hlarger, hsecond⟩, hbuf]
    refine ⟨_, _, rfl, hlen, rfl, .inr ?_⟩
    rw [Buf.length_realloc, hbytes]
    exact le_trans (by omega) (le_max_right _ _)
  · have hneg : wrap32 (l.length + n) < 0 := by
      have hdvd := wrap32_dvd (l.length + n)
      unfold intMax at hle hn hmax
      omega
    refine ⟨x, cells, ?_, hlen, hbuf, .inl hneg⟩
    rw [setBufSize, if_pos (by omega)]

/-- What is left without the room stands for no list. -/
theorem not_rep_of_room {cells cells' : Buffer} (hroom : i < 0 ∨ (cells.length : Int) ≤ x.bufLen)
    (hlength : cells'.length = cells.length) :
    ¬ ({ x with buf := .block cells', len := i } : xstring).Rep l := by
  rintro ⟨⟨_, ⟨hbuf, hroom', -⟩, -⟩, hlen, -, -⟩
  cases hbuf
  dsimp only at hroom' hlen
  omega

theorem Rep.grows_of_doAdd (h : x.Rep l) (hn : n ≤ intMax)
    (hrun : xstring.doAdd grants x s n = some (v, x')) (hrep : x'.Rep l') :
    Grows grants x (l.length + n) := by
  by_contra hnot
  obtain ⟨x₁, cells, hset, hlen, hbuf, hroom⟩ := h.setBufSize_fails hn hnot
  rw [xstring.doAdd, h.len, hset] at hrun
  change ((copied s n).bind fun bytes ↦ (x₁.buf.write x₁.len bytes).bind fun buf ↦
    (buf.write (wrap32 (x₁.len + n)) ['\x00']).bind fun buf ↦
      some (Value.void, { x₁ with buf := buf, len := wrap32 (x₁.len + n) })) = _ at hrun
  rw [hlen, hbuf] at hrun
  obtain ⟨bytes, -, hrun⟩ := Option.bind_eq_some_iff.mp hrun
  obtain ⟨buf, hwrite, hrun⟩ := Option.bind_eq_some_iff.mp hrun
  obtain ⟨-, cells₁, rfl, hlength⟩ := Buf.of_write hwrite
  obtain ⟨buf, hwrite, hrun⟩ := Option.bind_eq_some_iff.mp hrun
  obtain ⟨-, cells₂, rfl, hlength'⟩ := Buf.of_write hwrite
  cases hrun
  exact not_rep_of_room hroom (hlength'.trans hlength) hrep

theorem Rep.grows_of_insert (h : x.Rep l) (hs : (s.length : Int) ≤ intMax) (h₀ : 0 ≤ i)
    (hi : i ≤ l.length) (hrun : xstring.insert grants x s i = some (v, x')) (hrep : x'.Rep l') :
    Grows grants x (l.length + s.length) := by
  have hbounds : ¬ (i < 0 ∨ x.len < i) := by
    rw [h.len]
    omega
  rw [xstring.insert, if_neg hbounds, strlen_eq hs] at hrun
  dsimp only at hrun
  by_cases hpos : (s.length : Int) ≤ 0
  · have hsum : (l.length : Int) + s.length = l.length := by omega
    rw [hsum]
    exact ⟨h.le_intMax, .inl (h.len ▸ h.fits)⟩
  by_contra hnot
  obtain ⟨x₁, cells, hset, hlen, hbuf, hroom⟩ := h.setBufSize_fails hs hnot
  rw [if_neg hpos, h.len, hset] at hrun
  change ((x₁.buf.memmove (i + s.length) i (x₁.len - i + 1)).bind fun buf ↦
    (copied s s.length).bind fun bytes ↦ (buf.write i bytes).bind fun buf ↦
      some (Value.void, { x₁ with buf := buf, len := wrap32 (l.length + s.length) })) = _ at hrun
  rw [hbuf] at hrun
  obtain ⟨buf, hmove, hrun⟩ := Option.bind_eq_some_iff.mp hrun
  obtain ⟨-, cells₁, rfl, hlength⟩ := Buf.of_memmove hmove
  obtain ⟨bytes, -, hrun⟩ := Option.bind_eq_some_iff.mp hrun
  obtain ⟨buf, hwrite, hrun⟩ := Option.bind_eq_some_iff.mp hrun
  obtain ⟨-, cells₂, rfl, hlength'⟩ := Buf.of_write hwrite
  cases hrun
  exact not_rep_of_room hroom (hlength'.trans hlength) hrep

/-! ## Copies -/

/-- A copy that leaves a string has kept its buffer or got one. -/
theorem buffer_of_doCopy (hrun : doCopy grants x s n = some (v, x')) (hrep : x'.Rep l') :
    (x.buf ≠ .NULL ∧ 0 ≤ x.bufLen - n ∧ x.bufLen - n < DEFAULT_SIZE_INCREMENT) ∨
      grants 0 = true ∨ n < DEFAULT_SIZE_INCREMENT ∧ grants 1 = true := by
  obtain ⟨⟨b, x₁⟩, hset, hrun⟩ := Option.bind_eq_some_iff.mp hrun
  rw [setBufferSizeAssign] at hset
  by_cases hneg : n < 0
  · rw [if_pos hneg] at hset
    cases hset
  rw [if_neg hneg] at hset
  dsimp only at hset
  by_cases hkeep : x.buf ≠ .NULL ∧ 0 ≤ x.bufLen - n ∧ x.bufLen - n < DEFAULT_SIZE_INCREMENT
  · exact .inl hkeep
  rw [if_neg hkeep] at hset
  by_cases hgot : grants 0 = true ∨ n < DEFAULT_SIZE_INCREMENT ∧ grants 1 = true
  · exact .inr hgot
  obtain ⟨buf, -, hset⟩ := Option.map_eq_some_iff.mp hset
  rw [if_neg fun h ↦ hgot (.inl h), if_neg fun h ↦ hgot (.inr h)] at hset
  cases hset
  change some (Value.OutOfMemoryException, _) = some (v, x') at hrun
  cases hrun
  exact absurd rfl hrep.buf_ne

theorem assigns_of_doCopy (hrun : doCopy grants x s n = some (v, x')) (hrep : x'.Rep l') :
    Assigns grants x n :=
  (buffer_of_doCopy hrun hrep).imp_left fun h ↦ h.2

/-! ## Deletions -/

/-- `trimBuffer` does not change the length, and has the memory that it needs where it returns. -/
theorem of_trimBuffer {b : Bool} (h : trimBuffer grants x = some (b, x')) (hrep : x'.Rep l') :
    b = true ∧ x'.len = x.len ∧
      (x.bufLen - x.len ≤ DEFAULT_SIZE_INCREMENT ∨ grants 0 = true) := by
  rw [trimBuffer] at h
  by_cases hle : x.bufLen - x.len ≤ DEFAULT_SIZE_INCREMENT
  · rw [if_pos hle] at h
    cases h
    exact ⟨rfl, rfl, .inl hle⟩
  rw [if_neg hle] at h
  dsimp only at h
  by_cases hfirst : grants 0 = true
  · rw [if_pos hfirst] at h
    obtain ⟨buf, -, h⟩ := Option.map_eq_some_iff.mp h
    cases h
    exact ⟨rfl, rfl, .inr hfirst⟩
  · rw [if_neg hfirst] at h
    cases h
    exact absurd rfl hrep.buf_ne

theorem Rep.deleteSubstring_meets {numChars : Int} (h : x.Rep l)
    (hmax : numChars ≤ intMax) (hagrees : Agrees grants x l (.deleteSubstring i numChars)) :
    (Op.deleteSubstring i numChars).Meets grants x l := by
  intro h₀ hi hpos
  obtain ⟨v, x', hrun, hv⟩ := hagrees
  have hle := h.le_intMax
  have hlen := h.len
  obtain ⟨cells, ⟨hbuf, -, -⟩, -⟩ := h.owns
  have hbounds : ¬ (i < 0 ∨ x.len ≤ i ∨ numChars < 0) := by omega
  rw [Op.run, xstring.deleteSubstring, if_neg (by omega), if_neg hbounds, hlen, hbuf] at hrun
  dsimp only at hrun
  obtain ⟨chars, hchars⟩ : ∃ chars, chars =
    if (l.length : Int) < wrap32 (i + numChars) then (l.length : Int) - i else numChars := ⟨_, rfl⟩
  rw [← hchars] at hrun
  obtain ⟨buf, hcopy, hrun⟩ := Option.bind_eq_some_iff.mp hrun
  obtain ⟨⟨b, x₁⟩, htrim, hrun⟩ := Option.bind_eq_some_iff.mp hrun
  cases hrun
  obtain ⟨hcount, hapart⟩ := Buf.of_memcpy hcopy
  have hrep : ∃ l', x₁.Rep l' := by
    rcases hv with ⟨-, hrep⟩ | ⟨-, hrep, -⟩
    · exact ⟨_, hrep⟩
    · exact ⟨_, hrep⟩
  obtain ⟨l', hrep⟩ := hrep
  obtain ⟨rfl, hlen', htrims⟩ := of_trimBuffer htrim hrep
  dsimp only at hlen' htrims
  have hrep' : x₁.Rep ((Op.deleteSubstring i numChars).onList l) := by
    rcases hv with ⟨hv, -⟩ | ⟨-, hrep', -⟩
    · exact absurd hv void_ne
    · exact hrep'
  have hlist := hrep'.len
  rw [Op.onList, if_neg (by omega), hlen', List.length_append, List.length_take,
    List.length_drop] at hlist
  -- a sum that is no `int` is taken for one within the text
  have hsum : i + numChars ≤ intMax := by
    by_contra hsum
    have hneg : wrap32 (i + numChars) < 0 := by
      have hdvd := wrap32_dvd (i + numChars)
      have hrange := wrap32_range (i + numChars)
      unfold intMax at hle hsum hmax
      omega
    rw [if_neg (by omega)] at hchars
    omega
  have hwrap : wrap32 (i + numChars) = i + numChars := by
    unfold intMax at hsum
    exact wrap32_of_range (by omega) hsum
  have hmin : chars = min numChars (l.length - i) := by
    rw [hchars, hwrap]
    split <;> omega
  rw [← hmin]
  exact ⟨hsum, by omega, htrims⟩

/-! ## Searches -/

theorem Rep.findStr_meets (h : x.Rep l) (hagrees : Agrees grants x l (.findStr s i)) :
    (Op.findStr s i).Meets grants x l := by
  intro h₀ hi
  obtain ⟨k, rfl⟩ := Int.eq_ofNat_of_zero_le h₀
  have hk : k ≤ l.length := Int.ofNat_le.mp hi
  have hbad : ¬ ((k : Int) < 0 ∨ (l.length : Int) < k) := by omega
  obtain ⟨hstring, hbounds⟩ := h.string hk
  obtain ⟨v, x', hrun, hv⟩ := hagrees
  rw [Op.run, xstring.findStr, if_neg hbounds, hstring] at hrun
  cases hrun
  rcases hv with ⟨hv, -⟩ | ⟨-, -, hanswers⟩
  · cases hv
  rw [Op.Answers, if_neg hbad, Int.toNat_natCast] at hanswers
  obtain ⟨index, hindex, hfirst⟩ := hanswers
  cases hindex
  rcases hfirst with ⟨m, hm, hkm, hoccurs, -⟩ | ⟨-, hnot⟩
  · rcases strstr_cases (l.drop k) s with ⟨hnone, -⟩ | ⟨front, rest, hsome, hl, hstart, -⟩
    · rw [hnone] at hm
      change (-1 : Int) = m at hm
      omega
    · obtain ⟨hindex, hle⟩ := indexOf_append hk hl
      have hmax := h.le_intMax
      unfold intMax at hmax
      rw [hsome] at hm
      dsimp only at hm
      rw [hindex, wrap32_of_range (by omega) (by omega)] at hm
      obtain rfl : k = 0 := by omega
      obtain rfl : front = [] := List.eq_nil_of_length_eq_zero (by omega)
      rw [List.nil_append, List.drop_zero] at hl
      exact .inr ⟨rfl, hl ▸ hstart⟩
  · exact .inl fun j hj ↦ hnot j (Int.ofNat_le.mp hj)

/-! ## Operations -/

/-- The count of characters to delete is an `int`. -/
def Op.Counts : Op → Prop
  | deleteSubstring _ numChars => numChars ≤ intMax
  | _ => True

theorem rep_of_agrees {op : Op} (h : Agrees grants x l op) :
    ∃ v x' l', op.run grants x = some (v, x') ∧ x'.Rep l' := by
  obtain ⟨v, x', hrun, ⟨-, hrep⟩ | ⟨-, hrep, -⟩⟩ := h
  · exact ⟨v, x', l, hrun, hrep⟩
  · exact ⟨v, x', op.onList l, hrun, hrep⟩

theorem Op.meets_of_agrees {op : Op} (h : x.Rep l) (hdoc : op.Documented) (hcounts : op.Counts)
    (hagrees : Agrees grants x l op) : op.Meets grants x l := by
  obtain ⟨v, x', l', hrun, hrep⟩ := rep_of_agrees hagrees
  cases op with
  | assign s =>
    rw [Op.run, xstring.assign, strlen_eq hdoc.2] at hrun
    exact assigns_of_doCopy hrun hrep
  | append s =>
    rw [Op.run, xstring.append, strlen_eq hdoc.2] at hrun
    exact h.grows_of_doAdd hdoc.2 hrun hrep
  | appendLimited s maxLen =>
    rw [Op.run, xstring.appendLimited] at hrun
    by_cases hle : maxLen ≤ 0
    · rw [Op.Meets, Int.toNat_of_nonpos hle, List.take_zero, List.length_nil, Nat.cast_zero,
        Int.add_zero]
      exact ⟨h.le_intMax, .inl (h.len ▸ h.fits)⟩
    · rw [if_neg hle] at hrun
      dsimp only at hrun
      rw [length_limited s (by omega) hdoc.2] at hrun
      refine h.grows_of_doAdd ?_ hrun hrep
      have hmax := hdoc.2
      rw [List.length_take]
      omega
  | copyLimited s maxLen =>
    intro h₀
    rw [Op.run, xstring.copyLimited, if_neg (not_lt.mpr h₀)] at hrun
    dsimp only at hrun
    rw [length_limited s h₀ hdoc.2] at hrun
    exact assigns_of_doCopy hrun hrep
  | substring startIndex numChars => exact trivial
  | insert s index => exact fun h₀ hi ↦ h.grows_of_insert hdoc.2 h₀ hi hrun hrep
  | deleteSubstring startIndex numChars => exact h.deleteSubstring_meets hcounts hagrees
  | find c startIndex => exact trivial
  | findStr s startIndex => exact h.findStr_meets hagrees
  | detach =>
    obtain ⟨⟨v', x₁⟩, hcopy, hrun⟩ := Option.bind_eq_some_iff.mp hrun
    cases hrun
    rcases buffer_of_doCopy hcopy hrep with ⟨hbuf, -⟩ | hfirst | ⟨-, hsecond⟩
    · exact absurd rfl hbuf
    · exact .inl hfirst
    · exact .inr hsecond
  | attach s =>
    cases s with
    | some s => rfl
    | none =>
      obtain ⟨cells, ⟨hbuf, -, -⟩, -⟩ := h.owns
      rw [Op.run, xstring.attach, hbuf] at hrun
      cases hrun

/-- An operation does what it should exactly where it meets its condition. -/
theorem Op.agrees_iff {op : Op} (h : x.Rep l) (hdoc : op.Documented) (hcounts : op.Counts) :
    Agrees grants x l op ↔ op.Meets grants x l :=
  ⟨Op.meets_of_agrees h hdoc hcounts, Op.agrees h hdoc⟩

end xstring

end Upnp.Util
