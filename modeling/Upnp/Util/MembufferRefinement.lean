import Upnp.Lib.Machine
import Upnp.Util.Membuffer

/-!
# Memory buffers as lists of bytes

The invariant of a `membuffer`, what each operation does to its contents, and the
result over whole runs.
-/

namespace Upnp.Util

open Upnp.Lib

/-! ## Numbers -/

/-- The largest length, `MAX_INT`. -/
def MAX_INT : Nat := 2147483647

theorem size_t_natCast {n : Nat} (h : n < 18446744073709551616) : size_t (n : Int) = n := by
  rw [size_t]
  omega

theorem size_t_add {a b : Nat} (h : a + b < 18446744073709551616) :
    size_t ((a : Int) + b) = a + b := by
  rw [size_t]
  omega

theorem size_t_succ {a : Nat} (h : a + 1 < 18446744073709551616) : size_t ((a : Int) + 1) = a + 1 :=
  @size_t_add a 1 h

theorem size_t_sub {a b : Nat} (hle : b ≤ a) (h : a < 18446744073709551616) :
    size_t ((a : Int) - b) = a - b := by
  rw [size_t]
  omega

theorem wrap32_natCast {n : Nat} (h : n ≤ MAX_INT) : wrap32 (n : Int) = n := by
  rw [MAX_INT] at h
  exact wrap32_of_range (by omega) (by omega)

/-! ## Memory -/

variable {mem : Allocator} {buf bytes : List UInt8} {pos k n : Nat}

theorem length_realloc (old : Option (List UInt8)) (n : Nat) : (realloc mem old n).length = n := by
  rw [realloc, List.length_append, List.length_map, List.length_range, List.length_take]
  omega

theorem take_realloc {old : Option (List UInt8)} (hn : k ≤ n) (hold : k ≤ (old.getD []).length) :
    (realloc mem old n).take k = (old.getD []).take k := by
  have hlen : k ≤ ((old.getD []).take n).length := by
    rw [List.length_take]
    exact Nat.le_min.mpr ⟨hn, hold⟩
  rw [realloc, List.take_append_of_le_length hlen, List.take_take, Nat.min_eq_left hn]

/-- What is moved. -/
theorem length_take_drop (h : pos + k ≤ buf.length) : ((buf.drop pos).take k).length = k := by
  rw [List.length_take, List.length_drop]
  omega

theorem length_overwrite (h : pos + bytes.length ≤ buf.length) :
    (overwrite buf pos bytes).length = buf.length := by
  rw [overwrite, List.length_append, List.length_append, List.length_take, List.length_drop]
  omega

theorem take_overwrite (hk : k ≤ pos) (hpos : pos ≤ buf.length) :
    (overwrite buf pos bytes).take k = buf.take k := by
  have hlen : k ≤ (buf.take pos).length := by
    rw [List.length_take_of_le hpos]
    exact hk
  rw [overwrite, List.append_assoc, List.take_append_of_le_length hlen, List.take_take,
    Nat.min_eq_left hk]

theorem take_overwrite_end (hpos : pos ≤ buf.length) :
    (overwrite buf pos bytes).take (pos + bytes.length) = buf.take pos ++ bytes := by
  rw [overwrite]
  refine List.take_left' ?_
  rw [List.length_append, List.length_take_of_le hpos]

theorem drop_overwrite (hpos : pos ≤ buf.length) :
    (overwrite buf pos bytes).drop pos = bytes ++ buf.drop (pos + bytes.length) := by
  rw [overwrite, List.append_assoc]
  exact List.drop_left' (List.length_take_of_le hpos)

theorem getElem?_overwrite {b : UInt8} (hpos : pos ≤ buf.length) :
    (overwrite buf pos [b])[pos]? = some b := by
  rw [← List.head?_drop, drop_overwrite hpos]
  rfl

/-! ## The invariant -/

namespace membuffer

variable {m m' : membuffer}

/-- The bytes of the memory. -/
def memory (m : membuffer) : List UInt8 := m.buf.getD []

/-- The contents of the buffer. -/
def contents (m : membuffer) : List UInt8 := m.memory.take m.length

/-- The memory has room for the capacity and a NUL. -/
structure Room (m : membuffer) : Prop where
  le : m.length ≤ m.capacity
  buf : m.buf.isSome → m.capacity + 1 ≤ m.memory.length
  null : m.buf = none → m.capacity = 0
  size_inc : m.size_inc ≤ MAX_INT

/-- Between the operations, a NUL stands behind the contents. -/
structure Inv (m : membuffer) : Prop extends Room m where
  length_le : m.length ≤ MAX_INT
  nul : m.buf.isSome → m.memory[m.length]? = some 0

theorem Room.isSome (hm : m.Room) (hpos : 0 < m.capacity) : m.buf.isSome := by
  by_contra hnull
  exact hpos.ne' (hm.null (Option.not_isSome_iff_eq_none.mp hnull))

theorem Room.length_eq_zero (hm : m.Room) (hnull : ¬ m.buf.isSome) : m.length = 0 :=
  Nat.le_zero.mp (hm.null (Option.not_isSome_iff_eq_none.mp hnull) ▸ hm.le)

theorem write_of_le (hbuf : m.buf.isSome) (hle : pos + bytes.length ≤ m.capacity + 1)
    (hlen : m.capacity + 1 ≤ m.memory.length) :
    m.write pos bytes = some { m with buf := some (overwrite m.memory pos bytes) } := by
  obtain ⟨buf, hbuf⟩ := Option.isSome_iff_exists.mp hbuf
  rw [membuffer.memory, hbuf] at hlen ⊢
  rw [write, hbuf]
  exact if_pos ⟨hle, hle.trans hlen⟩

theorem write_some (hle : pos + bytes.length ≤ m.capacity + 1) (hlen : m.capacity + 1 ≤ buf.length) :
    ({ m with buf := some buf } : membuffer).write pos bytes =
      some { m with buf := some (overwrite buf pos bytes) } :=
  @write_of_le _ _ { m with buf := some buf } rfl hle hlen

theorem read_of_le (hbuf : m.buf.isSome) (hle : pos + n ≤ m.memory.length) :
    m.read pos n = some ((m.memory.drop pos).take n) := by
  obtain ⟨buf, hbuf⟩ := Option.isSome_iff_exists.mp hbuf
  rw [membuffer.memory, hbuf] at hle ⊢
  rw [read, hbuf]
  exact if_pos hle

/-! ## Allocation -/

/-- The memory of `m'` begins with that of `m`, as far as both have room. -/
structure Grown (m m' : membuffer) (new_length : Nat) : Prop where
  isSome : m'.buf.isSome
  length : m'.length = m.length
  size_inc : m'.size_inc = m.size_inc
  fits : new_length ≤ m'.capacity
  room : m'.capacity + 1 ≤ m'.memory.length
  take : ∀ k, k ≤ m.capacity + 1 → k ≤ m'.capacity + 1 → m.buf.isSome →
    m'.memory.take k = m.memory.take k

/-- The capacity that is asked for, if it has to change. -/
theorem alloc_len_cases {new_length : Nat} (hm : m.Room) (hnew : new_length ≤ MAX_INT) :
    alloc_len m new_length = none ∧ new_length ≤ m.capacity ∨
      ∃ len, alloc_len m new_length = some len ∧ new_length ≤ len ∧
        len + 1 < 18446744073709551616 := by
  have hinc := hm.size_inc
  have hle := hm.le
  rw [MAX_INT] at hnew hinc
  have hasked : ∀ n : Int, new_length ≤ n → n < 18446744073709551615 →
      new_length ≤ size_t n ∧ size_t n + 1 < 18446744073709551616 := by
    intro n hge hlt
    rw [size_t]
    omega
  rw [alloc_len]
  split
  · split
    · exact .inl ⟨rfl, by omega⟩
    · exact .inr ⟨_, rfl, hasked _ (by omega) (by omega)⟩
  · split
    · exact .inl ⟨rfl, by omega⟩
    · exact .inr ⟨_, rfl, hasked _ (by omega) (by omega)⟩

theorem grown_realloc {len new_length : Nat} (hm : m.Room) (hle : new_length ≤ len)
    (hlt : len + 1 < 18446744073709551616) :
    Grown m { m with buf := some (realloc mem m.buf (size_t (len + 1))), capacity := len }
      new_length := by
  refine ⟨rfl, rfl, rfl, hle, ?_, ?_⟩
  · rw [membuffer.memory, size_t_succ hlt]
    exact (length_realloc m.buf (len + 1)).ge
  · intro k hk hk' hsome
    rw [membuffer.memory, size_t_succ hlt]
    exact take_realloc hk' (hk.trans (hm.buf hsome))

/-- The memory is big enough, or it could not be had and nothing has changed. -/
theorem membuffer_set_size_spec {new_length : Nat} (hm : m.Room) (hnew : new_length ≤ MAX_INT)
    (hbuf : m.buf.isSome ∨ 0 < new_length) :
    (membuffer_set_size mem m new_length).1 = 0 ∧
        Grown m (membuffer_set_size mem m new_length).2 new_length ∨
      (mem.first = false ∧ mem.second = false) ∧
        membuffer_set_size mem m new_length = (UPNP_E_OUTOF_MEMORY, m) := by
  rw [membuffer_set_size]
  rcases alloc_len_cases hm hnew with ⟨hnone, hle⟩ | ⟨len, hlen, hle, hlt⟩
  · have hsome : m.buf.isSome := hbuf.elim id fun hpos ↦ hm.isSome (hpos.trans_le hle)
    rw [hnone]
    exact .inl ⟨rfl, hsome, rfl, rfl, hle, hm.buf hsome, fun _ _ _ _ ↦ rfl⟩
  · rw [hlen]
    dsimp only
    split
    · exact .inl ⟨rfl, grown_realloc hm hle hlt⟩
    · split
      · exact .inl ⟨rfl, grown_realloc hm le_rfl ((Nat.succ_le_succ hle).trans_lt hlt)⟩
      · rename_i hfirst hsecond
        exact .inr ⟨⟨Bool.eq_false_iff.mpr hfirst, Bool.eq_false_iff.mpr hsecond⟩, rfl⟩

theorem Grown.contents {new_length : Nat} (h : Grown m m' new_length) (hm : m.Room)
    (hle : m.length ≤ new_length) : m'.memory.take m.length = m.contents := by
  by_cases hsome : m.buf.isSome
  · have hfits := h.fits
    have hroom := hm.le
    exact h.take m.length (by omega) (by omega) hsome
  · rw [membuffer.contents, hm.length_eq_zero hsome]
    rfl

/-- The memory after a NUL is written behind the first `n` bytes. -/
theorem inv_terminated (hn : n ≤ MAX_INT) (hfits : n ≤ m.capacity)
    (hroom : m.capacity + 1 ≤ buf.length) (hinc : m.size_inc ≤ MAX_INT) :
    ({ m with buf := some (overwrite buf n [0]), length := n } : membuffer).Inv where
  le := hfits
  buf _ := hroom.trans (length_overwrite (by simp only [List.length_singleton]; omega)).ge
  null h := nomatch h
  size_inc := hinc
  length_le := hn
  nul _ := getElem?_overwrite (by omega)

theorem contents_terminated (hfits : n ≤ m.capacity) (hroom : m.capacity + 1 ≤ buf.length) :
    ({ m with buf := some (overwrite buf n [0]), length := n } : membuffer).contents =
      buf.take n :=
  take_overwrite le_rfl (by omega)

/-- The end of an operation: the NUL is written behind the new length. -/
theorem terminate (hsome : m.buf.isSome) (hn : n ≤ MAX_INT) (hfits : n ≤ m.capacity)
    (hroom : m.capacity + 1 ≤ m.memory.length) (hinc : m.size_inc ≤ MAX_INT) :
    ∃ m', ({ m with length := n } : membuffer).write n [0] = some m' ∧ m'.Inv ∧
      m'.contents = m.memory.take n :=
  ⟨_, @write_of_le _ _ { m with length := n } hsome (Nat.succ_le_succ hfits) hroom,
    inv_terminated hn hfits hroom hinc, contents_terminated hfits hroom⟩

/-! ## The operations -/

/-- An operation succeeds and the contents are as said, or memory runs out or the index is out of
bounds, and nothing has changed. -/
def Agrees (mem : Allocator) (m : membuffer) (expected : Option (List UInt8))
    (result : Option (Int × membuffer)) : Prop :=
  ∃ code m', result = some (code, m') ∧
    (code = 0 ∧ m'.Inv ∧ expected = some m'.contents ∨
      code = UPNP_E_OUTOF_MEMORY ∧ (mem.first = false ∧ mem.second = false) ∧ m' = m ∨
      code = UPNP_E_OUTOF_BOUNDS ∧ expected = none ∧ m' = m)

theorem agrees_zero {expected : List UInt8} (hm : m'.Inv) (hcontents : m'.contents = expected) :
    Agrees mem m (some expected) (some (0, m')) :=
  ⟨0, m', rfl, .inl ⟨rfl, hm, congrArg some hcontents.symm⟩⟩

theorem agrees_outOfMemory {expected : Option (List UInt8)}
    (hfail : mem.first = false ∧ mem.second = false) :
    Agrees mem m expected (some (UPNP_E_OUTOF_MEMORY, m)) :=
  ⟨_, m, rfl, .inr (.inl ⟨rfl, hfail, rfl⟩)⟩

theorem inv_null (h : m.size_inc ≤ MAX_INT) : ( membuffer_initialize m).Inv where
  le := le_rfl
  buf h := nomatch h
  null _ := rfl
  size_inc := h
  length_le := Nat.zero_le _
  nul h := nomatch h

theorem inv_init : (membuffer_init m).Inv :=
  inv_null (Nat.le_of_ble_eq_true rfl)

/-- Zero bytes may be assigned only when there is memory. -/
theorem membuffer_assign_spec (hm : m.Inv) (hlen : bytes.length ≤ MAX_INT)
    (hbuf : m.buf.isSome ∨ bytes ≠ []) :
    Agrees mem m (some bytes) (membuffer_assign mem m (some bytes)) := by
  rw [membuffer_assign]
  rcases @membuffer_set_size_spec mem m _ hm.toRoom hlen
    (hbuf.imp_right List.length_pos_iff.mpr) with ⟨hcode, hgrown⟩ | ⟨hfail, hsame⟩
  · obtain ⟨hsome, -, hinc, hfits, hroom, -⟩ := hgrown
    generalize membuffer_set_size mem m bytes.length = r at *
    obtain ⟨code, m₁⟩ := r
    dsimp only at *
    subst hcode
    have hroom₂ := hroom.trans (@length_overwrite m₁.memory bytes 0 (by omega)).ge
    rw [if_neg (not_not_intro rfl), write_of_le hsome (by omega) hroom, Option.bind_eq_bind,
      Option.bind_some, write_some (Nat.succ_le_succ hfits) hroom₂, Option.bind_some]
    refine agrees_zero ?_ ?_
    · exact inv_terminated hlen hfits hroom₂ (hinc ▸ hm.size_inc)
    · refine (contents_terminated hfits hroom₂).trans ?_
      have htake := @take_overwrite_end m₁.memory bytes 0 (Nat.zero_le _)
      rw [Nat.zero_add] at htake
      exact htake
  · rw [hsame]
    exact agrees_outOfMemory hfail

/-- The bytes to the right are moved, and the new ones are copied in front of them. -/
theorem take_overwrite_insert {i : Nat} (hi : i ≤ n)
    (hroom : n + bytes.length + 1 ≤ buf.length) :
    (overwrite (overwrite buf (i + bytes.length) ((buf.drop i).take (n - i))) i bytes).take
        (n + bytes.length) = (buf.take n).take i ++ bytes ++ (buf.take n).drop i := by
  have hright : ((buf.drop i).take (n - i)).length = n - i := length_take_drop (by omega)
  have hend : n + bytes.length = i + (bytes.length + (n - i)) := by omega
  have hdrop := @drop_overwrite buf ((buf.drop i).take (n - i)) (i + bytes.length) (by omega)
  have hlen := @length_overwrite buf ((buf.drop i).take (n - i)) (i + bytes.length) (by omega)
  rw [hend, List.take_add, drop_overwrite (by omega), hdrop, take_overwrite le_rfl (by omega),
    take_overwrite (by omega) (by omega), List.take_length_add_append, List.take_left' hright,
    List.take_take, Nat.min_eq_left hi, List.drop_take, List.append_assoc]

/-- The contents after an insertion; `none` when the index is out of bounds. -/
def insertAt (contents : List UInt8) (index : Int) (bytes : List UInt8) : Option (List UInt8) :=
  if 0 ≤ index ∧ index ≤ contents.length then
    some (contents.take index.toNat ++ bytes ++ contents.drop index.toNat)
  else none

theorem Inv.length_contents (hm : m.Inv) : m.contents.length = m.length := by
  refine List.length_take_of_le ?_
  by_cases hsome : m.buf.isSome
  · have hroom := hm.buf hsome
    have hle := hm.le
    omega
  · rw [hm.length_eq_zero hsome]
    exact Nat.zero_le _

/-- The insertion, when there is memory. -/
theorem insertData_spec {i : Nat} (hm : m.Inv) (hlen : m.length + bytes.length ≤ MAX_INT)
    (hgrown : Grown m m' (m.length + bytes.length)) (hi : i ≤ m.length) :
    ∃ m'', insertData m' bytes i = some m'' ∧ m''.Inv ∧
      m''.contents = m.contents.take i ++ bytes ++ m.contents.drop i := by
  have hcontents := hgrown.contents hm.toRoom (Nat.le_add_right _ _)
  obtain ⟨hsome, hlength, hinc, hfits, hroom, -⟩ := hgrown
  have hmax := hlen
  rw [MAX_INT] at hmax
  have hright : ((m'.memory.drop i).take (m.length - i)).length = m.length - i :=
    length_take_drop (by omega)
  have hroom₁ := hroom.trans (@length_overwrite m'.memory _ (i + bytes.length)
    (by rw [hright]; omega)).ge
  have hroom₂ := hroom₁.trans (@length_overwrite (overwrite m'.memory (i + bytes.length)
    ((m'.memory.drop i).take (m.length - i))) bytes i (by omega)).ge
  rw [insertData, hlength, size_t_sub hi (by omega), size_t_add (by omega),
    read_of_le hsome (by omega), Option.bind_eq_bind, Option.bind_some,
    write_of_le hsome (by omega) hroom, Option.bind_eq_bind, Option.bind_some,
    write_some (Nat.le_trans (by omega) (Nat.le_succ_of_le hfits)) hroom₁,
    Option.bind_some]
  dsimp only
  rw [hlength, size_t_add (by omega)]
  rw [@write_some _ [0] _ { m' with length := m.length + bytes.length } (Nat.succ_le_succ hfits) hroom₂]
  refine ⟨_, rfl, inv_terminated hlen hfits hroom₂ (hinc ▸ hm.size_inc), ?_⟩
  refine (contents_terminated hfits hroom₂).trans ?_
  rw [← hcontents]
  exact take_overwrite_insert hi (by omega)

theorem membuffer_insert_spec {index : Int} (hm : m.Inv)
    (hlen : m.length + bytes.length ≤ MAX_INT) :
    Agrees mem m (insertAt m.contents index bytes) (membuffer_insert mem m (some bytes) index) := by
  rw [membuffer_insert, wrap32_natCast hm.length_le, insertAt, hm.length_contents]
  by_cases hout : index < 0 ∨ (m.length : Int) < index
  · rw [if_pos hout, if_neg (by omega)]
    exact ⟨_, m, rfl, .inr (.inr ⟨rfl, rfl, rfl⟩)⟩
  · obtain ⟨i, rfl⟩ : ∃ i : Nat, index = i := ⟨index.toNat, by omega⟩
    have hi : i ≤ m.length := by omega
    rw [if_neg hout, if_pos (by omega), Int.toNat_natCast]
    dsimp only
    by_cases hzero : bytes.length = 0
    · rw [if_pos hzero, List.length_eq_zero_iff.mp hzero, List.append_nil,
        List.take_append_drop]
      exact agrees_zero hm rfl
    · have hmax := hlen
      rw [MAX_INT] at hmax
      rw [if_neg hzero, size_t_add (by omega), size_t_natCast (by omega)]
      rcases @membuffer_set_size_spec mem m _ hm.toRoom hlen (.inr (by omega)) with
        ⟨hcode, hgrown⟩ | ⟨hfail, hsame⟩
      · obtain ⟨m'', hdata, hinv, hcontents⟩ := insertData_spec hm hlen hgrown hi
        generalize membuffer_set_size mem m (m.length + bytes.length) = r at *
        obtain ⟨code, m₁⟩ := r
        dsimp only at *
        subst hcode
        rw [if_neg (not_not_intro rfl), hdata]
        exact agrees_zero hinv hcontents
      · rw [hsame]
        exact agrees_outOfMemory hfail

/-- The bytes to the right are moved over those that are deleted. -/
theorem take_overwrite_delete {i : Nat} (hi : i ≤ n) (hn : n ≤ buf.length)
    (hk : bytes = (buf.take n).drop (i + k)) :
    (overwrite buf i bytes).take (i + bytes.length) =
      (buf.take n).take i ++ (buf.take n).drop (i + k) := by
  rw [take_overwrite_end (hi.trans hn), List.take_take, Nat.min_eq_left hi, hk]

theorem deleteData_spec {i : Nat} (hm : m.Inv) (hk : i + k ≤ m.length) (hpos : 0 < m.length) :
    ∃ m', deleteData mem m i k (m.length - (i + k)) = some m' ∧ m'.Inv ∧
      m'.contents = m.contents.take i ++ m.contents.drop (i + k) := by
  have hmax := hm.length_le
  rw [MAX_INT] at hmax
  have hle := hm.le
  have hsome := hm.isSome (hpos.trans_le hle)
  have hroom := hm.buf hsome
  have hright : ((m.memory.drop (i + k)).take (m.length - (i + k))).length = m.length - (i + k) :=
    length_take_drop (by omega)
  have hroom₁ := hroom.trans (@length_overwrite m.memory _ i (by rw [hright]; omega)).ge
  have htake := @take_overwrite_delete m.memory ((m.memory.drop (i + k)).take (m.length - (i + k)))
    k m.length i (by omega) (by omega) (List.drop_take ..).symm
  have hnew : size_t (wrap32 (size_t ((m.length : Int) - k))) = m.length - k := by
    rw [size_t_sub (by omega) (by omega), wrap32_natCast (by rw [MAX_INT]; omega),
      size_t_natCast (by omega)]
  rw [deleteData, size_t_add (by omega), read_of_le hsome (by omega), Option.bind_eq_bind,
    Option.bind_some, write_of_le hsome (by omega) hroom, Option.bind_eq_bind, Option.bind_some]
  dsimp only
  rw [hnew]
  generalize overwrite m.memory i _ = buf₁ at hroom₁ htake
  have hend : i + (m.length - (i + k)) = m.length - k := by omega
  rw [hright, hend] at htake
  have hm₁ : ({ m with buf := some buf₁ } : membuffer).Room :=
    ⟨hle, fun _ ↦ hroom₁, (nomatch ·), hm.size_inc⟩
  rcases @membuffer_set_size_spec mem { m with buf := some buf₁ } (m.length - k) hm₁
    (by rw [MAX_INT]; omega) (.inl rfl) with ⟨-, hgrown⟩ | ⟨-, hsame⟩
  · obtain ⟨m', hwrite, hinv, hcontents⟩ := terminate hgrown.isSome
      (by rw [MAX_INT]; omega) hgrown.fits hgrown.room (hgrown.size_inc.le.trans hm.size_inc)
    refine ⟨m', hwrite, hinv, hcontents.trans ?_⟩
    have hfits := hgrown.fits
    rw [hgrown.take (m.length - k) (Nat.le_trans (by omega) (Nat.le_succ_of_le hle))
      (Nat.le_succ_of_le hfits) rfl]
    exact htake
  · rw [hsame]
    obtain ⟨m', hwrite, hinv, hcontents⟩ := @terminate (m.length - k) { m with buf := some buf₁ } rfl
      (by rw [MAX_INT]; omega) (Nat.le_trans (Nat.sub_le _ _) hle) hroom₁ hm.size_inc
    exact ⟨m', hwrite, hinv, hcontents.trans htake⟩

/-- The number of bytes may be any that does not wrap around together with the index. -/
theorem membuffer_delete_spec {index : Int} {num_bytes : Nat} (hm : m.Inv)
    (hindex : m.length ≠ 0 → 0 ≤ index ∧ index < m.length)
    (hwrap : m.length = 0 ∨ index + num_bytes < 18446744073709551616) :
    ∃ m', membuffer_delete mem m index num_bytes = some m' ∧ m'.Inv ∧
      m'.contents = m.contents.take index.toNat ++ m.contents.drop (index.toNat + num_bytes) := by
  rw [membuffer_delete]
  by_cases hzero : m.length = 0
  · have hnil : m.contents = [] := by rw [contents, hzero, List.take_zero]
    rw [if_pos hzero]
    exact ⟨m, rfl, hm, by rw [hnil, List.take_nil, List.drop_nil, List.append_nil]⟩
  · obtain ⟨hpos, hlt⟩ := hindex hzero
    have hwrap := hwrap.resolve_left hzero
    obtain ⟨i, rfl⟩ : ∃ i : Nat, index = i := ⟨index.toNat, by omega⟩
    have hmax := hm.length_le
    rw [MAX_INT] at hmax
    rw [if_neg hzero, Int.toNat_natCast, size_t_add (by omega), size_t_natCast (by omega)]
    split
    · rename_i hbeyond
      have hspec := @deleteData_spec mem (m.length - i) m i hm (by omega) (by omega)
      rw [Nat.add_sub_cancel' (by omega), Nat.sub_self] at hspec
      rw [size_t_sub (by omega) (by omega)]
      have hnil : m.contents.drop (i + num_bytes) = m.contents.drop m.length := by
        rw [List.drop_eq_nil_of_le (hm.length_contents ▸ hbeyond.le),
          List.drop_eq_nil_of_le hm.length_contents.le]
      rw [hnil]
      exact hspec
    · rw [size_t_sub (by omega) (by omega)]
      exact deleteData_spec hm (by omega) (by omega)

/-- Without a source there is nothing to insert. -/
theorem membuffer_insert_agrees {src : Option (List UInt8)} {index : Int} (hm : m.Inv)
    (hlen : m.length + (src.getD []).length ≤ MAX_INT) :
    Agrees mem m (insertAt m.contents index (src.getD [])) (membuffer_insert mem m src index) := by
  cases src with
  | some bytes => exact membuffer_insert_spec hm hlen
  | none =>
    have hspec := @membuffer_insert_spec mem [] m index hm hlen
    rw [membuffer_insert.eq_def] at hspec ⊢
    exact hspec

theorem membuffer_append_agrees {src : Option (List UInt8)} (hm : m.Inv)
    (hlen : m.length + (src.getD []).length ≤ MAX_INT) :
    Agrees mem m (some (m.contents ++ src.getD [])) (membuffer_append mem m src) := by
  have hspec := @membuffer_insert_agrees mem m src (wrap32 m.length) hm hlen
  rw [wrap32_natCast hm.length_le, insertAt, hm.length_contents,
    if_pos ⟨Int.natCast_nonneg _, le_rfl⟩, Int.toNat_natCast,
    List.take_of_length_le hm.length_contents.le,
    List.drop_eq_nil_of_le hm.length_contents.le, List.append_nil] at hspec
  rw [membuffer_append, wrap32_natCast hm.length_le]
  exact hspec

theorem Grown.inv {new_length : Nat} (h : Grown m m' new_length) (hm : m.Inv)
    (hsome : m.buf.isSome) (hle : m.length ≤ new_length) :
    m'.Inv ∧ m'.contents = m.contents := by
  have hcap := hm.le
  have hfits := h.fits
  constructor
  · refine ⟨⟨?_, fun _ ↦ h.room, ?_, ?_⟩, ?_, fun _ ↦ ?_⟩
    · rw [h.length]
      exact hle.trans hfits
    · intro hnull
      have hsome' := h.isSome
      rw [hnull] at hsome'
      cases hsome'
    · exact h.size_inc.le.trans hm.size_inc
    · exact h.length.le.trans hm.length_le
    · have htake := h.take (m.length + 1) (by omega) (by omega) hsome
      have hget := congrArg (·[m.length]?) htake
      simp only [List.getElem?_take, Nat.lt_succ_self, if_true] at hget
      rw [h.length, hget]
      exact hm.nul hsome
  · rw [← h.contents hm.toRoom hle, membuffer.contents, h.length]

/-- Setting the size neither shrinks the memory below the contents nor gives the first memory. -/
theorem membuffer_set_size_inv {new_length : Nat} (hm : m.Inv) (hnew : new_length ≤ MAX_INT)
    (hset : alloc_len m new_length = none ∨ m.buf.isSome ∧ m.length ≤ new_length) :
    Agrees mem m (some m.contents) (some (membuffer_set_size mem m new_length)) := by
  rcases hset with hnone | ⟨hsome, hle⟩
  · rw [membuffer_set_size, hnone]
    exact agrees_zero hm rfl
  · rcases @membuffer_set_size_spec mem m _ hm.toRoom hnew (.inl hsome) with
      ⟨hcode, hgrown⟩ | ⟨hfail, hsame⟩
    · obtain ⟨hinv, hcontents⟩ := hgrown.inv hm hsome hle
      exact ⟨_, _, rfl, .inl ⟨hcode, hinv, congrArg some hcontents.symm⟩⟩
    · rw [hsame]
      exact agrees_outOfMemory hfail

theorem membuffer_attach_inv {new_buf : Option (List UInt8)} {buf_len : Nat}
    (hlen : buf_len ≤ MAX_INT) (hnull : new_buf = none → buf_len = 0)
    (hnul : ∀ buf, new_buf = some buf → buf[buf_len]? = some 0) :
    (membuffer_attach m new_buf buf_len).Inv where
  le := le_rfl
  buf h := by
    obtain ⟨buf, hbuf⟩ := Option.isSome_iff_exists.mp h
    have hlt := (List.getElem?_eq_some_iff.mp (hnul buf hbuf)).1
    rw [membuffer.memory, hbuf]
    exact hlt
  null := hnull
  size_inc := Nat.le_of_ble_eq_true rfl
  length_le := hlen
  nul h := by
    obtain ⟨buf, hbuf⟩ := Option.isSome_iff_exists.mp h
    rw [membuffer.memory, hbuf]
    exact hnul buf hbuf

end membuffer

/-! ## Runs -/

/-- An operation on a buffer, and the assignment to `size_inc` that its users make. -/
inductive Op where
  | init
  | set_size (new_length : Nat)
  | assign (buf : Option (List UInt8))
  | append (buf : Option (List UInt8))
  | append_str (c_str : List UInt8)
  | insert (buf : Option (List UInt8)) (index : Int)
  | delete (index : Int) (num_bytes : Nat)
  | detach
  | attach (new_buf : Option (List UInt8)) (buf_len : Nat)
  | destroy
  | size_inc (value : Nat)

namespace Op

/-- The operation on the buffer, with the code that it returns, or `0`. -/
def run (mem : Allocator) (m : membuffer) : Op → Option (Int × membuffer)
  | init => some (0, membuffer_init m)
  | set_size new_length => some (membuffer_set_size mem m new_length)
  | assign buf => membuffer_assign mem m buf
  | append buf => membuffer_append mem m buf
  | append_str c_str => membuffer_append_str mem m c_str
  | insert buf index => membuffer_insert mem m buf index
  | delete index num_bytes => (membuffer_delete mem m index num_bytes).map (0, ·)
  | detach => some (0, membuffer_detach m)
  | attach new_buf buf_len => some (0, membuffer_attach m new_buf buf_len)
  | destroy => some (0, membuffer_destroy m)
  | size_inc value => some (0, { m with size_inc := value })

/-- The operation on a list of bytes; `none` when an index is out of bounds. -/
def onList (contents : List UInt8) : Op → Option (List UInt8)
  | init => some []
  | set_size _ => some contents
  | assign buf => some (buf.getD [])
  | append buf => some (contents ++ buf.getD [])
  | append_str c_str => some (contents ++ c_str.takeWhile (· ≠ 0))
  | insert buf index => membuffer.insertAt contents index (buf.getD [])
  | delete index num_bytes =>
    some (contents.take index.toNat ++ contents.drop (index.toNat + num_bytes))
  | detach => some []
  | attach new_buf buf_len => some ((new_buf.getD []).take buf_len)
  | destroy => some []
  | size_inc _ => some contents

/-- What is documented of the arguments: no length is over `MAX_INT`, what is deleted begins in
the buffer, the memory that is attached is there, and `size_inc` is positive. -/
def Documented (m : membuffer) : Op → Prop
  | set_size new_length => new_length ≤ MAX_INT
  | assign buf => (buf.getD []).length ≤ MAX_INT
  | append buf => m.length + (buf.getD []).length ≤ MAX_INT
  | append_str c_str => m.length + (c_str.takeWhile (· ≠ 0)).length ≤ MAX_INT
  | insert buf _ => m.length + (buf.getD []).length ≤ MAX_INT
  | delete index num_bytes =>
    (m.length ≠ 0 → 0 ≤ index ∧ index < m.length) ∧ num_bytes < 18446744073709551616
  | attach new_buf buf_len => buf_len ≤ MAX_INT ∧ buf_len ≤ (new_buf.getD []).length
  | size_inc value => 0 < value ∧ value ≤ MAX_INT
  | _ => True

/-- The steps on which the code keeps its promise: `set_size` has nothing to do or grows memory
that is there, zero bytes are not assigned where there is no memory, index and number of a
deletion do not wrap around together, and memory that is attached ends with a NUL. -/
def Meets (m : membuffer) : Op → Prop
  | set_size new_length =>
    alloc_len m new_length = none ∨ m.buf.isSome ∧ m.length ≤ new_length
  | assign buf => m.buf.isSome ∨ buf ≠ some []
  | delete index num_bytes => m.length = 0 ∨ index + num_bytes < 18446744073709551616
  | attach new_buf buf_len => ∀ buf, new_buf = some buf → buf[buf_len]? = some 0
  | _ => True

end Op

variable {mem : Allocator} {m : membuffer} {op : Op}

/-- One operation. -/
theorem Op.run_agrees (hm : m.Inv) (hdoc : op.Documented m) (hmeets : op.Meets m) :
    membuffer.Agrees mem m (op.onList m.contents) (op.run mem m) := by
  cases op with
  | init => exact membuffer.agrees_zero membuffer.inv_init rfl
  | set_size new_length => exact membuffer.membuffer_set_size_inv hm hdoc hmeets
  | assign buf =>
    cases buf with
    | none => exact membuffer.agrees_zero membuffer.inv_init rfl
    | some bytes =>
      exact membuffer.membuffer_assign_spec hm hdoc (hmeets.imp_right (mt (congrArg some)))
  | append buf => exact membuffer.membuffer_append_agrees hm hdoc
  | append_str c_str =>
    exact @membuffer.membuffer_append_agrees _ _ (some (c_str.takeWhile (· ≠ 0))) hm hdoc
  | insert buf index => exact membuffer.membuffer_insert_agrees hm hdoc
  | delete index num_bytes =>
    obtain ⟨m', hdelete, hinv, hcontents⟩ :=
      membuffer.membuffer_delete_spec hm hdoc.1 hmeets
    rw [Op.run, hdelete]
    exact membuffer.agrees_zero hinv hcontents
  | detach => exact membuffer.agrees_zero (membuffer.inv_null hm.size_inc) rfl
  | attach new_buf buf_len =>
    obtain ⟨hlen, hle⟩ := hdoc
    refine membuffer.agrees_zero (membuffer.membuffer_attach_inv hlen ?_ hmeets) rfl
    rintro rfl
    exact Nat.le_zero.mp hle
  | destroy => exact membuffer.agrees_zero membuffer.inv_init rfl
  | size_inc value =>
    exact membuffer.agrees_zero ⟨⟨hm.le, hm.buf, hm.null, hdoc.2⟩, hm.length_le, hm.nul⟩ rfl

/-- What the allocator answers, and the operation. -/
abbrev Step := Allocator × Op

/-- A buffer, and the list of bytes that it stands for: the list does what the buffer does, unless
the buffer returns an error. -/
def machine : Machine (membuffer × List UInt8) Step where
  init s := ∃ garbage, s = (membuffer_init garbage, [])
  step s l := do
    let (code, m) ← l.2.run l.1 s.1
    if code = 0 then
      let contents ← l.2.onList s.2
      some (m, contents)
    else some (m, s.2)

/-- What is documented of a step. -/
def documented (s : membuffer × List UInt8) (l : Step) : Prop := l.2.Documented s.1

/-- The buffer stands for its list, there is room for the contents and a NUL, which is there, and
every documented operation that meets the condition stays in the memory, and if it returns an error
it changes nothing. -/
def Stands (ok : membuffer × List UInt8 → Step → Prop) (s : membuffer × List UInt8) : Prop :=
  s.1.Inv ∧ s.1.contents = s.2 ∧
    ∀ l, ok s l → membuffer.Agrees l.1 s.1 (l.2.onList s.2) (l.2.run l.1 s.1)

/-- The steps that are documented and on which the code keeps its promise. -/
def meets (s : membuffer × List UInt8) (l : Step) : Prop := documented s l ∧ l.2.Meets s.1

theorem run_agrees_of_meets {s : membuffer × List UInt8} {l : Step} (hinv : s.1.Inv)
    (hcontents : s.1.contents = s.2) (hmeets : meets s l) :
    membuffer.Agrees l.1 s.1 (l.2.onList s.2) (l.2.run l.1 s.1) := by
  rw [← hcontents]
  exact Op.run_agrees hinv hmeets.1 hmeets.2

theorem stands_inductive :
    machine.Inductive meets fun s ↦ s.1.Inv ∧ s.1.contents = s.2 where
  init := by
    rintro s ⟨garbage, rfl⟩
    exact ⟨membuffer.inv_init, rfl⟩
  step := by
    rintro s l s' ⟨hinv, hcontents⟩ hmeets hstep
    obtain ⟨code, m, hrun, hcode⟩ := run_agrees_of_meets hinv hcontents hmeets
    obtain ⟨r, hr, hstep⟩ := Option.bind_eq_some_iff.mp hstep
    rw [hrun] at hr
    cases hr
    rcases hcode with ⟨rfl, hinv', hlist⟩ | ⟨rfl, -, rfl⟩ | ⟨rfl, -, rfl⟩
    · rw [hlist] at hstep
      cases hstep
      exact ⟨hinv', rfl⟩
    · cases hstep
      exact ⟨hinv, hcontents⟩
    · cases hstep
      exact ⟨hinv, hcontents⟩

theorem membuffer_refines {s : membuffer × List UInt8} (h : machine.Reach meets s) :
    Stands meets s := by
  obtain ⟨hinv, hcontents⟩ := h.invariant stands_inductive
  exact ⟨hinv, hcontents, fun l ↦ run_agrees_of_meets hinv hcontents⟩

theorem membuffer_refines_append :
    Stands meets (⟨some [65, 66, 0, 7, 7, 7], 2, 5, 5⟩, [65, 66]) := by
  have hinit : machine.Reach meets (⟨none, 0, 0, 5⟩, []) := .init ⟨⟨none, 0, 0, 0⟩, rfl⟩
  have hmeets : meets (⟨none, 0, 0, 5⟩, []) (⟨true, true, fun _ ↦ 7⟩, .append_str [65, 66]) := by
    refine ⟨?_, trivial⟩
    exact (by decide : 0 + ([65, 66].takeWhile fun c : UInt8 ↦ c ≠ 0).length ≤ MAX_INT)
  exact membuffer_refines (hinit.step hmeets (by decide +kernel))

/-- Zero bytes that are assigned to a fresh buffer: the NUL is written through the `NULL`. -/
theorem assign_empty : ¬ ∀ s, machine.Reach documented s → Stands documented s := by
  intro h
  obtain ⟨-, -, hagrees⟩ := h _ (.init ⟨⟨none, 0, 0, 0⟩, rfl⟩)
  obtain ⟨code, m, hrun, -⟩ :=
    hagrees (⟨true, true, fun _ ↦ 0⟩, .assign (some [])) (Nat.zero_le _)
  cases hrun

end Upnp.Util
