import Upnp.Lib.Heap

/-!
# Pointers and `malloc`

A pointer is a number of 64 bits, with the arithmetic that wraps around.  A block in use stands
in the heap under its address.  The address of a block from `malloc` is not null, and none of its
bytes is a byte of another block.
-/

namespace Upnp.Lib

universe u

/-- A pointer, on a machine with 64 bits. -/
abbrev Pointer := BitVec 64

namespace Pointer

def NULL : Pointer := 0

/-- The pointer is to one of the `n` bytes from `base` on. -/
def Within (p base : Pointer) (n : Nat) : Prop := (p - base).toNat < n

/-- Neither of two blocks begins in the other one. -/
def Apart (p : Pointer) (n : Nat) (q : Pointer) (k : Nat) : Prop :=
  ¬ p.Within q k ∧ ¬ q.Within p n

/-- The pointer that is as far behind `new` as `p` is behind `old`. -/
def rebase (old new p : Pointer) : Pointer := new + (p - old)

instance (p base : Pointer) (n : Nat) : Decidable (p.Within base n) :=
  inferInstanceAs (Decidable (_ < _))

instance (p : Pointer) (n : Nat) (q : Pointer) (k : Nat) : Decidable (p.Apart n q k) :=
  inferInstanceAs (Decidable (_ ∧ _))

variable {p q base old new : Pointer} {n k : Nat}

/-- Blocks that are apart have no byte in common. -/
theorem Apart.notWithin {a : Pointer} (h : p.Apart n q k) (ha : a.Within p n) :
    ¬ a.Within q k := by
  intro hq
  obtain ⟨hpq, hqp⟩ := h
  unfold Within at *
  -- of two blocks that share a byte, the one that begins later begins in the other one
  rcases Nat.le_total (a - p).toNat (a - q).toNat with hle | hle
  · apply hpq
    have hsub : p - q = (a - q) - (a - p) := by bv_omega
    rw [hsub, BitVec.toNat_sub_of_le hle]
    exact Nat.lt_of_le_of_lt (Nat.sub_le _ _) hq
  · apply hqp
    have hsub : q - p = (a - p) - (a - q) := by bv_omega
    rw [hsub, BitVec.toNat_sub_of_le hle]
    exact Nat.lt_of_le_of_lt (Nat.sub_le _ _) ha

@[simp] theorem rebase_sub (old new p : Pointer) : rebase old new p - new = p - old := by
  unfold rebase
  bv_omega

theorem within_rebase : (rebase old new p).Within new n ↔ p.Within old n := by
  rw [Within, rebase_sub]
  exact Iff.rfl

end Pointer

/-! ## Blocks that were allocated -/

section

variable {β : Type u}

/-- The second memory has the blocks of the first one and, besides them, blocks at `ps`. -/
structure Grown (m m' : Heap β) (ps : List Pointer) : Prop where
  nodup : ps.Nodup
  unused : ∀ p ∈ ps, m.get p.toNat = none
  used : ∀ p ∈ ps, m'.get p.toNat ≠ none
  same : ∀ a, (∀ p ∈ ps, a ≠ p.toNat) → m'.get a = m.get a

namespace Grown

variable {m m' m'' : Heap β} {p : Pointer} {ps : List Pointer} {block : β}

theorem refl (m : Heap β) : Grown m m [] where
  nodup := List.nodup_nil
  unused := nofun
  used := nofun
  same _ _ := rfl

/-- A block of the first memory is one of the second. -/
theorem get (h : Grown m m' ps) {a : Addr} (hget : m.get a = some block) :
    m'.get a = some block := by
  refine (h.same a fun p hp ha ↦ ?_).trans hget
  rw [ha, h.unused p hp] at hget
  cases hget

theorem unchanged_iff (h : Grown m m' ps) : (∀ a, m'.get a = m.get a) ↔ ps = [] := by
  constructor
  · intro hsame
    refine List.eq_nil_iff_forall_not_mem.mpr fun p hp ↦ h.used p hp ?_
    rw [hsame, h.unused p hp]
  · rintro rfl a
    exact h.same a nofun

/-- A write to a block that was allocated. -/
theorem set (h : Grown m m' ps) (hp : p ∈ ps) (hset : m'.set p.toNat block = some m'') :
    Grown m m'' ps := by
  unfold Heap.set at hset
  split at hset
  · cases hset
    refine ⟨h.nodup, h.unused, fun q hq ↦ ?_, fun a ha ↦ ?_⟩
    · rw [Heap.get_insert]
      split
      · exact Option.some_ne_none _
      · exact h.used q hq
    · rw [Heap.get_insert, if_neg (ha p hp)]
      exact h.same a ha
  · cases hset

theorem perm {qs : List Pointer} (h : Grown m m' ps) (hperm : ps.Perm qs) : Grown m m' qs where
  nodup := hperm.nodup_iff.mp h.nodup
  unused p hp := h.unused p (hperm.mem_iff.mpr hp)
  used p hp := h.used p (hperm.mem_iff.mpr hp)
  same a ha := h.same a fun p hp ↦ ha p (hperm.mem_iff.mp hp)

theorem free (h : Grown m m' (p :: ps)) :
    ∃ m'', m'.free p.toNat = some m'' ∧ Grown m m'' ps := by
  obtain ⟨hunused, hrest⟩ := List.forall_mem_cons.mp h.unused
  obtain ⟨hused, hrest'⟩ := List.forall_mem_cons.mp h.used
  obtain ⟨hnotMem, hnodup⟩ := List.nodup_cons.mp h.nodup
  obtain ⟨block, hblock⟩ := Option.ne_none_iff_exists'.mp hused
  refine ⟨_, Heap.free_of_get hblock, hnodup, hrest, fun q hq ↦ ?_, fun a ha ↦ ?_⟩
  · have hne : q ≠ p := fun heq ↦ hnotMem (heq ▸ hq)
    rw [Heap.get_erase, if_neg fun heq ↦ hne (BitVec.eq_of_toNat_eq heq)]
    exact hrest' q hq
  · rw [Heap.get_erase]
    split
    · rename_i hap
      rw [hap, hunused]
    · rename_i hap
      exact h.same a (List.forall_mem_cons.mpr ⟨hap, ha⟩)

end Grown

end

/-! ## `malloc` -/

/-- The blocks have a number of bytes. -/
class Sized (β : Type u) where
  bytes : β → Nat

section

variable {β : Type u} [Sized β]

/-- The `n` bytes from `p` on are no bytes of a block in use. -/
def Fresh (m : Heap β) (p : Pointer) (n : Nat) : Prop :=
  ∀ (q : Pointer) (block : β), m.get q.toNat = some block → q ≠ p ∧ p.Apart n q (Sized.bytes block)

/-- What `malloc` answers to the call number `k` for `n` bytes: null, or where there are `n` bytes
that are not in use. -/
structure Allocator (β : Type u) [Sized β] where
  answer : (k : Nat) → (m : Heap β) → (n : Nat) → Pointer
  fresh : ∀ k m n, answer k m n ≠ Pointer.NULL → Fresh m (answer k m n) n

namespace Allocator

/-- `malloc` of `n` bytes, which are used as the block. -/
def malloc (A : Allocator β) (k n : Nat) (block : β) (m : Heap β) : Heap β × Pointer :=
  let p := A.answer k m n
  (if p = Pointer.NULL then m else m.alloc p.toNat block, p)

variable {A : Allocator β} {m : Heap β} {p : Pointer} {k n : Nat} {block : β}

theorem malloc_null (h : A.answer k m n = Pointer.NULL) :
    A.malloc k n block m = (m, Pointer.NULL) := by
  rw [malloc, h]
  rfl

theorem malloc_block (h : A.answer k m n ≠ Pointer.NULL) :
    A.malloc k n block m = (m.alloc (A.answer k m n).toNat block, A.answer k m n) := by
  rw [malloc, if_neg h]

/-- Whether the `n` bytes from `p` on are apart from the blocks in use. -/
def isFresh (m : Heap β) (p : Pointer) (n : Nat) : Bool :=
  m.entries.all fun e ↦
    decide (BitVec.ofNat 64 e.1 ≠ p ∧ p.Apart n (BitVec.ofNat 64 e.1) (Sized.bytes e.2))

theorem fresh_of_isFresh (h : isFresh m p n) : Fresh m p n := by
  intro q block hq
  have hmem : (⟨q.toNat, block⟩ : Σ _ : Addr, β) ∈ m.entries := AList.mem_lookup_iff.mp hq
  have hapart := of_decide_eq_true (List.all_eq_true.mp h _ hmem)
  rwa [BitVec.ofNat_toNat, BitVec.setWidth_eq] at hapart

/-- Gives the addresses of the list one after the other, as long as there is room. -/
def ofList (answers : List Pointer) : Allocator β where
  answer k m n :=
    let p := answers.getD k Pointer.NULL
    if isFresh m p n then p else Pointer.NULL
  fresh k m n hne := by
    dsimp only at hne ⊢
    split at hne
    · rename_i hfresh
      rw [if_pos hfresh]
      exact fresh_of_isFresh hfresh
    · exact absurd rfl hne

end Allocator

namespace Grown

variable {A : Allocator β} {m m' : Heap β} {p : Pointer} {ps : List Pointer} {k n : Nat} {block : β}

theorem alloc (h : Grown m m' ps) (hfresh : Fresh m' p n) :
    Grown m (m'.alloc p.toNat block) (p :: ps) := by
  have hnone : m'.get p.toNat = none := by
    by_contra hsome
    obtain ⟨other, hother⟩ := Option.ne_none_iff_exists'.mp hsome
    exact (hfresh p other hother).1 rfl
  have hnotMem : p ∉ ps := fun hp ↦ h.used p hp hnone
  have hne : ∀ q ∈ ps, q.toNat ≠ p.toNat := by
    intro q hq heq
    exact hnotMem (BitVec.eq_of_toNat_eq heq ▸ hq)
  refine ⟨List.nodup_cons.mpr ⟨hnotMem, h.nodup⟩, ?_, ?_, ?_⟩
  · refine List.forall_mem_cons.mpr ⟨?_, h.unused⟩
    rw [← h.same _ fun q hq ↦ (hne q hq).symm]
    exact hnone
  · refine List.forall_mem_cons.mpr ⟨?_, fun q hq ↦ ?_⟩
    · rw [Heap.get_alloc, if_pos rfl]
      exact Option.some_ne_none _
    · rw [Heap.get_alloc, if_neg (hne q hq)]
      exact h.used q hq
  · intro a ha
    obtain ⟨hap, ha⟩ := List.forall_mem_cons.mp ha
    rw [Heap.get_alloc, if_neg hap]
    exact h.same a ha

/-- `malloc` adds a block, or nothing when it fails. -/
theorem malloc (h : Grown m m' ps) :
    Grown m (A.malloc k n block m').1
      ([(A.malloc k n block m').2].filter (· ≠ Pointer.NULL) ++ ps) := by
  by_cases hnull : A.answer k m' n = Pointer.NULL
  · rw [Allocator.malloc_null hnull]
    exact h
  · rw [Allocator.malloc_block hnull, List.filter_singleton, decide_eq_true hnull]
    exact h.alloc (A.fresh k m' n hnull)

end Grown

/-- A block in use stays where it is. -/
theorem Allocator.get_malloc {A : Allocator β} {m : Heap β} {a : Addr} {k n : Nat}
    {block other : β} (h : m.get a = some other) :
    (A.malloc k n block m).1.get a = some other :=
  (Grown.refl m).malloc.get h

end

end Upnp.Lib
