import Mathlib.Data.List.AList

/-!
# Heaps

A heap maps the addresses in use to what they hold; reading, writing or freeing
an address that is not in use faults, that is, gives `none`.
-/

namespace Upnp.Lib

universe u

/-- An address. -/
abbrev Addr := Nat

/-- The memory in use. -/
abbrev Heap (α : Type u) := AList fun _ : Addr ↦ α

namespace Heap

variable {α : Type u}

/-- Reads what an address holds. -/
def get (h : Heap α) (a : Addr) : Option α := h.lookup a

/-- Writes to an address in use. -/
def set (h : Heap α) (a : Addr) (v : α) : Option (Heap α) :=
  if a ∈ h then some (h.insert a v) else none

/-- Frees an address in use. -/
def free (h : Heap α) (a : Addr) : Option (Heap α) :=
  if a ∈ h then some (h.erase a) else none

/-- Takes an address into use. -/
def alloc (h : Heap α) (a : Addr) (v : α) : Heap α := h.insert a v

/-- The number of addresses in use. -/
def size (h : Heap α) : Nat := h.keys.length

/-- An address not in use. -/
def fresh (h : Heap α) : Addr := h.keys.foldr max 0 + 1

variable {h h' : Heap α} {a b : Addr} {v w : α}

theorem mem_of_get (hv : h.get a = some v) : a ∈ h := by
  rw [← AList.lookup_isSome]
  exact Option.isSome_of_eq_some hv

theorem get_eq_none : h.get a = none ↔ a ∉ h := AList.lookup_eq_none

theorem mem_iff_get : a ∈ h ↔ h.get a ≠ none := by rw [ne_eq, get_eq_none, not_not]

private theorem le_foldr_max {b : Addr} {l : List Addr} (hb : b ∈ l) : b ≤ l.foldr max 0 := by
  induction l with
  | nil => simp at hb
  | cons c l ih =>
    rcases List.mem_cons.mp hb with rfl | hb
    · exact Nat.le_max_left _ _
    · exact Nat.le_trans (ih hb) (Nat.le_max_right _ _)

theorem fresh_notMem (h : Heap α) : h.fresh ∉ h :=
  fun hmem ↦ Nat.not_succ_le_self _ (le_foldr_max hmem)

theorem set_of_get (hv : h.get a = some v) (w : α) : h.set a w = some (h.insert a w) :=
  if_pos (mem_of_get hv)

theorem free_of_get (hv : h.get a = some v) : h.free a = some (h.erase a) := if_pos (mem_of_get hv)

theorem get_insert (h : Heap α) (a : Addr) (v : α) (b : Addr) :
    get (h.insert a v) b = if b = a then some v else h.get b := by
  unfold get
  split
  · rename_i hb
    subst hb
    exact AList.lookup_insert h
  · rename_i hb
    exact AList.lookup_insert_ne hb

theorem get_alloc (h : Heap α) (a : Addr) (v : α) (b : Addr) :
    (h.alloc a v).get b = if b = a then some v else h.get b := get_insert h a v b

theorem get_erase (h : Heap α) (a b : Addr) :
    get (h.erase a) b = if b = a then none else h.get b := by
  unfold get
  split
  · rename_i hb
    subst hb
    exact AList.lookup_erase b h
  · rename_i hb
    exact AList.lookup_erase_ne hb

end Heap

end Upnp.Lib
