import Mathlib.Data.List.Nodup
import Mathlib.Data.List.Perm.Subperm
import Upnp.Lib.Heap

/-!
# Singly linked lists in a heap

`Seg h p l q` says that the links from `p` lead along the cells `l` to `q`, and
`Chain h p l` that they end there.

The edits of such lists are local: a chain depends on the cells at its own
addresses only (`Seg.congr`), so what one list does leaves the others alone.
-/

namespace Upnp.Lib

universe u

/-- A cell of a list. -/
structure Cell (α : Type u) where
  val : α
  next : Option Addr

section Chain

variable {α : Type u}

/-- The links from `p` lead along the cells `l` to `q`. -/
def Seg (h : Heap (Cell α)) : Option Addr → List (Addr × α) → Option Addr → Prop
  | p, [], q => p = q
  | p, (a, v) :: l, q => p = some a ∧ ∃ next, h.get a = some ⟨v, next⟩ ∧ Seg h next l q

/-- The links from `p` lead along the cells `l` and end. -/
def Chain (h : Heap (Cell α)) (p : Option Addr) (l : List (Addr × α)) : Prop := Seg h p l none

/-- The addresses of cells. -/
def addrs (l : List (Addr × α)) : List Addr := l.map Prod.fst

@[simp] theorem addrs_nil : addrs ([] : List (Addr × α)) = [] := rfl

@[simp] theorem addrs_cons (a : Addr) (v : α) (l : List (Addr × α)) :
    addrs ((a, v) :: l) = a :: addrs l := rfl

@[simp] theorem addrs_append (l l' : List (Addr × α)) : addrs (l ++ l') = addrs l ++ addrs l' :=
  List.map_append

variable {h h' : Heap (Cell α)} {p q r : Option Addr} {l l' : List (Addr × α)} {a b : Addr} {v : α}

@[simp] theorem seg_nil : Seg h p [] q ↔ p = q := Iff.rfl

theorem seg_cons : Seg h p ((a, v) :: l) q ↔
    p = some a ∧ ∃ next, h.get a = some ⟨v, next⟩ ∧ Seg h next l q := Iff.rfl

/-- Segments are put together and cut apart. -/
theorem seg_append : Seg h p (l ++ l') q ↔ ∃ r, Seg h p l r ∧ Seg h r l' q := by
  induction l generalizing p with
  | nil => simp
  | cons x l ih =>
    obtain ⟨a, v⟩ := x
    simp only [List.cons_append, seg_cons, ih]
    constructor
    · rintro ⟨rfl, next, hget, r, hl, hl'⟩
      exact ⟨r, ⟨rfl, next, hget, hl⟩, hl'⟩
    · rintro ⟨r, ⟨rfl, next, hget, hl⟩, hl'⟩
      exact ⟨rfl, next, hget, r, hl, hl'⟩

/-- A segment reads the cells at its own addresses only. -/
theorem Seg.congr (hs : Seg h p l q) (heq : ∀ a ∈ addrs l, h'.get a = h.get a) : Seg h' p l q := by
  induction l generalizing p with
  | nil => exact hs
  | cons x l ih =>
    obtain ⟨a, v⟩ := x
    obtain ⟨rfl, next, hget, hs⟩ := hs
    exact ⟨rfl, next, (heq a (by simp)).trans hget, ih hs fun b hb ↦ heq b (by simp [hb])⟩

/-- What a segment leads along is in use. -/
theorem Seg.mem (hs : Seg h p l q) : ∀ x ∈ l, ∃ next, h.get x.1 = some ⟨x.2, next⟩ := by
  induction l generalizing p with
  | nil => simp
  | cons y l ih =>
    obtain ⟨a, v⟩ := y
    obtain ⟨-, next, hget, hs⟩ := hs
    intro x hx
    rcases List.mem_cons.mp hx with rfl | hx
    · exact ⟨next, hget⟩
    · exact ih hs x hx

/-- The cells of a list are among those in use. -/
theorem Seg.length_le (hs : Seg h p l q) (hnd : (addrs l).Nodup) : l.length ≤ h.size := by
  have hsub : addrs l ⊆ h.keys := by
    intro a ha
    obtain ⟨x, hx, rfl⟩ := List.mem_map.mp ha
    obtain ⟨next, hget⟩ := hs.mem x hx
    exact Heap.mem_of_get hget
  have hlen := (List.Nodup.subperm hnd hsub).length_le
  simpa [addrs, Heap.size] using hlen

/-- The last cell of a segment, and the link that it holds. -/
theorem Seg.last (hs : Seg h p (l ++ [(a, v)]) q) : h.get a = some ⟨v, q⟩ := by
  obtain ⟨r, -, hr⟩ := seg_append.mp hs
  obtain ⟨-, next, hget, hnext⟩ := hr
  obtain rfl : next = q := hnext
  exact hget

/-- The last cell of a segment is linked to another place. -/
theorem Seg.relink (hs : Seg h p (l ++ [(a, v)]) q) (ha : a ∉ addrs l) (r : Option Addr) :
    Seg (h.insert a ⟨v, r⟩) p (l ++ [(a, v)]) r := by
  obtain ⟨s, hl, hs⟩ := seg_append.mp hs
  refine seg_append.mpr ⟨s, hl.congr fun b hb ↦ ?_, ?_⟩
  · have hne : b ≠ a := by
      rintro rfl
      exact ha hb
    rw [Heap.get_insert, if_neg hne]
  · obtain ⟨rfl, -⟩ := hs
    exact ⟨rfl, r, by rw [Heap.get_insert, if_pos rfl], rfl⟩

/-- A value is written to a cell of a segment. -/
theorem Seg.write {l₁ l₂ : List (Addr × α)} (hs : Seg h p (l₁ ++ (a, v) :: l₂) q)
    (hnd : (addrs (l₁ ++ (a, v) :: l₂)).Nodup) (w : α) :
    ∃ next, h.get a = some ⟨v, next⟩ ∧
      Seg (h.insert a ⟨w, next⟩) p (l₁ ++ (a, w) :: l₂) q := by
  obtain ⟨r, hl₁, hl₂⟩ := seg_append.mp hs
  obtain ⟨rfl, next, hget, hl₂⟩ := hl₂
  rw [addrs_append, addrs_cons, List.nodup_append] at hnd
  obtain ⟨-, hnd₂, hdisj⟩ := hnd
  have hsame : ∀ b, b ≠ a → Heap.get (h.insert a ⟨w, next⟩) b = h.get b := fun b hb ↦ by
    rw [Heap.get_insert, if_neg hb]
  refine ⟨next, hget, seg_append.mpr ⟨some a, hl₁.congr fun b hb ↦ hsame b ?_, rfl, next, ?_, ?_⟩⟩
  · exact hdisj b hb a List.mem_cons_self
  · rw [Heap.get_insert, if_pos rfl]
  · refine hl₂.congr fun b hb ↦ hsame b ?_
    rintro rfl
    exact (List.nodup_cons.mp hnd₂).1 hb

end Chain

end Upnp.Lib
