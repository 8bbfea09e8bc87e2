import Upnp.Dom.Writes

/-!
# Change of the owner

`changeOwnerNode` goes through the children of a node, and theirs, and writes the
owner of each.  It ends, and writes nothing else.
-/

namespace Upnp.Dom.Store

open Upnp.Lib

variable {d d' : Store} {L : Side → Addr → List Addr} {g : Addr → NodeAct → NodeAct} {a c o : Addr}
  {x : NodeAct}

theorem Wrote.size_eq (h : Wrote d d' g) : d'.nodes.size = d.nodes.size := by
  have hperm : d'.nodes.keys.Perm d.nodes.keys :=
    (List.perm_ext_iff_of_nodup d'.nodes.nodupKeys d.nodes.nodupKeys).mpr fun _ ↦ h.mem_iff
  exact hperm.length_eq

/-- What `changeOwnerNode` goes along: the lists of children. -/
structure Kids (d : Store) (L : Side → Addr → List Addr) : Prop where
  seg : ∀ a x, d.get a = some x → ∃ t, DSeg d.next d.prev none x.firstChild (L .child a) t none
  mem : ∀ a, ∀ k ∈ L .child a, k ∈ d.nodes
  nodup : ∀ a, (L .child a).Nodup

theorem WellLinked.kids (h : d.WellLinked L) : Kids d L where
  seg a x hx := ⟨_, h.list .child a x hx⟩
  mem _ _ hk := h.linked.mem_nodes hk
  nodup a := h.nodup .child a

theorem Kids.length_le (h : Kids d L) (a : Addr) : (L .child a).length ≤ d.nodes.size :=
  (List.Nodup.subperm (h.nodup a) (h.mem a)).length_le

/-- Links to siblings that are not written stay. -/
theorem Wrote.next_eq (hw : Wrote d d' g)
    (hg : ∀ x, d.get a = some x → (g a x).nextSibling = x.nextSibling) : d'.next a = d.next a := by
  rw [next, next, hw.get]
  cases hx : d.get a with
  | none => rfl
  | some x => exact hg x hx

theorem Wrote.prev_eq (hw : Wrote d d' g)
    (hg : ∀ x, d.get a = some x → (g a x).prevSibling = x.prevSibling) : d'.prev a = d.prev a := by
  rw [prev, prev, hw.get]
  cases hx : d.get a with
  | none => rfl
  | some x => exact hg x hx

theorem Wrote.parent_eq (hw : Wrote d d' g)
    (hg : ∀ x, d.get a = some x → (g a x).parentNode = x.parentNode) :
    d'.parent a = d.parent a := by
  rw [parent, parent, hw.get]
  cases hx : d.get a with
  | none => rfl
  | some x => exact hg x hx

/-- Writes to the owners and parents leave the lists of children. -/
theorem Kids.wrote (h : Kids d L) (hw : Wrote d d' g)
    (hg : ∀ a x, (g a x).firstChild = x.firstChild ∧ (g a x).nextSibling = x.nextSibling ∧
      (g a x).prevSibling = x.prevSibling) : Kids d' L where
  seg a x' hx' := by
    rw [hw.get, Option.map_eq_some_iff] at hx'
    obtain ⟨x, hx, rfl⟩ := hx'
    obtain ⟨t, ht⟩ := h.seg a x hx
    refine ⟨t, ?_⟩
    rw [(hg a x).1]
    exact ht.congr (fun k _ ↦ hw.next_eq fun y _ ↦ (hg k y).2.1)
      fun k _ ↦ hw.prev_eq fun y _ ↦ (hg k y).2.2
  mem a k hk := hw.mem_iff.mpr (h.mem a k hk)
  nodup := h.nodup

/-- The nodes `l` have got the owner `o`. -/
def owned (o : Addr) (l : List Addr) (a : Addr) (x : NodeAct) : NodeAct :=
  { x with ownerNode := if a ∈ l then o else x.ownerNode }

theorem Kids.owned {l : List Addr} (h : Kids d L) (hw : Wrote d d' (owned o l)) : Kids d' L :=
  h.wrote hw fun _ _ ↦ ⟨rfl, rfl, rfl⟩

theorem Wrote.owned_trans {d'' : Store} {l l' : List Addr} (hw : Wrote d d' (owned o l))
    (hw' : Wrote d' d'' (owned o l')) : Wrote d d'' (owned o (l ++ l')) := by
  refine (hw.trans hw').congr fun a x _ ↦ ?_
  by_cases hl : a ∈ l <;> by_cases hl' : a ∈ l' <;> simp [Store.owned, hl, hl']

theorem modify_owner (ha : a ∈ d.nodes) :
    ∃ d', d.modify a (fun x ↦ { x with ownerNode := o }) = some d' ∧ Wrote d d' (owned o [a]) := by
  obtain ⟨d', heq, hw⟩ := modify_spec ha fun x ↦ { x with ownerNode := o }
  refine ⟨d', heq, hw.congr fun b x _ ↦ ?_⟩
  by_cases hb : b = a <;> simp [owned, hb]

/-- With each node the children that it has belong to the set. -/
def Closed (L : Side → Addr → List Addr) (S : Addr → Prop) : Prop :=
  ∀ q, S q → ∀ k ∈ L .child q, S k

/-- The loop ends if the calls do, and only writes owners, of the nodes that it passes and of those
below them. -/
theorem ownerLoop_spec {change : Addr → Store → Option Store} {l : List Addr}
    {b p t : Option Addr} {n : Nat} (hk : Kids d L) (hl : DSeg d.next d.prev b p l t none)
    (hmem : ∀ k ∈ l, k ∈ d.nodes) (hn : l.length ≤ n)
    (hchange : ∀ k ∈ l, ∀ e, Kids e L → k ∈ e.nodes →
      ∃ e' l', change k e = some e' ∧ Wrote e e' (owned o l') ∧
        ∀ S, Closed L S → S k → ∀ a ∈ l', S a) :
    ∃ d' l', ownerLoop o change n p d = some d' ∧ Wrote d d' (owned o l') ∧
      ∀ S, Closed L S → (∀ k ∈ l, S k) → ∀ a ∈ l', S a := by
  induction l generalizing b p n d with
  | nil =>
    obtain ⟨rfl, -⟩ := hl
    refine ⟨d, [], by cases n <;> rfl, ⟨rfl, fun a ↦ ?_⟩, fun _ _ _ a ha ↦ by cases ha⟩
    cases d.get a <;> simp [owned]
  | cons k l ih =>
    obtain ⟨rfl, -, hl⟩ := hl
    rw [List.forall_mem_cons] at hmem
    obtain ⟨n, rfl⟩ := Nat.exists_eq_succ_of_ne_zero (Nat.ne_zero_of_lt hn)
    obtain ⟨d₁, l₁, h₁, hw₁, hclosed₁⟩ := hchange k List.mem_cons_self d hk hmem.1
    obtain ⟨d₂, h₂, hw₂⟩ := modify_owner (o := o) (hw₁.mem_iff.mpr hmem.1)
    have hw := hw₁.owned_trans hw₂
    have hnext : ∀ a, d₂.next a = d.next a := fun a ↦ hw.next_eq fun _ _ ↦ rfl
    obtain ⟨x, hx⟩ := exists_get (hw.mem_iff.mpr hmem.1)
    have hx' : x.nextSibling = d.next k := by rw [← hnext k, next, hx]; rfl
    have hl₂ : DSeg d₂.next d₂.prev (some k) x.nextSibling l t none := by
      rw [hx']
      exact hl.congr (fun a _ ↦ hnext a) fun a _ ↦ hw.prev_eq fun _ _ ↦ rfl
    obtain ⟨d₃, l₃, h₃, hw₃, hclosed₃⟩ := ih (hk.owned hw) hl₂
      (fun a ha ↦ hw.mem_iff.mpr (hmem.2 a ha)) (Nat.le_of_succ_le_succ hn)
      fun a ha e hke hae ↦ hchange a (List.mem_cons_of_mem _ ha) e hke hae
    refine ⟨d₃, _, ?_, hw.owned_trans hw₃, fun S hS hl a ha ↦ ?_⟩
    · simp [ownerLoop, h₁, h₂, hx, h₃]
    · rw [List.forall_mem_cons] at hl
      rcases List.mem_append.mp ha with ha | ha
      · rcases List.mem_append.mp ha with ha | ha
        · exact hclosed₁ S hS hl.1 a ha
        · rw [List.mem_singleton.mp ha]
          exact hl.1
      · exact hclosed₃ S hS hl.2 a ha

/-- `changeOwnerNode` ends, and only writes owners, of nodes below the one given. -/
theorem changeOwnerNode_spec {n : Nat} (hk : Kids d L) (ha : a ∈ d.nodes)
    (hdepth : HasDepth L n a) :
    ∃ d' l, changeOwnerNode o n a d = some d' ∧ Wrote d d' (owned o l) ∧
      ∀ S, Closed L S → S a → ∀ b ∈ l, S b := by
  induction n generalizing a d with
  | zero => exact hdepth.elim
  | succ n ih =>
    obtain ⟨x, hx⟩ := exists_get ha
    obtain ⟨t, ht⟩ := hk.seg a x hx
    obtain ⟨d', l, heq, hw, hclosed⟩ := ownerLoop_spec (o := o) hk ht (hk.mem a) (hk.length_le a)
      fun k hkmem e hke hmem ↦ ih hke hmem (hdepth k hkmem)
    refine ⟨d', l, ?_, hw, fun S hS ha ↦ hclosed S hS (hS a ha)⟩
    rw [changeOwnerNode, hx]
    exact heq

end Upnp.Dom.Store
