import Upnp.Dom.Clone

/-!
# Appending and what was done before

The flag `Found` of `findNodeFromRef` is static: once a search has found a node, all later searches
have, in every document.  In runs that move no node by `appendChild` it stays as it is, and what
`appendChild` does depends on the nodes alone.
-/

namespace Upnp.Dom

open Upnp.Lib

namespace Store

variable {d d' : Store} {L : Side → Addr → List Addr} {a c p r : Addr} {x z : NodeAct} {o : Outcome}
  {f : NodeAct → NodeAct} {q : Option Addr}

/-- What `appendChild` does to the nodes, and how it ends. -/
def appendEffect (d : Store) (p c : Addr) : Option (Heap NodeAct × Outcome) :=
  (d.appendChild p c).map fun r ↦ (r.1.nodes, r.2)

/-- The nodes, as if nothing had been searched before. -/
def unsearched (nodes : Heap NodeAct) : Store := { nodes := nodes, found := false }

/-- What `appendChild` does is a function of the nodes, and a new node that is appended to an element
becomes the last one of its list. -/
structure AppendsByTree (d : Store) : Prop where
  effect : ∀ p c, d.appendEffect p c = (unsearched d.nodes).appendEffect p c
  fresh : ∀ p c z x, d.get p = some z → z.nodeType = .ELEMENT_NODE → d.get c = some x → Lone x →
    p ≠ c → ∃ d' L, d.appendChild p c = some (d', .done) ∧ d'.WellLinked L ∧
      (L x.side p).getLast? = some c

/-! ## Calls that leave `Found` -/

theorem modify_found (h : d.modify a f = some d') : d'.found = d.found := by
  simp only [modify, Option.bind_eq_bind, Option.bind_eq_some_iff] at h
  obtain ⟨x, -, nodes, -, h⟩ := h
  cases h
  rfl

theorem modifyAt_found (h : d.modifyAt q f = some d') : d'.found = d.found := by
  cases q with
  | none =>
    cases h
    rfl
  | some a => exact modify_found h

theorem removeChild_found (h : d.removeChild p c = some (d', o)) : d'.found = d.found := by
  simp only [removeChild, Option.bind_eq_bind, Option.bind_eq_some_iff] at h
  obtain ⟨b, -, h⟩ := h
  split_ifs at h
  · simp only [Option.bind_eq_some_iff] at h
    obtain ⟨_, -, d₁, h₁, _, -, d₂, h₂, _, -, d₃, h₃, d₄, h₄, h⟩ := h
    cases h
    rw [modify_found h₄, modify_found h₃, modifyAt_found h₂, modifyAt_found h₁]
  · cases h
    rfl

theorem linkBefore_found (h : d.linkBefore p c r = some d') : d'.found = d.found := by
  simp only [linkBefore, Option.bind_eq_bind, Option.bind_eq_some_iff] at h
  obtain ⟨d₁, h₁, _, -, d₂, h₂, d₃, h₃, d₄, h₄, _, -, h⟩ := h
  have hfound : d₄.found = d.found := by
    rw [modify_found h₄, modify_found h₃, modifyAt_found h₂, modify_found h₁]
  split_ifs at h
  · obtain ⟨d₅, h₅, h⟩ := Option.bind_eq_some_iff.mp h
    obtain ⟨_, -, h₆⟩ := Option.bind_eq_some_iff.mp h
    rw [modify_found h₆, modify_found h₅, hfound]
  · obtain ⟨d₅, h₅, h⟩ := Option.bind_eq_some_iff.mp h
    obtain ⟨_, -, h₆⟩ := Option.bind_eq_some_iff.mp h
    rw [modify_found h₆, modify_found h₅, hfound]
  · obtain ⟨d₅, h₅, h⟩ := Option.bind_eq_some_iff.mp h
    obtain ⟨_, -, h₆⟩ := Option.bind_eq_some_iff.mp h
    cases h₅
    rw [modify_found h₆, hfound]

theorem insertBefore_found (h : d.insertBefore p c (some r) = some (d', o)) :
    d'.found = d.found := by
  simp only [insertBefore, Option.bind_eq_bind, Option.bind_eq_some_iff] at h
  obtain ⟨b, -, h⟩ := h
  split_ifs at h
  · simp only [Option.bind_eq_some_iff] at h
    obtain ⟨b', -, h⟩ := h
    split_ifs at h
    · simp only [Option.bind_eq_some_iff] at h
      obtain ⟨⟨d₁, o₁⟩, h₁, h⟩ := h
      cases o₁ with
      | NOT_FOUND_ERR =>
        cases h
        exact removeChild_found h₁
      | done =>
        simp only [Option.bind_eq_some_iff, Option.map_eq_some_iff] at h
        obtain ⟨d₂, h₂, d₃, h₃, h⟩ := h
        cases h
        rw [linkBefore_found h₃, modify_found h₂, removeChild_found h₁]
    · obtain ⟨d₁, h₁, h⟩ := Option.map_eq_some_iff.mp h
      cases h
      exact linkBefore_found h₁
  · cases h
    rfl

theorem replaceChild_found (h : d.replaceChild p c q = some (d', o)) : d'.found = d.found := by
  cases q with
  | none =>
    cases h
    rfl
  | some r =>
    simp only [replaceChild, Option.bind_eq_bind, Option.bind_eq_some_iff] at h
    obtain ⟨b, -, h⟩ := h
    split_ifs at h
    · simp only [Option.bind_eq_some_iff] at h
      obtain ⟨⟨d₁, o₁⟩, h₁, h⟩ := h
      cases o₁ with
      | NOT_FOUND_ERR =>
        cases h
        exact insertBefore_found h₁
      | done => rw [removeChild_found h, insertBefore_found h₁]
    · cases h
      rfl

/-! ## A node that is appended for the first time -/

/-- A node without a parent leaves `Found`. -/
theorem WellLinked.appendChild_found (h : d.WellLinked L) (hp : p ∈ d.nodes) (hc : c ∈ d.nodes)
    (hpar : d.parent c = none) (hup : ¬ Relation.ReflTransGen d.IsParent c p)
    (hfound : d.found = false) (happend : d.appendChild p c = some (d', o)) : d'.found = false := by
  obtain ⟨z, hz⟩ := exists_get hp
  obtain ⟨x, hx⟩ := exists_get hc
  obtain ⟨d₁, l, heq, -, hw, -⟩ :=
    h.append_wrote hz hx ((parent_of_get hx).symm.trans hpar) hup hfound
  rw [heq] at happend
  cases happend
  exact hw.found.trans hfound

theorem WellLinked.setAttribute_found (h : d.WellLinked L) {name value : CString} (hp : p ∈ d.nodes)
    (ha : a ∉ d.nodes) (hfound : d.found = false)
    (hset : d.setAttribute p a name value = some (d', o)) : d'.found = false := by
  simp only [Store.setAttribute, Option.bind_eq_bind, Option.bind_eq_some_iff] at hset
  obtain ⟨z, -, n, -, hset⟩ := hset
  cases n with
  | some n =>
    obtain ⟨d₁, h₁, hset⟩ := Option.map_eq_some_iff.mp hset
    cases hset
    exact (modify_found h₁).trans hfound
  | none =>
    have hsafe := @WellLinked.appendSafe_create d L a p name h hp ha hfound .ATTRIBUTE_NODE (some value)
    refine (h.create ha .ATTRIBUTE_NODE (some value)).appendChild_found (mem_create.mpr (.inr hp))
      (mem_create.mpr (.inl rfl)) ?_ hsafe.up hfound hset
    exact parent_of_get ((get_create d a a _ _ _).trans (if_pos rfl))

/-- Nothing is below a node that is not linked. -/
theorem WellLinked.not_up (h : d.WellLinked L) (hx : d.get c = some x) (hlone : Lone x)
    (hne : p ≠ c) : ¬ Relation.ReflTransGen d.IsParent c p := by
  intro hup
  rcases Relation.ReflTransGen.cases_head hup with heq | ⟨k, hk, -⟩
  · exact hne heq.symm
  · cases hy : d.get k with
    | none =>
      rw [IsParent, parent, hy] at hk
      cases hk
    | some y =>
      have hmem : k ∈ L y.side c := (h.mem y.side c k).mpr ⟨y, hy, (parent_of_get hy).symm.trans hk, rfl⟩
      have hhead := h.firstLink y.side c x hx
      rw [hlone.first] at hhead
      rw [List.head?_eq_none_iff.mp hhead.symm] at hmem
      cases hmem

/-- Before any search has found a node, `appendChild` depends on the nodes alone. -/
theorem WellLinked.appendsByTree (h : d.WellLinked L) (hfound : d.found = false) :
    d.AppendsByTree where
  effect p c := by
    rw [unsearched, ← hfound]
  fresh p c z x hz _ hx hlone hne := by
    obtain ⟨d', l, heq, hl, -⟩ :=
      h.append_wrote hz hx hlone.parent (h.not_up hx hlone hne) hfound
    refine ⟨d', _, heq, hl, ?_⟩
    rw [withList_self, List.getLast?_concat]

end Store

/-! ## Histories -/

/-- The calls on any number of documents. -/
inductive DocCall where
  | createDocument (a : Addr)
  | cloneNode (this : Addr) (deep : Bool)
  | call (c : Call)

namespace DocCall

/-- What a call leaves; `none` for a call that is not possible, or that faults. -/
def run (m : Allocator) (d : Store) : DocCall → Option Store
  | createDocument a => if a ∈ d.nodes then none
    else some (d.create a .DOCUMENT_NODE ['#', 'd', 'o', 'c', 'u', 'm', 'e', 'n', 't'] none)
  | cloneNode this deep => (d.clone m deep this).map Prod.fst
  | call c => if c.Enabled d then (c.run d).map Prod.fst else none

/-- The states in which a call patches all links that it has to. -/
def Safe (d : Store) : DocCall → Prop
  | createDocument _ | cloneNode .. => True
  | call c => c.Safe d

/-- The calls that append a node which has a parent. -/
def Moves (d : Store) : DocCall → Prop
  | call (.appendChild _ newChild) | call (.setAttributeNode _ newChild)
  | call (.insertBefore _ newChild none) => d.parent newChild ≠ none
  | _ => False

end DocCall

/-- Histories: calls one after the other; an exception does not end a history. -/
def documents (m : Allocator) : Machine Store DocCall where
  init d := d = Store.empty
  step d c := c.run m d

/-- The links are right, and no search has found a node. -/
def Unsearched (d : Store) : Prop := (∃ L, d.WellLinked L) ∧ d.found = false

variable {m : Allocator} {d d' : Store} {L : Side → Addr → List Addr}

/-- A call that moves no node leaves `Found`. -/
theorem call_found (hl : d.WellLinked L) (hfound : d.found = false) {c : Call} {o : Outcome}
    (he : c.Enabled d) (hs : c.Safe d) (hm : ¬ (DocCall.call c).Moves d)
    (hrun : c.run d = some (d', o)) : d'.found = false := by
  have happend : ∀ p c, p ∈ d.nodes → c ∈ d.nodes → d.AppendSafe p c → ¬ d.parent c ≠ none →
      d.appendChild p c = some (d', o) → d'.found = false := fun p c hp hc hs hm hrun ↦
    hl.appendChild_found hp hc (not_not.mp hm) hs.up hfound hrun
  cases c with
  | createElement a tagName =>
    cases hrun
    exact hfound
  | createTextNode a data =>
    cases hrun
    exact hfound
  | createAttribute a name value =>
    cases hrun
    exact hfound
  | setAttribute this a name value => exact hl.setAttribute_found he.1 he.2 hfound hrun
  | setAttributeNode this newAttr => exact happend _ _ he.1 he.2 hs hm hrun
  | appendChild this newChild => exact happend _ _ he.1 he.2 hs hm hrun
  | insertBefore this newChild refChild =>
    cases refChild with
    | none => exact happend _ _ he.1 he.2.1 hs hm hrun
    | some refChild => exact (Store.insertBefore_found hrun).trans hfound
  | replaceChild this newChild oldChild => exact (Store.replaceChild_found hrun).trans hfound
  | removeChild this oldChild => exact (Store.removeChild_found hrun).trans hfound

/-- A copy keeps the links and leaves `Found`. -/
theorem clone_unsearched (hl : d.WellLinked L) (hfound : d.found = false) {a c : Addr} {deep : Bool}
    (hrun : d.clone m deep a = some (d', c)) : Unsearched d' := by
  cases hx : d.get a with
  | none =>
    rw [Store.clone] at hrun
    cases hsize : d.nodes.size with
    | zero =>
      rw [hsize] at hrun
      cases hrun
    | succ n =>
      rw [hsize, Store.cloneNode, hx] at hrun
      cases hrun
  | some x =>
    have ha := Store.mem_of_get hx
    cases deep with
    | false =>
      rw [Store.clone_shallow hx (Store.size_ne_zero hl ha)] at hrun
      cases hrun
      exact ⟨⟨L, hl.withNew (m.fresh d.nodes) (Store.lone_copied x) (.inr (hl.owner_mem a x hx))⟩, hfound⟩
    | true =>
      obtain ⟨e, M, c', hrun', hgrown, -⟩ :=
        Store.cloneNode_spec m d.nodes.size d L a x hl hfound hx (hl.hasDepth ha)
      obtain ⟨rfl, rfl⟩ := Prod.mk.inj (Option.some.inj (hrun'.symm.trans hrun))
      exact ⟨⟨M, hgrown.links⟩, hgrown.found⟩

theorem unsearched_inductive (m : Allocator) :
    (documents m).Inductive (fun d c ↦ c.Safe d ∧ ¬ c.Moves d) Unsearched where
  init d h := by
    obtain rfl := h
    exact ⟨⟨_, Store.WellLinked.empty⟩, rfl⟩
  step d c d' h hok hstep := by
    obtain ⟨⟨L, hl⟩, hfound⟩ := h
    obtain ⟨hs, hm⟩ := hok
    cases c with
    | createDocument a =>
      obtain ⟨ha, hstep⟩ := Option.ite_none_left_eq_some.mp hstep
      cases hstep
      exact ⟨⟨L, hl.create ha .DOCUMENT_NODE none⟩, hfound⟩
    | cloneNode this deep =>
      obtain ⟨⟨d₁, c⟩, hrun, rfl⟩ := Option.map_eq_some_iff.mp hstep
      exact clone_unsearched hl hfound hrun
    | call c =>
      obtain ⟨he, hstep⟩ := Option.ite_none_right_eq_some.mp hstep
      obtain ⟨⟨d₁, o⟩, hrun, rfl⟩ := Option.map_eq_some_iff.mp hstep
      obtain ⟨d₂, o₂, hrun₂, M, hM, -⟩ := c.run_kept hl he hs
      obtain ⟨rfl, rfl⟩ := Prod.mk.inj (Option.some.inj (hrun₂.symm.trans hrun))
      exact ⟨⟨M, hM⟩, call_found hl hfound he hs hm hrun⟩

end Upnp.Dom
