import Upnp.Dom.Mutators
import Upnp.Lib.Machine

/-!
# The link invariant

Over all runs of calls that build and change documents: when each call of a run
meets `Call.Safe`, every store reached is well linked, and a call edits the lists
as its name says.
-/

namespace Upnp.Dom

open Upnp.Lib

namespace Store

variable {d d' : Store} {L : Side → Addr → List Addr} {s : Side} {a b c p : Addr} {x z : NodeAct}
  {l : List Addr} {name : CString}

/-! ## New nodes -/

/-- The store with a new node. -/
def withNew (d : Store) (a : Addr) (y : NodeAct) : Store := { d with nodes := d.nodes.alloc a y }

/-- A node that is not linked to any other. -/
structure Lone (y : NodeAct) : Prop where
  parent : y.parentNode = none
  first : ∀ s, y.first s = none
  last : ∀ s, y.last s = none

theorem get_withNew (d : Store) (a b : Addr) (y : NodeAct) :
    (d.withNew a y).get b = if b = a then some y else d.get b :=
  Heap.get_alloc d.nodes a y b

theorem mem_withNew {y : NodeAct} : b ∈ (d.withNew a y).nodes ↔ b = a ∨ b ∈ d.nodes := by
  rw [Heap.mem_iff_get, Heap.mem_iff_get]
  change (d.withNew a y).get b ≠ none ↔ b = a ∨ d.get b ≠ none
  rw [get_withNew]
  by_cases hb : b = a <;> simp [hb]

/-- A new node has no parent, and the others keep theirs. -/
theorem parent_withNew {y : NodeAct} (ha : a ∉ d.nodes) (hy : y.parentNode = none) :
    (d.withNew a y).parent b = d.parent b := by
  rw [parent, parent, get_withNew]
  by_cases hb : b = a
  · have hnone : d.get a = none := Heap.get_eq_none.mpr ha
    simp [hb, hnone, hy]
  · rw [if_neg hb]

theorem WellLinked.withNew {y : NodeAct} (h : d.WellLinked L) (ha : a ∉ d.nodes) (hy : Lone y)
    (howner : y.ownerNode = a ∨ y.ownerNode ∈ d.nodes) : (d.withNew a y).WellLinked L where
  list s b x hx := by
    rw [get_withNew] at hx
    by_cases hb : b = a
    · rw [if_pos hb] at hx
      obtain rfl := Option.some.inj hx
      rw [hb, h.linked.nil_of_notMem ha, hy.first, hy.last]
      exact ⟨rfl, rfl⟩
    · rw [if_neg hb] at hx
      have hne : ∀ e ∈ L s b, e ≠ a := fun e he heq ↦ ha (heq ▸ h.linked.mem_nodes he)
      refine (h.list s b x hx).congr (fun e he ↦ ?_) fun e he ↦ ?_
      · rw [next, get_withNew, if_neg (hne e he)]
        rfl
      · rw [prev, get_withNew, if_neg (hne e he)]
        rfl
  nodup := h.nodup
  mem s b c := by
    rw [h.mem, get_withNew]
    by_cases hc : c = a
    · have hnone : d.get a = none := Heap.get_eq_none.mpr ha
      simp [hc, hnone, hy.parent]
    · rw [if_neg hc]
  parent_mem b c hpar := by
    rw [parent_withNew ha hy.parent] at hpar
    exact mem_withNew.mpr (.inr (h.parent_mem b c hpar))
  acyclic b hb :=
    h.acyclic b (hb.lift id fun _ _ hpar ↦ (parent_withNew ha hy.parent).symm.trans hpar)
  owner_mem b x hx := by
    rw [get_withNew] at hx
    rw [mem_withNew]
    by_cases hb : b = a
    · rw [if_pos hb] at hx
      obtain rfl := Option.some.inj hx
      exact howner
    · rw [if_neg hb] at hx
      exact .inr (h.owner_mem b x hx)

/-- What the constructor writes. -/
def created (a : Addr) (nt : NodeType) (name : CString) (value : Option CString) : NodeAct :=
  { nodeType := nt, nodeName := name, nodeValue := value, parentNode := none,
    firstChild := none, lastChild := none, ownerNode := a, nextSibling := none,
    prevSibling := none, firstAttr := none, lastAttr := none }

theorem lone_created (nt : NodeType) (value : Option CString) : Lone (created a nt name value) where
  parent := rfl
  first s := by cases s <;> rfl
  last s := by cases s <;> rfl

theorem get_create (d : Store) (a b : Addr) (nt : NodeType) (name : CString)
    (value : Option CString) :
    (d.create a nt name value).get b = if b = a then some (created a nt name value) else d.get b :=
  get_withNew d a b _

theorem mem_create {nt : NodeType} {value : Option CString} :
    b ∈ (d.create a nt name value).nodes ↔ b = a ∨ b ∈ d.nodes := mem_withNew

theorem WellLinked.create (h : d.WellLinked L) (ha : a ∉ d.nodes) (nt : NodeType)
    (value : Option CString) : (d.create a nt name value).WellLinked L :=
  h.withNew ha (lone_created nt value) (.inl rfl)

/-! ## `setAttribute` -/

/-- `NamedNodeMap::getNamedItem`, on the attributes of a node. -/
def getNamedItem (d : Store) (this : Addr) (name : CString) : Option (Option Addr) := do
  let self ← d.get this
  d.namedLoop name d.nodes.size self.firstAttr

theorem namedLoop_some {b p t : Option Addr} {n : Nat} (h : DSeg d.next d.prev b p l t none)
    (hmem : ∀ c ∈ l, c ∈ d.nodes) (hn : l.length ≤ n) :
    ∃ o, d.namedLoop name n p = some o ∧ ∀ c, o = some c → c ∈ l := by
  induction l generalizing b p n with
  | nil =>
    obtain ⟨rfl, -⟩ := h
    refine ⟨none, ?_, nofun⟩
    cases n <;> rfl
  | cons c l ih =>
    obtain ⟨rfl, -, hl⟩ := h
    rw [List.forall_mem_cons] at hmem
    obtain ⟨n, rfl⟩ := Nat.exists_eq_succ_of_ne_zero (Nat.ne_zero_of_lt hn)
    obtain ⟨x, hx⟩ := exists_get hmem.1
    rw [next_of_get hx] at hl
    by_cases hname : name = x.nodeName
    · exact ⟨some c, by simp [namedLoop, hx, hname], by simp⟩
    · obtain ⟨o, ho, hspec⟩ := ih hl hmem.2 (Nat.le_of_succ_le_succ hn)
      refine ⟨o, by simp [namedLoop, hx, hname, ho], fun e he ↦ ?_⟩
      exact List.mem_cons_of_mem _ (hspec e he)

/-- A node without a parent is not found as long as no search has found a node. -/
theorem WellLinked.finds_false (h : d.WellLinked L) (hp : p ∈ d.nodes) (hpar : d.parent c = none)
    (hfound : d.found = false) : d.finds p c = some false := by
  obtain ⟨z, hz⟩ := exists_get hp
  obtain ⟨b, hb, -, hspec⟩ := h.findNodeFromRef_some (c := c) (h.owner_mem p z hz)
    (h.hasDepth (h.owner_mem p z hz)) d.found
  have hfinds : d.finds p c = some b := by
    rw [finds, hz]
    exact hb
  cases b with
  | false => exact hfinds
  | true =>
    rcases hspec rfl with hf | ⟨s, q, hmem⟩
    · rw [hfound] at hf
      cases hf
    · exact absurd hmem (h.linked.notMem hpar)

theorem WellLinked.appendSafe (h : d.WellLinked L) (hp : p ∈ d.nodes) (hpar : d.parent c = none)
    (hup : ¬ Relation.ReflTransGen d.IsParent c p) (hfound : d.found = false) :
    AppendSafe d p c where
  up := hup
  finds := by
    rw [h.finds_false hp hpar hfound, hpar]
    exact iff_of_false (by rintro ⟨⟩) fun hne ↦ hne rfl
  inner q hq := by
    rw [hpar] at hq
    cases hq

/-- Once a search has found a node, to append one without a parent is a null dereference. -/
theorem WellLinked.appendChild_of_found (h : d.WellLinked L) (hp : p ∈ d.nodes)
    (hx : d.get c = some x) (hpar : x.parentNode = none) (hfound : d.found = true) :
    d.appendChild p c = none := by
  obtain ⟨z, hz⟩ := exists_get hp
  obtain ⟨b, hb, hkeeps, -⟩ := h.findNodeFromRef_some (c := c) (h.owner_mem p z hz)
    (h.hasDepth (h.owner_mem p z hz)) d.found
  obtain rfl := hkeeps hfound
  have hx' : ({ d with found := true } : Store).get c = some x := hx
  simp [Store.appendChild, hz, hb, hx', hpar]

/-- A node without a parent comes behind the last one of its list, as long as no search has found a
node.  Of the nodes outside a set with `c` and all below it, only the new parent and the last node of
the list are written. -/
theorem WellLinked.append_wrote (h : d.WellLinked L) (hz : d.get p = some z) (hx : d.get c = some x)
    (hpar : x.parentNode = none) (hup : ¬ Relation.ReflTransGen d.IsParent c p)
    (hfound : d.found = false) :
    ∃ d' l, d.appendChild p c = some (d', .done) ∧
      d'.WellLinked (withList L x.side p (L x.side p ++ [c])) ∧
      Wrote d d' (relinked p c (L x.side p).getLast? x.side l z.ownerNode) ∧
      ∀ S, Closed L S → S c → ∀ b ∈ l, S b := by
  have hfinds := h.finds_false (mem_of_get hz) ((parent_of_get hx).trans hpar) hfound
  rw [finds, hz] at hfinds
  obtain ⟨d', l, heq, hl, hw, hclosed⟩ := h.relink_wrote hx hz hpar hup
  refine ⟨d', l, ?_, hl, hw, hclosed⟩
  have hsame : ({ d with found := false } : Store) = d := by rw [← hfound]
  have hfind : d.findNodeFromRef c d.nodes.size z.ownerNode d.found = some false := hfinds
  simp [Store.appendChild, hz, hfind, hsame, heq]

/-- A new node can be appended as long as no search has found a node. -/
theorem WellLinked.appendSafe_create (h : d.WellLinked L) (hp : p ∈ d.nodes) (ha : a ∉ d.nodes)
    (hfound : d.found = false) (nt : NodeType) (value : Option CString) :
    AppendSafe (d.create a nt name value) p a := by
  have hl : (d.create a nt name value).WellLinked L := h.create ha nt value
  have hlone : (created a nt name value).parentNode = none := rfl
  have hpar : ∀ b, (d.create a nt name value).parent b = d.parent b := fun b ↦
    parent_withNew ha hlone
  have hnone : d.parent a = none := by
    have hget : d.get a = none := Heap.get_eq_none.mpr ha
    rw [parent, hget]
    rfl
  refine hl.appendSafe (mem_create.mpr (.inr hp)) ((hpar a).trans hnone) ?_ hfound
  intro hup
  rcases Relation.ReflTransGen.cases_head hup with rfl | ⟨b, hab, -⟩
  · exact ha hp
  · exact ha (h.parent_mem a b ((hpar b).symm.trans hab))

theorem WellLinked.setAttribute (h : d.WellLinked L) (hp : p ∈ d.nodes) (ha : a ∉ d.nodes)
    (value : CString)
    (hs : d.found = false ∨ ∃ n, d.getNamedItem p name = some (some n)) :
    ∃ d', d.setAttribute p a name value = some (d', .done) ∧
      ((∃ n, d.getNamedItem p name = some (some n)) ∧ d'.WellLinked L ∨
        d.getNamedItem p name = some none ∧ d'.WellLinked (appended L .attr p a)) := by
  obtain ⟨z, hz⟩ := exists_get hp
  obtain ⟨o, ho, hmem⟩ := namedLoop_some (h.list .attr p z hz)
    (fun c hc ↦ h.linked.mem_nodes hc) (h.linked.length_le .attr p)
  change d.namedLoop name d.nodes.size z.firstAttr = some o at ho
  have hitem : d.getNamedItem p name = some o := by rw [getNamedItem, hz]; exact ho
  cases o with
  | some n =>
    obtain ⟨d₁, h₁, hw₁⟩ := modify_spec (h.linked.mem_nodes (hmem n rfl)) fun y ↦
      { y with nodeValue := some value }
    have hf₁ : Wrote d d₁ fun b y ↦
        { y with nodeValue := if b = n then some value else y.nodeValue } :=
      hw₁.congr fun b y _ ↦ by split <;> rfl
    have hl₁ := h.linked.frame hf₁ (fun _ _ ↦ rfl) (fun _ _ ↦ rfl) (fun _ _ ↦ rfl)
      fun _ _ _ _ _ ↦ ⟨rfl, rfl⟩
    refine ⟨d₁, ?_, .inl ⟨⟨n, hitem⟩, hl₁.wellLinked (fun s b ↦ ?_) fun s b ↦ ?_⟩⟩
    · simp [Store.setAttribute, hz, ho, h₁]
    · refine (h.firstLink s b).frame hf₁ fun y ↦ ?_
      cases s <;> rfl
    · refine (h.lastLink s b).frame hf₁ fun y ↦ ?_
      cases s <;> rfl
  | none =>
    have hfound : d.found = false := by
      rcases hs with hs | ⟨n, hn⟩
      · exact hs
      · rw [hitem] at hn
        cases hn
    have hget := (get_create d a a .ATTRIBUTE_NODE name (some value)).trans (if_pos rfl)
    obtain ⟨d₁, o, h₁, hend⟩ := (h.create ha .ATTRIBUTE_NODE (some value)).appendChild
      (mem_create.mpr (.inr hp)) hget
      (h.appendSafe_create hp ha hfound .ATTRIBUTE_NODE (some value))
    rcases hend with ⟨rfl, hl₁⟩ | ⟨-, hne, -⟩
    · refine ⟨d₁, ?_, .inr ⟨hitem, hl₁⟩⟩
      simp [Store.setAttribute, hz, ho, h₁]
    · rw [parent_of_get hget] at hne
      exact absurd rfl hne

end Store

/-! ## Runs -/

variable {d d' : Store} {L : Side → Addr → List Addr}

/-- The states in which a call patches all links that it has to. -/
def Call.Safe (d : Store) : Call → Prop
  | .createElement .. | .createTextNode .. | .createAttribute .. => True
  | .setAttribute this _ name _ =>
    d.found = false ∨ ∃ n, d.getNamedItem this name = some (some n)
  | .setAttributeNode this newChild | .appendChild this newChild
  | .insertBefore this newChild none => d.AppendSafe this newChild
  | .insertBefore this newChild (some refChild) =>
    d.findNode this refChild = some true → d.InsertSafe this newChild refChild
  | .replaceChild _ _ none => True
  | .replaceChild this newChild (some oldChild) =>
    d.findNode this oldChild = some true → d.InsertSafe this newChild oldChild ∧
      (d.sideOf oldChild = some .attr → d.next oldChild ≠ none)
  | .removeChild this oldChild => d.findNode this oldChild = some true → d.Inner oldChild

/-- What becomes of the lists when a call is done. -/
def Call.Lists (d : Store) (L L' : Side → Addr → List Addr) : Call → Prop
  | .createElement .. | .createTextNode .. | .createAttribute .. => L' = L
  | .setAttribute this a name _ =>
    (∃ n, d.getNamedItem this name = some (some n)) ∧ L' = L ∨
      d.getNamedItem this name = some none ∧ L' = Store.appended L .attr this a
  | .setAttributeNode this newChild | .appendChild this newChild
  | .insertBefore this newChild none =>
    ∃ s, d.sideOf newChild = some s ∧ L' = Store.appended L s this newChild
  | .insertBefore _ newChild (some refChild) =>
    L' = fun s a ↦ Store.before newChild refChild ((L s a).erase newChild)
  | .replaceChild _ _ none => L' = L
  | .replaceChild _ newChild (some oldChild) =>
    L' = fun s a ↦ ((L s a).erase newChild).replace oldChild newChild
  | .removeChild _ oldChild => L' = fun s a ↦ (L s a).erase oldChild

/-- A call that ends as its lists say, or with an exception and the lists as they were. -/
def Call.Kept (c : Call) (d : Store) (L : Side → Addr → List Addr) (d' : Store) (o : Outcome) :
    Prop :=
  ∃ L', d'.WellLinked L' ∧ (o = .done ∧ c.Lists d L L' ∨ o = .NOT_FOUND_ERR ∧ L' = L)

theorem appendChild_kept (h : d.WellLinked L) {p c : Addr} (hp : p ∈ d.nodes) (hc : c ∈ d.nodes)
    (hs : d.AppendSafe p c) : ∃ d' o, d.appendChild p c = some (d', o) ∧
      (Call.appendChild p c).Kept d L d' o := by
  obtain ⟨x, hx⟩ := Store.exists_get hc
  obtain ⟨d', o, heq, ⟨rfl, hl⟩ | ⟨rfl, -, hl⟩⟩ := h.appendChild hp hx hs
  · exact ⟨d', _, heq, _, hl, .inl ⟨rfl, x.side, Store.sideOf_of_get hx, rfl⟩⟩
  · exact ⟨d', _, heq, L, hl, .inr ⟨rfl, rfl⟩⟩

/-- A safe call ends, and keeps the store well linked. -/
theorem Call.run_kept (h : d.WellLinked L) (c : Call) (he : c.Enabled d) (hs : c.Safe d) :
    ∃ d' o, c.run d = some (d', o) ∧ c.Kept d L d' o := by
  cases c with
  | createElement a tagName =>
    exact ⟨_, _, rfl, L, h.create he .ELEMENT_NODE none, .inl ⟨rfl, rfl⟩⟩
  | createTextNode a data =>
    exact ⟨_, _, rfl, L, h.create he .TEXT_NODE (some data), .inl ⟨rfl, rfl⟩⟩
  | createAttribute a name value =>
    exact ⟨_, _, rfl, L, h.create he .ATTRIBUTE_NODE (some value), .inl ⟨rfl, rfl⟩⟩
  | setAttribute this a name value =>
    obtain ⟨d', heq, ⟨hitem, hl⟩ | ⟨hitem, hl⟩⟩ := h.setAttribute he.1 he.2 value hs
    · exact ⟨d', _, heq, L, hl, .inl ⟨rfl, .inl ⟨hitem, rfl⟩⟩⟩
    · exact ⟨d', _, heq, _, hl, .inl ⟨rfl, .inr ⟨hitem, rfl⟩⟩⟩
  | setAttributeNode this newAttr => exact appendChild_kept h he.1 he.2 hs
  | appendChild this newChild => exact appendChild_kept h he.1 he.2 hs
  | insertBefore this newChild refChild =>
    obtain ⟨hp, hc, hr⟩ := he
    cases refChild with
    | none => exact appendChild_kept h hp hc hs
    | some refChild =>
      rcases h.findNode_some hp refChild with hf | hf
      · obtain ⟨x, hx⟩ := Store.exists_get hc
        obtain ⟨w, hw⟩ := Store.exists_get (by simpa using hr)
        obtain ⟨d', heq, -, hl⟩ := h.insertBefore_of_true hp hx hw hf (hs hf)
        exact ⟨d', _, heq, _, hl, .inl ⟨rfl, rfl⟩⟩
      · refine ⟨d, .NOT_FOUND_ERR, ?_, L, h, .inr ⟨rfl, rfl⟩⟩
        simp [Call.run, Store.insertBefore, hf]
  | replaceChild this newChild oldChild =>
    obtain ⟨hp, hc, hr⟩ := he
    cases oldChild with
    | none => exact ⟨d, .done, rfl, L, h, .inl ⟨rfl, rfl⟩⟩
    | some oldChild =>
      rcases h.findNode_some hp oldChild with hf | hf
      · obtain ⟨x, hx⟩ := Store.exists_get hc
        obtain ⟨w, hw⟩ := Store.exists_get (by simpa using hr)
        obtain ⟨d', heq, hl⟩ := h.replaceChild_of_true hp hx hw hf (hs hf).1 (hs hf).2
        exact ⟨d', _, heq, _, hl, .inl ⟨rfl, rfl⟩⟩
      · refine ⟨d, .NOT_FOUND_ERR, ?_, L, h, .inr ⟨rfl, rfl⟩⟩
        simp [Call.run, Store.replaceChild, hf]
  | removeChild this oldChild =>
    obtain ⟨hp, hc⟩ := he
    rcases h.findNode_some hp oldChild with hf | hf
    · obtain ⟨x, hx⟩ := Store.exists_get hc
      obtain ⟨hmem, d', heq, hw⟩ := h.removeChild_of_true hp hx hf
      exact ⟨d', _, heq, _, h.removed hx hmem hw (hs hf), .inl ⟨rfl, rfl⟩⟩
    · exact ⟨d, _, Store.removeChild_of_false hf, L, h, .inr ⟨rfl, rfl⟩⟩

/-- No nodes yet. -/
def Store.empty : Store := { nodes := ∅, found := false }

/-- `Document::createDocument`, where `a` is what `new` returns. -/
def createDocument (a : Addr) : Store :=
  Store.empty.create a .DOCUMENT_NODE ['#', 'd', 'o', 'c', 'u', 'm', 'e', 'n', 't'] none

/-- Calls on an empty document, one after the other; an exception does not end the run. -/
def machine : Machine Store Call where
  init d := ∃ a, d = createDocument a
  step d c := if c.Enabled d then (c.run d).map Prod.fst else none

theorem Store.WellLinked.empty : Store.empty.WellLinked fun _ _ ↦ [] where
  list _ _ _ h := nomatch h
  nodup _ _ := List.nodup_nil
  mem _ _ _ := by
    refine ⟨fun h ↦ absurd h List.not_mem_nil, ?_⟩
    rintro ⟨y, hy, -⟩
    cases hy
  parent_mem _ _ h := nomatch h
  acyclic a h := by
    obtain ⟨b, hab, -⟩ := Relation.TransGen.head'_iff.mp h
    cases hab
  owner_mem _ _ h := nomatch h

/-- The invariant is inductive along safe calls. -/
theorem wellLinked_inductive : machine.Inductive (fun d c ↦ c.Safe d) fun d ↦
    ∃ L, d.WellLinked L where
  init d h := by
    obtain ⟨a, rfl⟩ := h
    exact ⟨_, Store.WellLinked.empty.create (List.not_mem_nil) .DOCUMENT_NODE none⟩
  step d c d' h hs hstep := by
    obtain ⟨L, hl⟩ := h
    obtain ⟨he, hstep⟩ := Option.ite_none_right_eq_some.mp hstep
    obtain ⟨d₁, o, hrun, L', hl', -⟩ := c.run_kept hl he hs
    rw [hrun] at hstep
    obtain rfl := Option.some.inj hstep
    exact ⟨L', hl'⟩

/-- A child of a node whose children are `b` and `c` is one of them. -/
theorem Store.WellLinked.two_children (h : d.WellLinked L) {p b c : Addr} {z : NodeAct}
    (hz : d.get p = some z) (hfirst : z.firstChild = some b) (hb : d.next b = some c)
    (hc : d.next c = none) (a : Addr) (hab : a ≠ b) (hac : a ≠ c) (hside : d.sideOf a = some .child)
    (hpar : d.parent a = some p) : False := by
  have hlist := h.list .child p z hz
  change DList _ _ z.firstChild _ _ at hlist
  obtain ⟨y, hy, hs⟩ := Option.map_eq_some_iff.mp hside
  have hmem : a ∈ L .child p := (h.mem .child p a).mpr
    ⟨y, hy, (Store.parent_of_get hy).symm.trans hpar, hs⟩
  rw [hfirst] at hlist
  cases hl : L .child p with
  | nil => simp [hl] at hmem
  | cons b' l =>
    rw [hl] at hlist hmem
    obtain ⟨hb', -, hlist⟩ := hlist
    obtain rfl := Option.some.inj hb'
    rw [hb] at hlist
    cases l with
    | nil => simp [hab] at hmem
    | cons c' l =>
      obtain ⟨hc', -, hlist⟩ := hlist
      obtain rfl := Option.some.inj hc'
      rw [hc] at hlist
      cases l with
      | nil => simp [hab, hac] at hmem
      | cons e l => cases hlist.1

end Upnp.Dom
