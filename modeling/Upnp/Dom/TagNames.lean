import Mathlib.Data.List.Nodup
import Upnp.Dom.LinkInvariant
import Upnp.Dom.Search

/-!
# Elements by their tag names

`getElementsByTagName` of `Document.cpp` and `Element.cpp`, over the links of a document: the walk of
`SearchList` and the list that it builds.  The nodes through which the interface refers to the tree
are left out.
-/

namespace Upnp.Dom

open Upnp.Lib

/-- `InternalList`, from a cell on. -/
inductive InternalList where
  | null
  | cell (ofWho : Addr) (next : InternalList)

namespace InternalList

/-- `addToInternalList`: the new cell comes behind the last one. -/
def addToInternalList (add : Addr) : InternalList → InternalList
  | null => cell add null
  | cell ofWho next => cell ofWho (next.addToInternalList add)

def getLength : InternalList → Nat
  | null => 0
  | cell _ next => next.getLength + 1

/-- The loop of `item`, and the node of the cell that it stops at; `none` for a null pointer. -/
def step : InternalList → Nat → Option Addr
  | null, _ => none
  | cell ofWho _, 0 => some ofWho
  | cell _ next, index + 1 => next.step index

/-- `item`: a null node behind the end.  `getLength() - 1` is the greatest number when the list is
empty. -/
def item (l : InternalList) (index : Nat) : Option (Option Addr) :=
  if l.getLength ≠ 0 ∧ l.getLength - 1 < index then some none else (l.step index).map some

/-- The nodes in the list. -/
def nodes : InternalList → List Addr
  | null => []
  | cell ofWho next => ofWho :: next.nodes

variable (l : InternalList) {add : Addr} {index : Nat}

@[simp] theorem nodes_add : (l.addToInternalList add).nodes = l.nodes ++ [add] := by
  induction l with
  | null => rfl
  | cell ofWho next ih =>
    rw [addToInternalList, nodes, ih]
    rfl

@[simp] theorem length_nodes : l.nodes.length = l.getLength := by
  induction l with
  | null => rfl
  | cell ofWho next ih => rw [nodes, List.length_cons, ih, getLength]

theorem step_eq : l.step index = l.nodes[index]? := by
  induction l generalizing index with
  | null => rfl
  | cell ofWho next ih =>
    cases index with
    | zero => rfl
    | succ index =>
      rw [step, ih]
      rfl

theorem item_eq (h : index < l.getLength) : l.item index = l.nodes[index]?.map some := by
  have hle : ¬ (l.getLength ≠ 0 ∧ l.getLength - 1 < index) := fun hlt ↦ by omega
  rw [item, if_neg hle, step_eq]

end InternalList

namespace Store

/-- The loop of `SearchList` over the children from `child`, with its calls for them. -/
def searchLoop (d : Store) (tagname : CString) (search : Addr → InternalList → Option InternalList) :
    Nat → Option Addr → InternalList → Option InternalList
  | _, none, lst => some lst
  | 0, some _, _ => none
  | n + 1, some child, lst => do
    let x ← d.get child
    let lst := if x.nodeType = .ELEMENT_NODE ∧ isTagged tagname x.nodeName = true then
      lst.addToInternalList child else lst
    let lst ← search child lst
    searchLoop d tagname search n x.nextSibling lst

/-- `SearchList`, on a tree of some depth. -/
def SearchList (d : Store) (tagname : CString) : Nat → Addr → InternalList → Option InternalList
  | 0, _, _ => none
  | n + 1, a, lst => do
    let x ← d.get a
    d.searchLoop tagname (d.SearchList tagname n) d.nodes.size x.firstChild lst

/-- `Document::getElementsByTagName`. -/
def documentElements (d : Store) (this : Addr) (tagname : CString) : Option InternalList :=
  d.SearchList tagname d.nodes.size this .null

/-- `Element::getElementsByTagName`: the element is marked as a document during the search. -/
def elementElements (d : Store) (this : Addr) (tagname : CString) :
    Option (InternalList × Store) := do
  let d ← d.modify this fun x ↦ { x with nodeType := .DOCUMENT_NODE }
  let lst ← d.SearchList tagname d.nodes.size this .null
  let d ← d.modify this fun x ↦ { x with nodeType := .ELEMENT_NODE }
  some (lst, d)

/-! ## What is to be found -/

/-- The name behind the first colon, or the whole name. -/
def localPart (name : CString) : CString :=
  if ':' ∈ name then (name.dropWhile (· ≠ ':')).tail else name

/-- A tag name stands for all names, for a full name, or for the local part of names. -/
def NameMatches (tagname name : CString) : Prop :=
  tagname = ['*'] ∨ (if ':' ∈ tagname then name = tagname else localPart name = tagname)

instance (tagname name : CString) : Decidable (NameMatches tagname name) :=
  inferInstanceAs (Decidable (_ ∨ _))

/-- An element of a matching name. -/
def IsMatch (d : Store) (tagname : CString) (a : Addr) : Prop :=
  ∃ x, d.get a = some x ∧ x.nodeType = .ELEMENT_NODE ∧ NameMatches tagname x.nodeName

instance (d : Store) (tagname : CString) (a : Addr) : Decidable (IsMatch d tagname a) :=
  decidable_of_iff (((d.get a).any fun x ↦
    x.nodeType = .ELEMENT_NODE ∧ NameMatches tagname x.nodeName) = true)
    (by simp only [IsMatch, Option.any_eq_true, decide_eq_true_eq])

/-- The nodes below a node in document order, down to a depth. -/
def descendants (L : Side → Addr → List Addr) : Nat → Addr → List Addr
  | 0, _ => []
  | n + 1, a => (L .child a).flatMap fun k ↦ k :: descendants L n k

/-- A list has the matching elements below a node, each once and in document order. -/
structure Lists (d : Store) (L : Side → Addr → List Addr) (a : Addr) (tagname : CString)
    (lst : InternalList) : Prop where
  order : lst.nodes = (descendants L d.nodes.size a).filter (IsMatch d tagname ·)
  once : lst.nodes.Nodup
  mem : ∀ b, b ∈ lst.nodes ↔
    Relation.TransGen (fun a b ↦ b ∈ L .child a) a b ∧ IsMatch d tagname b
  item : ∀ i, i < lst.getLength → ∃ b, lst.nodes[i]? = some b ∧ lst.item i = some (some b)

variable {d d' : Store} {L : Side → Addr → List Addr} {a b k q : Addr} {n : Nat} {x : NodeAct}
  {tagname name : CString} {lst : InternalList}

/-! ## Names -/

theorem strchr_eq_none_iff {s : CString} {c : Char} : strchr s c = none ↔ c ∉ s := by
  induction s with
  | nil => exact iff_of_true rfl List.not_mem_nil
  | cons b s ih =>
    rw [strchr, List.mem_cons, not_or, ← ih]
    by_cases hb : b = c
    · rw [if_pos hb]
      exact iff_of_false (Option.some_ne_none (b :: s)) fun h ↦ h.1 hb.symm
    · rw [if_neg hb]
      exact ⟨fun h ↦ ⟨fun heq ↦ hb heq.symm, h⟩, fun h ↦ h.2⟩

theorem strchr_eq_some {s : CString} {c : Char} (h : c ∈ s) :
    strchr s c = some (s.dropWhile (· ≠ c)) := by
  induction s with
  | nil => cases h
  | cons b s ih =>
    rw [strchr]
    split_ifs with hb
    · rw [List.dropWhile_cons_of_neg (by simpa using hb)]
    · rw [List.dropWhile_cons_of_pos (by simpa using hb)]
      rcases List.mem_cons.mp h with rfl | h
      · exact absurd rfl hb
      · exact ih h

theorem localName_eq (name : CString) : localName name = localPart name := by
  rw [localName, localPart]
  by_cases h : ':' ∈ name
  · rw [strchr_eq_some h, if_pos h]
  · rw [strchr_eq_none_iff.mpr h, if_neg h]

/-- The test of `SearchList`. -/
theorem isTagged_iff : isTagged tagname name = true ↔ NameMatches tagname name := by
  rw [isTagged, NameMatches, Bool.or_eq_true, decide_eq_true_eq, decide_eq_true_eq, or_comm,
    localName_eq]
  by_cases h : ':' ∈ tagname
  · have hsome : strchr tagname ':' ≠ none := fun hnone ↦ strchr_eq_none_iff.mp hnone h
    rw [if_pos h, if_neg hsome]
    exact or_congr Iff.rfl eq_comm
  · rw [if_neg h, if_pos (strchr_eq_none_iff.mpr h)]
    exact or_congr Iff.rfl eq_comm

/-! ## The walk -/

/-- The list of a loop grows by what its calls find. -/
theorem searchLoop_spec {search : Addr → InternalList → Option InternalList} {found : Addr → List Addr}
    {l : List Addr} {prev first last : Option Addr} {fuel : Nat}
    (hseg : DSeg d.next d.prev prev first l last none) (hmem : ∀ k ∈ l, k ∈ d.nodes)
    (hfuel : l.length ≤ fuel)
    (hsearch : ∀ k ∈ l, ∀ lst, ∃ lst', search k lst = some lst' ∧ lst'.nodes = lst.nodes ++ found k) :
    ∃ lst', d.searchLoop tagname search fuel first lst = some lst' ∧
      lst'.nodes = lst.nodes ++
        l.flatMap fun k ↦ (if IsMatch d tagname k then [k] else []) ++ found k := by
  induction l generalizing prev first fuel lst with
  | nil =>
    obtain ⟨rfl, -⟩ := hseg
    refine ⟨lst, by cases fuel <;> rfl, ?_⟩
    rw [List.flatMap_nil, List.append_nil]
  | cons k l ih =>
    obtain ⟨rfl, -, hseg⟩ := hseg
    rw [List.forall_mem_cons] at hmem hsearch
    obtain ⟨fuel, rfl⟩ := Nat.exists_eq_succ_of_ne_zero (Nat.ne_zero_of_lt hfuel)
    obtain ⟨x, hx⟩ := exists_get hmem.1
    have hmatch : (x.nodeType = .ELEMENT_NODE ∧ isTagged tagname x.nodeName = true) ↔
        IsMatch d tagname k := by
      rw [isTagged_iff]
      constructor
      · intro h
        exact ⟨x, hx, h⟩
      · rintro ⟨y, hy, h⟩
        obtain rfl := Option.some.inj (hx.symm.trans hy)
        exact h
    rw [next_of_get hx] at hseg
    set lst₁ := if x.nodeType = .ELEMENT_NODE ∧ isTagged tagname x.nodeName = true then
      lst.addToInternalList k else lst with hlst₁
    have hnodes : lst₁.nodes = lst.nodes ++ if IsMatch d tagname k then [k] else [] := by
      rw [hlst₁, if_congr hmatch rfl rfl]
      split_ifs
      · exact InternalList.nodes_add lst
      · exact (List.append_nil _).symm
    obtain ⟨lst₂, h₂, hnodes₂⟩ := hsearch.1 lst₁
    obtain ⟨lst₃, h₃, hnodes₃⟩ := @ih lst₂ _ _ _ hseg hmem.2 (Nat.le_of_succ_le_succ hfuel) hsearch.2
    refine ⟨lst₃, ?_, ?_⟩
    · simp only [searchLoop, hx, Option.bind_eq_bind, Option.bind_some, ← hlst₁, h₂, h₃]
    · rw [hnodes₃, hnodes₂, hnodes, List.flatMap_cons]
      simp only [List.append_assoc]

/-- `SearchList` appends the matching elements below a node. -/
theorem SearchList_spec (hk : Kids d L) (ha : a ∈ d.nodes) (hdepth : HasDepth L n a)
    (lst : InternalList) : ∃ lst', d.SearchList tagname n a lst = some lst' ∧
      lst'.nodes = lst.nodes ++ (descendants L n a).filter (IsMatch d tagname ·) := by
  induction n generalizing a lst with
  | zero => exact hdepth.elim
  | succ n ih =>
    obtain ⟨x, hx⟩ := exists_get ha
    obtain ⟨t, ht⟩ := hk.seg a x hx
    obtain ⟨lst', h, hnodes⟩ := @searchLoop_spec _ tagname lst _
      (fun k ↦ (descendants L n k).filter (IsMatch d tagname ·)) _ _ _ _ _ ht (hk.mem a)
      (hk.length_le a) fun k hkmem lst ↦ ih (hk.mem a k hkmem) (hdepth k hkmem) lst
    refine ⟨lst', ?_, ?_⟩
    · rw [SearchList, hx]
      exact h
    · rw [hnodes, descendants, List.filter_flatMap]
      congr 2
      funext k
      rw [List.filter_cons]
      by_cases hmatch : IsMatch d tagname k
      · rw [if_pos hmatch, if_pos (decide_eq_true hmatch)]
        rfl
      · rw [if_neg hmatch, if_neg (by simpa using hmatch)]
        rfl

/-! ## Document order -/

theorem mem_descendants (hdepth : HasDepth L n a) :
    b ∈ descendants L n a ↔ Relation.TransGen (fun a b ↦ b ∈ L .child a) a b := by
  induction n generalizing a with
  | zero => exact hdepth.elim
  | succ n ih =>
    rw [descendants, List.mem_flatMap, Relation.TransGen.head'_iff]
    constructor
    · rintro ⟨k, hk, hb⟩
      refine ⟨k, hk, ?_⟩
      rcases List.mem_cons.mp hb with rfl | hb
      · exact .refl
      · exact ((ih (hdepth k hk)).mp hb).to_reflTransGen
    · rintro ⟨k, hk, hb⟩
      refine ⟨k, hk, ?_⟩
      rcases Relation.reflTransGen_iff_eq_or_transGen.mp hb with rfl | hb
      · exact List.mem_cons_self ..
      · exact List.mem_cons_of_mem _ ((ih (hdepth k hk)).mpr hb)

/-- What is below a node is so by the links to the parents. -/
theorem WellLinked.transGen_parent (h : d.WellLinked L)
    (hb : Relation.TransGen (fun a b ↦ b ∈ L .child a) a b) : Relation.TransGen d.IsParent a b :=
  hb.lift id fun _ _ hk ↦ h.linked.parent_eq hk

/-- Two children of a node have no node in common below them. -/
theorem WellLinked.eq_of_above (h : d.WellLinked L) {k' : Addr} (hk : d.IsParent a k)
    (hk' : d.IsParent a k') (hq : Relation.ReflTransGen d.IsParent k q)
    (hq' : Relation.ReflTransGen d.IsParent k' q) : k = k' := by
  have hunique : Relator.RightUnique (Function.swap d.IsParent) := fun b a a' ha ha' ↦
    Option.some.inj (ha.symm.trans ha')
  have hnot : ∀ k k', d.IsParent a k → d.IsParent a k' → Relation.ReflTransGen d.IsParent k k' →
      k = k' := by
    intro k k' hk hk' hkk
    rcases Relation.ReflTransGen.cases_tail hkk with heq | ⟨p, hkp, hp⟩
    · exact heq.symm
    · obtain rfl := Option.some.inj (hp.symm.trans hk')
      exact absurd (Relation.TransGen.head' hk hkp) (h.acyclic _)
  rcases Relation.ReflTransGen.total_of_right_unique hunique hq.swap hq'.swap with hkk | hkk
  · exact (hnot k' k hk' hk hkk.swap).symm
  · exact hnot k k' hk hk' hkk.swap

theorem WellLinked.nodup_descendants (h : d.WellLinked L) (hdepth : HasDepth L n a) :
    (descendants L n a).Nodup := by
  induction n generalizing a with
  | zero => exact hdepth.elim
  | succ n ih =>
    rw [descendants, List.nodup_flatMap]
    constructor
    · intro k hk
      refine List.nodup_cons.mpr ⟨fun hmem ↦ ?_, ih (hdepth k hk)⟩
      exact h.acyclic k (h.transGen_parent ((mem_descendants (hdepth k hk)).mp hmem))
    · have hbelow : ∀ k ∈ L .child a, ∀ q ∈ k :: descendants L n k,
          Relation.ReflTransGen d.IsParent k q := by
        intro k hk q hq
        rcases List.mem_cons.mp hq with rfl | hq
        · exact .refl
        · exact (h.transGen_parent ((mem_descendants (hdepth k hk)).mp hq)).to_reflTransGen
      refine (h.nodup .child a).imp_of_mem fun {k k'} hk hk' hne q hq hq' ↦ hne ?_
      exact h.eq_of_above (h.linked.parent_eq hk) (h.linked.parent_eq hk') (hbelow k hk q hq)
        (hbelow k' hk' q hq')

/-! ## `getElementsByTagName` -/

/-- A list that is the filtered descendants is the right one. -/
theorem WellLinked.lists (h : d.WellLinked L) (ha : a ∈ d.nodes)
    (horder : lst.nodes = (descendants L d.nodes.size a).filter (IsMatch d tagname ·)) :
    Lists d L a tagname lst := by
  have hdepth := h.hasDepth ha
  refine ⟨horder, ?_, fun b ↦ ?_, fun i hi ↦ ?_⟩
  · rw [horder]
    exact (h.nodup_descendants hdepth).filter _
  · rw [horder, List.mem_filter, mem_descendants hdepth, decide_eq_true_eq]
  · have hlt : i < lst.nodes.length := by
      rw [InternalList.length_nodes]
      exact hi
    refine ⟨lst.nodes[i], List.getElem?_eq_getElem hlt, ?_⟩
    rw [InternalList.item_eq lst hi, List.getElem?_eq_getElem hlt, Option.map_some]

end Store

end Upnp.Dom
