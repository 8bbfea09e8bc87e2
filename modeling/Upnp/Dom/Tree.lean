import Mathlib.Data.List.Nodup
import Mathlib.Data.List.Infix
import Upnp.Lib.CString

/-!
# Documents that are only read

A parsed document as the reading functions of the DOM interface see it: each node
with its first child and its next sibling.  An element is found together with its
place, the positions among the siblings on the way down.
-/

namespace Upnp.Dom

open Upnp.Lib

/-- What a node holds. -/
inductive NodeData where
  | element (name : CString)
  | text (value : CString)
deriving DecidableEq, Repr

/-- A node with its children and the siblings behind it; `null` for no node. -/
inductive Forest where
  | null
  | node (data : NodeData) (firstChild nextSibling : Forest)
deriving DecidableEq, Repr

/-- A node that is found: its place, what it holds, and its children. -/
structure Found where
  path : List Nat
  data : NodeData
  firstChild : Forest
deriving DecidableEq, Repr

namespace Forest

/-- The nodes of a list of siblings and below, in the order of the document. -/
def nodes (path : List Nat) : Nat → Forest → List Found
  | _, null => []
  | i, node data firstChild nextSibling =>
    ⟨path ++ [i], data, firstChild⟩ ::
      (firstChild.nodes (path ++ [i]) 0 ++ nextSibling.nodes path (i + 1))

/-- The siblings alone. -/
def siblings (path : List Nat) : Nat → Forest → List Found
  | _, null => []
  | i, node data firstChild nextSibling =>
    ⟨path ++ [i], data, firstChild⟩ :: nextSibling.siblings path (i + 1)

end Forest

namespace Found

/-- The nodes below. -/
def below (x : Found) : List Found := x.firstChild.nodes x.path 0

/-- The test of `SearchList`. -/
def hasTagName (tagname : CString) (x : Found) : Bool :=
  match x.data with
  | .text _ => false
  | .element name =>
    let local_name := (name.dropWhile (· ≠ ':')).drop 1
    tagname = ['*'] || tagname =
      (if ':' ∈ tagname ∨ ':' ∉ name then name else local_name)

/-- `getElementsByTagName`: the nodes below that pass the test of `SearchList`. -/
def getElementsByTagName (x : Found) (tagname : CString) : List Found :=
  x.below.filter (hasTagName tagname)

/-- `getSubElement`: the first child that is an element of the name. -/
def getSubElement (element_name : CString) (x : Found) : Option Found :=
  (x.firstChild.siblings x.path 0).find? fun child ↦ child.data = .element element_name

/-- `getElementValue`. -/
def getElementValue (x : Found) : Option CString :=
  match x.firstChild with
  | .node (.text value) _ _ => some value
  | _ => none

end Found

/-! ## Places -/

variable {path : List Nat} {i : Nat} {f : Forest} {x y : Found}

/-- The place of a node begins with that of the list of siblings, and then with a position that
is not passed. -/
theorem Forest.path_of_mem_nodes (h : x ∈ f.nodes path i) :
    ∃ j rest, i ≤ j ∧ x.path = path ++ j :: rest := by
  induction f generalizing path i with
  | null => cases h
  | node data firstChild nextSibling ihChild ihNext =>
    rw [nodes, List.mem_cons, List.mem_append] at h
    rcases h with rfl | h | h
    · exact ⟨i, [], le_rfl, rfl⟩
    · obtain ⟨j, rest, -, hpath⟩ := ihChild h
      refine ⟨i, j :: rest, le_rfl, ?_⟩
      rw [hpath, List.append_assoc]
      rfl
    · obtain ⟨j, rest, hle, hpath⟩ := ihNext h
      exact ⟨j, rest, Nat.le_of_succ_le hle, hpath⟩

/-- No two nodes have the same place. -/
theorem Forest.nodup_nodes (f : Forest) (path : List Nat) (i : Nat) :
    ((f.nodes path i).map Found.path).Nodup := by
  induction f generalizing path i with
  | null => exact List.nodup_nil
  | node data firstChild nextSibling ihChild ihNext =>
    rw [nodes, List.map_cons, List.nodup_cons, List.map_append, List.mem_append]
    refine ⟨?_, (ihChild _ 0).append (ihNext path (i + 1)) ?_⟩
    · rintro (h | h)
      · obtain ⟨x, hx, hpath⟩ := List.mem_map.mp h
        obtain ⟨j, rest, -, hx⟩ := path_of_mem_nodes hx
        rw [hx] at hpath
        have := congrArg List.length hpath
        simp only [List.length_append, List.length_cons, List.length_nil] at this
        omega
      · obtain ⟨x, hx, hpath⟩ := List.mem_map.mp h
        obtain ⟨j, rest, hle, hx⟩ := path_of_mem_nodes hx
        rw [hx, List.append_cancel_left_eq, List.cons.injEq] at hpath
        omega
    · intro p hp hq
      obtain ⟨x, hx, rfl⟩ := List.mem_map.mp hp
      obtain ⟨y, hy, hpath⟩ := List.mem_map.mp hq
      obtain ⟨j, rest, -, hx⟩ := path_of_mem_nodes hx
      obtain ⟨k, rest', hle, hy⟩ := path_of_mem_nodes hy
      rw [hx, hy, List.append_assoc, List.append_cancel_left_eq, List.singleton_append,
        List.cons.injEq] at hpath
      omega

/-- A node is not behind what lies below it. -/
theorem Forest.pairwise_nodes (f : Forest) (path : List Nat) (i : Nat) :
    (f.nodes path i).Pairwise fun x y ↦ ¬ y.path <+: x.path := by
  induction f generalizing path i with
  | null => exact List.Pairwise.nil
  | node data firstChild nextSibling ihChild ihNext =>
    rw [nodes]
    refine List.pairwise_cons.mpr ⟨?_, List.pairwise_append.mpr ⟨ihChild _ 0, ihNext path _, ?_⟩⟩
    · intro y hy hbehind
      have hlength := hbehind.length_le
      rcases List.mem_append.mp hy with hy | hy
      · obtain ⟨j, rest, -, hpath⟩ := path_of_mem_nodes hy
        simp only [hpath, List.length_append, List.length_cons, List.length_nil] at hlength
        omega
      · obtain ⟨j, rest, hle, hpath⟩ := path_of_mem_nodes hy
        rw [hpath, List.prefix_append_right_inj, List.cons_prefix_cons] at hbehind
        omega
    · intro x hx y hy hbehind
      obtain ⟨j, rest, -, hx⟩ := path_of_mem_nodes hx
      obtain ⟨k, rest', hle, hy⟩ := path_of_mem_nodes hy
      rw [hx, hy, List.append_assoc, List.prefix_append_right_inj, List.singleton_append,
        List.cons_prefix_cons] at hbehind
      omega

/-- What is below a node of the document is in the document. -/
theorem Forest.mem_nodes_of_mem_below (hx : x ∈ f.nodes path i) (hy : y ∈ x.below) :
    y ∈ f.nodes path i := by
  induction f generalizing path i with
  | null => cases hx
  | node data firstChild nextSibling ihChild ihNext =>
    rw [nodes, List.mem_cons, List.mem_append] at hx ⊢
    rcases hx with rfl | hx | hx
    · exact .inr (.inl hy)
    · exact .inr (.inl (ihChild hx))
    · exact .inr (.inr (ihNext hx))

theorem Forest.mem_nodes_of_mem_siblings (hx : x ∈ f.siblings path i) : x ∈ f.nodes path i := by
  induction f generalizing path i with
  | null => cases hx
  | node data firstChild nextSibling _ ihNext =>
    rw [siblings, List.mem_cons] at hx
    rw [nodes, List.mem_cons, List.mem_append]
    exact hx.imp_right fun hx ↦ .inr (ihNext hx)

theorem Forest.path_of_mem_siblings (hx : x ∈ f.siblings path i) :
    ∃ j, i ≤ j ∧ x.path = path ++ [j] := by
  induction f generalizing path i with
  | null => cases hx
  | node data firstChild nextSibling _ ihNext =>
    rw [siblings, List.mem_cons] at hx
    rcases hx with rfl | hx
    · exact ⟨i, le_rfl, rfl⟩
    · obtain ⟨j, hle, hpath⟩ := ihNext hx
      exact ⟨j, Nat.le_of_succ_le hle, hpath⟩

namespace Found

variable {tagname : CString}

theorem path_of_mem_below (h : y ∈ x.below) : ∃ j rest, y.path = x.path ++ j :: rest := by
  obtain ⟨j, rest, -, hpath⟩ := Forest.path_of_mem_nodes h
  exact ⟨j, rest, hpath⟩

theorem mem_below_of_getElementsByTagName (h : y ∈ x.getElementsByTagName tagname) : y ∈ x.below :=
  (List.mem_filter.mp h).1

theorem nodup_getElementsByTagName (x : Found) (tagname : CString) :
    ((x.getElementsByTagName tagname).map Found.path).Nodup :=
  (x.firstChild.nodup_nodes x.path 0).sublist (List.filter_sublist.map _)

theorem pairwise_getElementsByTagName (x : Found) (tagname : CString) :
    (x.getElementsByTagName tagname).Pairwise fun y z ↦ ¬ z.path <+: y.path :=
  (x.firstChild.pairwise_nodes x.path 0).sublist List.filter_sublist

/-- A child that is found. -/
theorem getSubElement_some (h : x.getSubElement tagname = some y) :
    y ∈ x.below ∧ (∃ j, y.path = x.path ++ [j]) ∧ y.data = .element tagname := by
  rw [getSubElement] at h
  have hmem := List.mem_of_find?_eq_some h
  obtain ⟨j, -, hpath⟩ := Forest.path_of_mem_siblings hmem
  have hdata := List.find?_some h
  exact ⟨Forest.mem_nodes_of_mem_siblings hmem, ⟨j, hpath⟩, of_decide_eq_true hdata⟩

theorem mem_below_trans {z : Found} (hy : y ∈ x.below) (hz : z ∈ y.below) : z ∈ x.below :=
  Forest.mem_nodes_of_mem_below hy hz

/-- Nodes of one document are the same when their places are. -/
theorem eq_of_path {z : Found} (hy : y ∈ x.below) (hz : z ∈ x.below) (h : y.path = z.path) :
    y = z :=
  List.inj_on_of_nodup_map (x.firstChild.nodup_nodes x.path 0) hy hz h

end Found

end Upnp.Dom
