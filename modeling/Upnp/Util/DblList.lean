import Upnp.Lib.DoublyLinked
import Upnp.Lib.Heap
import Upnp.Lib.Machine

/-!
# The doubly linked list of the utility library

`dblList` of `dbllist.cpp`: nodes in the heap between two sentinels, and a count.  Reading or
writing through a null pointer or to memory that is not in use faults, that is, gives `none`.
Allocations succeed; assertions are compiled out, as the makefiles have it; there are fewer nodes
than an `int` counts.

The operations are run next to those on a sequence of nodes and their items, which is what a list
is for.
-/

namespace Upnp.Util

open Upnp.Lib

variable {ι : Type}

/-- `dblListNode`; `data` is `none` before it is written. -/
structure DblListNode (ι : Type) where
  data : Option ι
  next : Option Addr
  prev : Option Addr

/-- `dblList` and the memory its nodes are in. -/
structure DblList (ι : Type) where
  heap : Heap (DblListNode ι)
  head : Addr
  tail : Addr
  len : Int
  /-- The items `destroyItem`, or `free`, was called for. -/
  destroyed : List ι
  /-- What the calls of `find` returned. -/
  found : List (Option Addr)

/-! ## Fields of nodes -/

/-- `node->next`, for a node in use. -/
def nextOf (h : Heap (DblListNode ι)) (node : Addr) : Option (Option Addr) :=
  (h.get node).map DblListNode.next

/-- `node->prev`. -/
def prevOf (h : Heap (DblListNode ι)) (node : Addr) : Option (Option Addr) :=
  (h.get node).map DblListNode.prev

/-- `node->data`. -/
def dataOf (h : Heap (DblListNode ι)) (node : Addr) : Option ι := (h.get node).bind DblListNode.data

/-- `node->next = next`. -/
def setNext (h : Heap (DblListNode ι)) (node : Addr) (next : Option Addr) :
    Option (Heap (DblListNode ι)) :=
  (h.get node).bind fun n ↦ h.set node { n with next := next }

/-- `node->prev = prev`. -/
def setPrev (h : Heap (DblListNode ι)) (node : Addr) (prev : Option Addr) :
    Option (Heap (DblListNode ι)) :=
  (h.get node).bind fun n ↦ h.set node { n with prev := prev }

/-! ## The operations -/

namespace DblList

/-- `insertAfter`. -/
def insertAfter (s : DblList ι) (node newNode : Addr) : Option (DblList ι) := do
  let h ← setNext s.heap newNode (← nextOf s.heap node)
  let h ← setPrev h newNode (some node)
  let behind ← nextOf h node
  let h ← setPrev h (← behind) (some newNode)
  let h ← setNext h node (some newNode)
  return { s with heap := h, len := s.len + 1 }

/-- `insertBefore`. -/
def insertBefore (s : DblList ι) (node newNode : Addr) : Option (DblList ι) := do
  let h ← setNext s.heap newNode (some node)
  let h ← setPrev h newNode (← prevOf h node)
  let before ← prevOf h node
  let h ← setNext h (← before) (some newNode)
  let h ← setPrev h node (some newNode)
  return { s with heap := h, len := s.len + 1 }

/-- `new dblListNode` at an address not in use, and its item. -/
def newNode (s : DblList ι) (item : ι) (new : Addr) : Option (DblList ι) :=
  if new ∈ s.heap then none else some { s with heap := s.heap.alloc new ⟨some item, none, none⟩ }

/-- `addAfter`. -/
def addAfter (s : DblList ι) (node : Addr) (item : ι) (new : Addr) : Option (DblList ι) := do
  (← s.newNode item new).insertAfter node new

/-- `addBefore`. -/
def addBefore (s : DblList ι) (node : Addr) (item : ι) (new : Addr) : Option (DblList ι) := do
  (← s.newNode item new).insertBefore node new

/-- `addAfterTail`. -/
def addAfterTail (s : DblList ι) (item : ι) (new : Addr) : Option (DblList ι) :=
  s.addBefore s.tail item new

/-- `addBeforeHead`. -/
def addBeforeHead (s : DblList ι) (item : ι) (new : Addr) : Option (DblList ι) :=
  s.addAfter s.head item new

/-- `remove`. -/
def remove (s : DblList ι) (node : Addr) (freeNodeMemory : Bool) : Option (DblList ι) := do
  let before ← prevOf s.heap node
  let h ← setNext s.heap (← before) (← nextOf s.heap node)
  let behind ← nextOf h node
  let h ← setPrev h (← behind) (← prevOf h node)
  let h ← setNext h node none
  let h ← setPrev h node none
  if freeNodeMemory then
    let item ← dataOf h node
    let h ← h.free node
    return { s with heap := h, len := s.len - 1, destroyed := s.destroyed ++ [item] }
  else
    return { s with heap := h, len := s.len - 1 }

/-- The loop of `removeAll`. -/
def removeAllLoop (freeNodeMemory : Bool) : Nat → DblList ι → Option (DblList ι)
  | 0, _ => none
  | fuel + 1, s => do
    let first ← nextOf s.heap s.head
    if first = some s.tail then return s
    else removeAllLoop freeNodeMemory fuel (← s.remove (← first) freeNodeMemory)

/-- `removeAll`; a list has fewer nodes than the memory. -/
def removeAll (s : DblList ι) (freeNodeMemory : Bool) : Option (DblList ι) :=
  removeAllLoop freeNodeMemory s.heap.size s

/-- `getFirstItem`. -/
def getFirstItem (s : DblList ι) : Option (Option Addr) := do
  let first ← nextOf s.heap s.head
  return if first = some s.tail then none else first

/-- `next`; `none` also when it throws. -/
def next (s : DblList ι) (node : Option Addr) : Option (Option Addr) := do
  if s.len = 0 then failure
  else
    let behind ← nextOf s.heap (← node)
    return if behind = some s.tail then none else behind

variable [DecidableEq ι]

/-- The comparison of `find`; without `compareItems` the pointers are compared. -/
def matchesItem (compareItems : Option (ι → ι → Bool)) (data item : ι) : Bool :=
  match compareItems with
  | none => data = item
  | some compare => compare data item

/-- The loop of `find`. -/
def findLoop (compareItems : Option (ι → ι → Bool)) (s : DblList ι) (item : ι) :
    Nat → Option Addr → Option (Option Addr)
  | 0, _ => none
  | _ + 1, none => some none
  | fuel + 1, some node => do
    if matchesItem compareItems (← dataOf s.heap node) item then return some node
    else findLoop compareItems s item fuel (← s.next (some node))

/-- `find`. -/
def find (compareItems : Option (ι → ι → Bool)) (s : DblList ι) (item : ι) :
    Option (Option Addr) := do
  findLoop compareItems s item s.heap.size (← s.getFirstItem)

end DblList

/-! ## The system -/

/-- The operations on a list.  `newNode` is a caller's own node, for `insertAfter` and
`insertBefore`; `new` answers the address given. -/
inductive DblOp (ι : Type) where
  | newNode (item : ι) (new : Addr)
  | addBeforeHead (item : ι) (new : Addr)
  | addAfterTail (item : ι) (new : Addr)
  | addAfter (node : Addr) (item : ι) (new : Addr)
  | addBefore (node : Addr) (item : ι) (new : Addr)
  | insertAfter (node newNode : Addr)
  | insertBefore (node newNode : Addr)
  | remove (node : Addr) (freeNodeMemory : Bool)
  | removeAll (freeNodeMemory : Bool)
  | find (item : ι)

/-- The list after the constructor. -/
def DblList.empty (head tail : Addr) : DblList ι where
  heap := Heap.alloc (Heap.alloc ∅ head ⟨none, some tail, none⟩) tail ⟨none, none, some head⟩
  head := head
  tail := tail
  len := 0
  destroyed := []
  found := []

variable [DecidableEq ι]

/-- One operation; `none` for a fault. -/
def DblList.step (compareItems : Option (ι → ι → Bool)) (s : DblList ι) :
    DblOp ι → Option (DblList ι)
  | .newNode item new => s.newNode item new
  | .addBeforeHead item new => s.addBeforeHead item new
  | .addAfterTail item new => s.addAfterTail item new
  | .addAfter node item new => s.addAfter node item new
  | .addBefore node item new => s.addBefore node item new
  | .insertAfter node newNode => s.insertAfter node newNode
  | .insertBefore node newNode => s.insertBefore node newNode
  | .remove node freeNodeMemory => s.remove node freeNodeMemory
  | .removeAll freeNodeMemory => s.removeAll freeNodeMemory
  | .find item => (s.find compareItems item).map fun r ↦ { s with found := s.found ++ [r] }

/-- Lists with the sentinels given. -/
def dblList (compareItems : Option (ι → ι → Bool)) (head tail : Addr) :
    Machine (DblList ι) (DblOp ι) where
  init s := s = DblList.empty head tail
  step := DblList.step compareItems

/-! ## Sequences -/

/-- What a list stands for: its nodes with their items in order, the nodes that are the callers'
own, and the two logs. -/
structure DblSeq (ι : Type) where
  items : List (Addr × ι)
  own : List (Addr × ι)
  destroyed : List ι
  found : List (Option Addr)

/-- A node is put behind the one named. -/
def putAfter (node : Addr) (new : Addr × ι) : List (Addr × ι) → Option (List (Addr × ι))
  | [] => none
  | x :: l => if x.1 = node then some (x :: new :: l) else (putAfter node new l).map (x :: ·)

/-- A node is put before the one named. -/
def putBefore (node : Addr) (new : Addr × ι) : List (Addr × ι) → Option (List (Addr × ι))
  | [] => none
  | x :: l => if x.1 = node then some (new :: x :: l) else (putBefore node new l).map (x :: ·)

/-- The node named is taken out. -/
def takeOut (node : Addr) : List (Addr × ι) → Option ((Addr × ι) × List (Addr × ι))
  | [] => none
  | x :: l => if x.1 = node then some (x, l) else (takeOut node l).map fun (y, l) ↦ (y, x :: l)

namespace DblSeq

/-- The address is a sentinel's or a node's. -/
def Used (t : DblSeq ι) (head tail a : Addr) : Prop :=
  a = head ∨ a = tail ∨ a ∈ t.items.map Prod.fst ∨ a ∈ t.own.map Prod.fst

instance (t : DblSeq ι) (head tail a : Addr) : Decidable (t.Used head tail a) :=
  inferInstanceAs (Decidable (_ ∨ _))

/-- A new node is put into the sequence, at an address not in use. -/
def add (t : DblSeq ι) (head tail new : Addr) (items : Option (List (Addr × ι))) :
    Option (DblSeq ι) :=
  if t.Used head tail new then none else items.map fun items ↦ { t with items := items }

/-- A node of the caller's is put into the sequence. -/
def insert (t : DblSeq ι) (newNode : Addr)
    (put : Addr × ι → List (Addr × ι) → Option (List (Addr × ι))) : Option (DblSeq ι) :=
  (takeOut newNode t.own).bind fun (new, own) ↦
    (put new t.items).map fun items ↦ { t with items := items, own := own }

/-- The same operations on sequences; `none` when a node named is not in its list, or an address
is in use. -/
def step (compareItems : Option (ι → ι → Bool)) (head tail : Addr) (t : DblSeq ι) :
    DblOp ι → Option (DblSeq ι)
  | .newNode item new =>
    if t.Used head tail new then none else some { t with own := (new, item) :: t.own }
  | .addBeforeHead item new => t.add head tail new (some ((new, item) :: t.items))
  | .addAfterTail item new => t.add head tail new (some (t.items ++ [(new, item)]))
  | .addAfter node item new => t.add head tail new (putAfter node (new, item) t.items)
  | .addBefore node item new => t.add head tail new (putBefore node (new, item) t.items)
  | .insertAfter node newNode => t.insert newNode (putAfter node)
  | .insertBefore node newNode => t.insert newNode (putBefore node)
  | .remove node freeNodeMemory =>
    (takeOut node t.items).map fun (x, items) ↦
      if freeNodeMemory then { t with items := items, destroyed := t.destroyed ++ [x.2] }
      else { t with items := items, own := x :: t.own }
  | .removeAll freeNodeMemory =>
    if freeNodeMemory then
      some { t with items := [], destroyed := t.destroyed ++ t.items.map Prod.snd }
    else some { t with items := [], own := t.items.reverse ++ t.own }
  | .find item =>
    let x := t.items.find? fun x ↦ DblList.matchesItem compareItems x.2 item
    some { t with found := t.found ++ [x.map Prod.fst] }

/-- The empty sequence. -/
def empty : DblSeq ι := ⟨[], [], [], []⟩

end DblSeq

/-- Sequences, next to lists with the sentinels given. -/
def dblSeq (compareItems : Option (ι → ι → Bool)) (head tail : Addr) :
    Machine (DblSeq ι) (DblOp ι) where
  init t := t = DblSeq.empty
  step := DblSeq.step compareItems head tail

end Upnp.Util
