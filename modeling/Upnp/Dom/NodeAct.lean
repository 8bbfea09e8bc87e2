import Upnp.Lib.CString
import Upnp.Lib.Heap

/-!
# The nodes of a document

`NodeAct.cpp`: the nodes of all documents lie in one heap and are joined by the
links that the functions below patch by hand.  Each function returns `none` when
it follows a null link or does not end.  Nodes are not freed here, so the
reference counts are left out.
-/

namespace Upnp.Dom

open Upnp.Lib

/-- `NODE_TYPE`, as far as nodes of the type are created. -/
inductive NodeType where
  | ELEMENT_NODE
  | ATTRIBUTE_NODE
  | TEXT_NODE
  | DOCUMENT_NODE
deriving DecidableEq, Repr

/-- `NodeAct`. -/
structure NodeAct where
  nodeType : NodeType
  nodeName : CString
  nodeValue : Option CString
  parentNode : Option Addr
  firstChild : Option Addr
  lastChild : Option Addr
  ownerNode : Addr
  nextSibling : Option Addr
  prevSibling : Option Addr
  firstAttr : Option Addr
  lastAttr : Option Addr
deriving DecidableEq, Repr

/-- The nodes, and the static `Found` of `findNodeFromRef`. -/
structure Store where
  nodes : Heap NodeAct
  found : Bool

/-- How a call ends, other than by a fault. -/
inductive Outcome where
  | done
  /-- The exception `NOT_FOUND_ERR`. -/
  | NOT_FOUND_ERR
deriving DecidableEq, Repr

namespace Store

/-- The node at an address. -/
def get (d : Store) (a : Addr) : Option NodeAct := d.nodes.get a

/-- The constructor of `NodeAct`. -/
def create (d : Store) (a : Addr) (nt : NodeType) (name : CString) (value : Option CString) : Store :=
  { d with
    nodes := d.nodes.alloc a
      { nodeType := nt, nodeName := name, nodeValue := value, parentNode := none,
        firstChild := none, lastChild := none, ownerNode := a, nextSibling := none,
        prevSibling := none, firstAttr := none, lastAttr := none } }

/-- Writes to the fields of a node. -/
def modify (d : Store) (a : Addr) (f : NodeAct → NodeAct) : Option Store := do
  let x ← d.get a
  let nodes ← d.nodes.set a (f x)
  some { d with nodes := nodes }

/-- Writes through a link, if it is not null. -/
def modifyAt (d : Store) (p : Option Addr) (f : NodeAct → NodeAct) : Option Store :=
  match p with
  | none => some d
  | some a => d.modify a f

/-! ## Searches -/

/-- The loops of `findNode`, along the siblings from `na`. -/
def siblingLoop (d : Store) (find : Addr) : Nat → Option Addr → Option Bool
  | _, none => some false
  | 0, some _ => none
  | n + 1, some na => if na = find then some true else do
    let x ← d.get na
    siblingLoop d find n x.nextSibling

/-- `findNode`: the children, and the attributes of an element. -/
def findNode (d : Store) (this find : Addr) : Option Bool := do
  let x ← d.get this
  let child ← siblingLoop d find d.nodes.size x.firstChild
  if x.nodeType = .ELEMENT_NODE then
    let attr ← siblingLoop d find d.nodes.size x.firstAttr
    some (child || attr)
  else some child

/-- The loop of `findNodeFromRef`, over its recursive calls. -/
def kidLoop (d : Store) (start find : Addr) (search : Addr → Bool → Option Bool) :
    Nat → Option Addr → Bool → Option Bool
  | _, none, found => some found
  | 0, some _, _ => none
  | n + 1, some mykid, found => do
    let found ← search mykid found
    if ← d.findNode start find then some true
    else
      let x ← d.get mykid
      kidLoop d start find search n x.nextSibling found

/-- `findNodeFromRef`, on a tree of some depth; `found` is the static `Found`, before and after. -/
def findNodeFromRef (d : Store) (find : Addr) : Nat → Addr → Bool → Option Bool
  | 0, _, _ => none
  | n + 1, start, found => do
    let x ← d.get start
    d.kidLoop start find (d.findNodeFromRef find n) d.nodes.size x.firstChild found

/-- The loop of `changeOwnerNode`, over its recursive calls. -/
def ownerLoop (newOwner : Addr) (change : Addr → Store → Option Store) :
    Nat → Option Addr → Store → Option Store
  | _, none, d => some d
  | 0, some _, _ => none
  | n + 1, some mykid, d => do
    let d ← change mykid d
    let d ← d.modify mykid fun x ↦ { x with ownerNode := newOwner }
    let x ← d.get mykid
    ownerLoop newOwner change n x.nextSibling d

/-- `changeOwnerNode`, on a tree of some depth. -/
def changeOwnerNode (newOwner : Addr) : Nat → Addr → Store → Option Store
  | 0, _, _ => none
  | n + 1, a, d => do
    let x ← d.get a
    ownerLoop newOwner (changeOwnerNode newOwner n) d.nodes.size x.firstChild d

/-! ## The mutators -/

/-- `removeChild`. -/
def removeChild (d : Store) (this oldChild : Addr) : Option (Store × Outcome) := do
  if ← d.findNode this oldChild then
    let old ← d.get oldChild
    let d ← d.modifyAt old.prevSibling fun x ↦ { x with nextSibling := old.nextSibling }
    let old ← d.get oldChild
    let d ← d.modifyAt old.nextSibling fun x ↦ { x with prevSibling := old.prevSibling }
    let old ← d.get oldChild
    let d ← d.modify this fun x ↦
      { x with
        firstChild := if x.firstChild = some oldChild then old.nextSibling else x.firstChild
        lastChild := if x.lastChild = some oldChild then old.prevSibling else x.lastChild }
    let d ← d.modify oldChild fun x ↦ { x with ownerNode := oldChild, parentNode := none }
    some (d, .done)
  else some (d, .NOT_FOUND_ERR)

/-- The part of `appendChild` behind the removal of the node from its old place. -/
def relink (d : Store) (this newChild : Addr) : Option Store := do
  let self ← d.get this
  let d ← d.modify newChild fun x ↦
    { x with parentNode := some this, ownerNode := self.ownerNode }
  let self ← d.get this
  let d ← changeOwnerNode self.ownerNode d.nodes.size newChild d
  let d ← d.modify newChild fun x ↦ { x with nextSibling := none, prevSibling := none }
  let new ← d.get newChild
  let self ← d.get this
  if new.nodeType ≠ .ATTRIBUTE_NODE then
    match self.firstChild with
    | none => d.modify this fun x ↦ { x with firstChild := some newChild, lastChild := some newChild }
    | some _ =>
      let last ← self.lastChild
      let d ← d.modify last fun x ↦ { x with nextSibling := some newChild }
      let d ← d.modify newChild fun x ↦ { x with prevSibling := some last }
      d.modify this fun x ↦ { x with lastChild := some newChild }
  else
    match self.firstAttr with
    | none => d.modify this fun x ↦ { x with firstAttr := some newChild, lastAttr := some newChild }
    | some _ =>
      let last ← self.lastAttr
      let d ← d.modify last fun x ↦ { x with nextSibling := some newChild }
      let d ← d.modify newChild fun x ↦ { x with prevSibling := some last }
      d.modify this fun x ↦ { x with lastAttr := some newChild }

/-- `appendChild`. -/
def appendChild (d : Store) (this newChild : Addr) : Option (Store × Outcome) := do
  let self ← d.get this
  let found ← d.findNodeFromRef newChild d.nodes.size self.ownerNode d.found
  let d := { d with found := found }
  if found then
    let new ← d.get newChild
    -- a node without a parent is a null dereference here
    let parent ← new.parentNode
    match ← d.removeChild parent newChild with
    | (d, .NOT_FOUND_ERR) => some (d, .NOT_FOUND_ERR)
    | (d, .done) => (d.relink this newChild).map (·, .done)
  else (d.relink this newChild).map (·, .done)

/-- The part of `insertBefore` behind the removal of the node from its old place. -/
def linkBefore (d : Store) (this newChild refChild : Addr) : Option Store := do
  let d ← d.modify newChild fun x ↦ { x with nextSibling := some refChild }
  let ref ← d.get refChild
  let d ← d.modifyAt ref.prevSibling fun x ↦ { x with nextSibling := some newChild }
  let d ← d.modify newChild fun x ↦ { x with nextSibling := some refChild }
  let d ← d.modify refChild fun x ↦ { x with prevSibling := some newChild }
  let new ← d.get newChild
  let d ← if new.nodeType ≠ .ATTRIBUTE_NODE ∧ new.prevSibling = none then
      d.modify this fun x ↦ { x with firstChild := some newChild }
    else if new.nodeType = .ATTRIBUTE_NODE ∧ new.prevSibling = none then
      d.modify this fun x ↦ { x with firstAttr := some newChild }
    else some d
  let self ← d.get this
  d.modify newChild fun x ↦ { x with parentNode := some this, ownerNode := self.ownerNode }

/-- `insertBefore`; a `refChild` of `none` is a null pointer. -/
def insertBefore (d : Store) (this newChild : Addr) (refChild : Option Addr) :
    Option (Store × Outcome) :=
  match refChild with
  | none => d.appendChild this newChild
  | some refChild => do
    if ← d.findNode this refChild then
      if ← d.findNode this newChild then
        match ← d.removeChild this newChild with
        | (d, .NOT_FOUND_ERR) => some (d, .NOT_FOUND_ERR)
        | (d, .done) =>
          let d ← d.modify newChild fun x ↦ { x with nextSibling := none, prevSibling := none }
          (d.linkBefore this newChild refChild).map (·, .done)
      else (d.linkBefore this newChild refChild).map (·, .done)
    else some (d, .NOT_FOUND_ERR)

/-- `replaceChild`; an `oldChild` of `none` is a null pointer. -/
def replaceChild (d : Store) (this newChild : Addr) (oldChild : Option Addr) :
    Option (Store × Outcome) :=
  match oldChild with
  | none => some (d, .done)
  | some oldChild => do
    if ← d.findNode this oldChild then
      match ← d.insertBefore this newChild (some oldChild) with
      | (d, .NOT_FOUND_ERR) => some (d, .NOT_FOUND_ERR)
      | (d, .done) => d.removeChild this oldChild
    else some (d, .NOT_FOUND_ERR)

/-- `NamedNodeMap::getNamedItem`, along the attributes from `n`. -/
def namedLoop (d : Store) (name : CString) : Nat → Option Addr → Option (Option Addr)
  | _, none => some none
  | 0, some _ => none
  | k + 1, some n => do
    let x ← d.get n
    if name = x.nodeName then some (some n) else namedLoop d name k x.nextSibling

/-- `Element::setAttribute`, where `a` is what `new` returns for the attribute. -/
def setAttribute (d : Store) (this a : Addr) (name value : CString) : Option (Store × Outcome) := do
  let self ← d.get this
  match ← d.namedLoop name d.nodes.size self.firstAttr with
  | none => (d.create a .ATTRIBUTE_NODE name (some value)).appendChild this a
  | some n => (d.modify n fun x ↦ { x with nodeValue := some value }).map (·, .done)

end Store

/-! ## Runs -/

/-- The calls that build and change documents. -/
inductive Call where
  | createElement (a : Addr) (tagName : CString)
  | createTextNode (a : Addr) (data : CString)
  | createAttribute (a : Addr) (name value : CString)
  | setAttribute (this a : Addr) (name value : CString)
  | setAttributeNode (this newAttr : Addr)
  | appendChild (this newChild : Addr)
  | insertBefore (this newChild : Addr) (refChild : Option Addr)
  | replaceChild (this newChild : Addr) (oldChild : Option Addr)
  | removeChild (this oldChild : Addr)
deriving DecidableEq, Repr

/-- What a call does; `none` for a fault. -/
def Call.run (d : Store) : Call → Option (Store × Outcome)
  | .createElement a tagName => some (d.create a .ELEMENT_NODE tagName none, .done)
  | .createTextNode a data => some (d.create a .TEXT_NODE ['#', 't', 'e', 'x', 't'] (some data), .done)
  | .createAttribute a name value => some (d.create a .ATTRIBUTE_NODE name (some value), .done)
  | .setAttribute this a name value => d.setAttribute this a name value
  | .setAttributeNode this newAttr => d.appendChild this newAttr
  | .appendChild this newChild => d.appendChild this newChild
  | .insertBefore this newChild refChild => d.insertBefore this newChild refChild
  | .replaceChild this newChild oldChild => d.replaceChild this newChild oldChild
  | .removeChild this oldChild => d.removeChild this oldChild

/-- A call gets nodes that exist, and `new` returns memory that is not in use. -/
def Call.Enabled (d : Store) : Call → Prop
  | .createElement a _ | .createTextNode a _ | .createAttribute a _ _ => a ∉ d.nodes
  | .setAttribute this a _ _ => this ∈ d.nodes ∧ a ∉ d.nodes
  | .setAttributeNode this newChild | .appendChild this newChild =>
    this ∈ d.nodes ∧ newChild ∈ d.nodes
  | .insertBefore this newChild refChild | .replaceChild this newChild refChild =>
    this ∈ d.nodes ∧ newChild ∈ d.nodes ∧ refChild.all (· ∈ d.nodes)
  | .removeChild this oldChild => this ∈ d.nodes ∧ oldChild ∈ d.nodes

instance (d : Store) : (c : Call) → Decidable (c.Enabled d)
  | .createElement .. | .createTextNode .. | .createAttribute .. =>
    inferInstanceAs (Decidable (¬ _))
  | .setAttribute .. => inferInstanceAs (Decidable (_ ∧ ¬ _))
  | .setAttributeNode .. | .appendChild .. | .removeChild .. => inferInstanceAs (Decidable (_ ∧ _))
  | .insertBefore .. | .replaceChild .. => inferInstanceAs (Decidable (_ ∧ _ ∧ _))

end Upnp.Dom
