import Mathlib.Data.Multiset.AddSub
import Mathlib.Data.Multiset.Count
import Upnp.Lib.CString
import Upnp.Lib.Machine

/-!
# The alias list of the web server

`AliasedEntityList` of `server.cpp`, with `http_AddAlias`, `http_RemoveAlias` and
the two ends of a request, as they interleave under the list's mutex.  Allocations
succeed; assertions are compiled out, as the makefiles have it.

What an entity's content is plays no part; its type, subtype and time of
modification are one field that is only copied.  `serial` numbers the calls of
`addEntity`.  It is not in the source; it tells apart entities that get the same
name or the same address.
-/

namespace Upnp.Web

open Upnp.Lib

variable {ι : Type}

/-- `AliasedEntity`. -/
structure AliasedEntity (ι : Type) where
  aliasName : CString
  /-- `contentType`, `contentSubtype` and `modifiedTime`. -/
  info : ι
  count : Int
  stopServing : Bool
  /-- How many calls of `addEntity` came before. -/
  serial : Nat

/-- `GetExtensionIndex`: the name with its leading slash, and the index of the last dot behind the
last slash. -/
def GetExtensionIndex (entityName : CString) : CString × Option Nat :=
  let name := if '/' ∈ entityName then entityName else '/' :: entityName
  let doc := name.reverse.takeWhile (· ≠ '/')
  (name, if '.' ∈ doc then some (name.length - (doc.takeWhile (· ≠ '.')).length - 1) else none)

/-- `sprintf( buf, "-%u", (unsigned long)ae )`. -/
def addressSuffix (ae : Nat) : CString := '-' :: (Nat.toDigits 10 (ae % 4294967296))

/-- The node `find` returns: the entities before it, its own, and those behind. -/
def find (aliasName : CString) : List (AliasedEntity ι) →
    Option (List (AliasedEntity ι) × AliasedEntity ι × List (AliasedEntity ι))
  | [] => none
  | ae :: rest =>
    if ae.aliasName = aliasName then some ([], ae, rest)
    else (find aliasName rest).map fun (before, x, behind) ↦ (ae :: before, x, behind)

/-- The name `addEntity` gives to an entity whose record is at the address given. -/
def actualAlias (l : List (AliasedEntity ι)) (aliasName : CString) (ae : Nat) : CString :=
  let (name, dot_index) := GetExtensionIndex aliasName
  match find name l with
  | none => name
  | some _ =>
    match dot_index with
    | none => name ++ addressSuffix ae
    | some i => name.take i ++ addressSuffix ae ++ name.drop i

/-- `AliasedEntityList::addEntity`. -/
def addEntity (aliasName : CString) (info : ι) (ae serial : Nat) (l : List (AliasedEntity ι)) :
    List (AliasedEntity ι) :=
  l ++ [⟨actualAlias l aliasName ae, info, 1, false, serial⟩]

/-- `AliasedEntityList::grabEntity`: the entity, or `none` for `E_NOT_FOUND`, and the list. -/
def grabEntity (aliasName : CString) (l : List (AliasedEntity ι)) :
    Option (AliasedEntity ι × List (AliasedEntity ι)) :=
  match find aliasName l with
  | none => none
  | some (before, ae, behind) =>
    if ae.stopServing then none
    else some (ae, before ++ { ae with count := ae.count + 1 } :: behind)

/-- `AliasedEntityList::releaseEntity`: the entity, or `none` for `E_NOT_FOUND`, whether it was
freed, and the list. -/
def releaseEntity (aliasName : CString) (stopServing : Bool) (l : List (AliasedEntity ι)) :
    Option (AliasedEntity ι × Bool × List (AliasedEntity ι)) :=
  match find aliasName l with
  | none => none
  | some (before, ae, behind) =>
    if ae.count - 1 ≤ 0 then some (ae, true, before ++ behind)
    else
      some (ae, false,
        before ++ { ae with count := ae.count - 1, stopServing := stopServing } :: behind)

/-! ## The system -/

/-- A request that was served an alias and has not ended: the name it keeps, and the entity it
got. -/
structure Grab where
  aliasName : CString
  serial : Nat
  deriving DecidableEq

/-- The list, the requests being served from it, and what happened so far. -/
structure State (ι : Type) where
  aliasList : List (AliasedEntity ι)
  grabs : Multiset Grab
  /-- How many entities were added. -/
  added : Nat
  /-- The entities `http_RemoveAlias` succeeded for. -/
  removed : List Nat
  freed : List Nat

/-- The actions of the system. -/
inductive Action (ι : Type) where
  /-- `http_AddAlias`; `new` answers the address given. -/
  | add (aliasName : CString) (info : ι) (ae : Nat)
  /-- `http_RemoveAlias`. -/
  | remove (aliasName : CString)
  /-- `TryToGetAlias` of a request for the name. -/
  | grab (aliasName : CString)
  /-- `free_alias` at the end of a request. -/
  | freeAlias (g : Grab)

/-- The state after `http_RemoveAlias`. -/
def State.remove (s : State ι) (aliasName : CString) : State ι :=
  match releaseEntity aliasName true s.aliasList with
  | none => s
  | some (ae, freed, l) =>
    { s with
      aliasList := l
      removed := ae.serial :: s.removed
      freed := if freed then ae.serial :: s.freed else s.freed }

/-- The state after `TryToGetAlias`. -/
def State.grab (s : State ι) (aliasName : CString) : State ι :=
  match grabEntity aliasName s.aliasList with
  | none => s
  | some (ae, l) => { s with aliasList := l, grabs := ⟨aliasName, ae.serial⟩ ::ₘ s.grabs }

/-- The state after `free_alias`. -/
def State.freeAlias (s : State ι) (g : Grab) : State ι :=
  match releaseEntity g.aliasName false s.aliasList with
  | none => { s with grabs := s.grabs.erase g }
  | some (ae, freed, l) =>
    { s with
      aliasList := l
      grabs := s.grabs.erase g
      freed := if freed then ae.serial :: s.freed else s.freed }

/-- One action; `none` when it is not enabled. -/
def step (s : State ι) : Action ι → Option (State ι)
  | .add aliasName info ae =>
    some { s with aliasList := addEntity aliasName info ae s.added s.aliasList, added := s.added + 1 }
  | .remove aliasName => some (s.remove aliasName)
  | .grab aliasName => some (s.grab aliasName)
  | .freeAlias g => if g ∈ s.grabs then some (s.freeAlias g) else none

/-- The state before any call. -/
def State.empty : State ι := ⟨[], 0, 0, [], []⟩

/-- The alias list and its users. -/
def machine : Machine (State ι) (Action ι) where
  init s := s = State.empty
  step := step

end Upnp.Web
