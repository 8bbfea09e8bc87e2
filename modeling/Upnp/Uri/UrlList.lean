import Upnp.Lib.Buffer
import Upnp.Lib.CInt
import Upnp.Lib.Memory
import Upnp.Uri.Parse
import Upnp.Util.Membuffer

/-!
# Copies of a list of URLs

`copy_URL_list` of `http_client.c`, with the pointers of the tokens as they are in memory:
`copy_token` moves each of them from the old buffer to the new one by the distance of the two.
-/

namespace Upnp.Uri.Copy

open Upnp.Lib
open Upnp.Lib.Pointer
open Upnp.Util (size_t)

/-! ## The data -/

def HTTP_SUCCESS : Int := 1

/-- `token`. -/
structure Token where
  buff : Pointer
  size : Nat
deriving DecidableEq

/-- `struct sockaddr_in`. -/
structure sockaddr_in where
  sin_family : BitVec 16
  sin_port : BitVec 16
  s_addr : BitVec 32
  sin_zero : BitVec 64
deriving DecidableEq

/-- `hostport_type`. -/
structure HostPort where
  text : Token
  IPv4address : sockaddr_in
deriving DecidableEq

/-- `uri_type`. -/
structure URI where
  type : UriType
  scheme : Token
  path_type : PathType
  pathquery : Token
  fragment : Token
  hostport : HostPort
deriving DecidableEq

/-- `URL_list`. -/
structure URL_list where
  size : Int
  URLs : Pointer
  parsedURLs : Pointer
deriving DecidableEq

/-- `sizeof(uri_type)`, with pointers of 64 bits. -/
def sizeof_uri_type : Nat := 96

/-- A block from `malloc`: characters, or an array of URIs, `none` for one that is not written. -/
inductive Block where
  | chars (cells : Buffer)
  | uris (cells : List (Option URI))

instance : Sized Block where
  bytes
    | .chars cells => cells.length
    | .uris cells => sizeof_uri_type * cells.length

/-- The characters of a block. -/
def chars (m : Heap Block) (p : Pointer) : Option Buffer :=
  (m.get p.toNat).bind fun
    | .chars cells => some cells
    | .uris _ => none

/-- The elements of an array. -/
def uris (m : Heap Block) (p : Pointer) : Option (List (Option URI)) :=
  (m.get p.toNat).bind fun
    | .chars _ => none
    | .uris cells => some cells

/-! ## The library of C -/

/-- `strlen`; `none` when it leaves the block, or reads what is not written. -/
def strlen : Buffer → Option Nat
  | some c :: rest => if c = '\x00' then some 0 else (strlen rest).map (· + 1)
  | _ => none

/-- `memcpy` from the start of a block to the start of another one. -/
def memcpy (dest src : Pointer) (n : Nat) (m : Heap Block) : Option (Heap Block) := do
  let from_cells ← chars m src
  let to_cells ← chars m dest
  if n ≤ from_cells.length ∧ n ≤ to_cells.length then
    m.set dest.toNat (.chars (from_cells.take n ++ to_cells.drop n))
  else none

/-! ## The copy -/

/-- `copy_sockaddr_in`. -/
def copy_sockaddr_in (address : sockaddr_in) : sockaddr_in := { address with sin_zero := 0 }

/-- `copy_token`. -/
def copy_token (token : Token) (in_base out_base : Pointer) : Token where
  buff := rebase in_base out_base token.buff
  size := token.size

/-- The parsed URI, as the body of the loop copies it. -/
def copyURI (in_base out_base : Pointer) (u : URI) : URI where
  type := u.type
  scheme := copy_token u.scheme in_base out_base
  path_type := u.path_type
  pathquery := copy_token u.pathquery in_base out_base
  fragment := copy_token u.fragment in_base out_base
  hostport :=
    { text := copy_token u.hostport.text in_base out_base
      IPv4address := copy_sockaddr_in u.hostport.IPv4address }

/-- Reads the element `i` of an array. -/
def uriAt (m : Heap Block) (p : Pointer) (i : Nat) : Option URI :=
  (uris m p).bind fun cells ↦ (cells[i]?).join

/-- Writes the element `i` of an array. -/
def setUri (m : Heap Block) (p : Pointer) (i : Nat) (u : URI) : Option (Heap Block) :=
  (uris m p).bind fun cells ↦
    if i < cells.length then m.set p.toNat (.uris (cells.set i (some u))) else none

/-- The loop, from `i` on, with the number of URIs that are left. -/
def copyLoop (list out : URL_list) : Nat → Nat → Heap Block → Option (Heap Block)
  | 0, _, m => some m
  | left + 1, i, m => do
    let u ← uriAt m list.parsedURLs i
    let m ← setUri m out.parsedURLs i (copyURI list.URLs out.URLs u)
    copyLoop list out left (i + 1) m

/-- `copy_URL_list`, with the list that it fills and its return code. -/
def copy_URL_list (A : Allocator Block) (m : Heap Block) (list : URL_list) :
    Option (Heap Block × URL_list × Int) := do
  let len := wrap32 ((← strlen (← chars m list.URLs)) + 1)
  let (m, URLs) := A.malloc 0 (size_t len) (.chars (.alloc (size_t len))) m
  let bytes := size_t (sizeof_uri_type * list.size)
  let (m, parsedURLs) :=
    A.malloc 1 bytes (.uris (List.replicate (bytes / sizeof_uri_type) none)) m
  if URLs = NULL ∨ parsedURLs = NULL then some (m, ⟨0, URLs, parsedURLs⟩, UPNP_E_OUTOF_MEMORY)
  else
    let m ← memcpy URLs list.URLs (size_t len) m
    let m ← copyLoop list ⟨0, URLs, parsedURLs⟩ list.size.toNat 0 m
    some (m, ⟨list.size, URLs, parsedURLs⟩, HTTP_SUCCESS)

/-- `free`. -/
def free (p : Pointer) (m : Heap Block) : Option (Heap Block) :=
  if p = NULL then some m else m.free p.toNat

/-- `free` behind a test for a null pointer. -/
def freeIfSet (p : Pointer) (m : Heap Block) : Option (Heap Block) :=
  if p ≠ NULL then free p m else some m

/-- `free_URL_list`. -/
def free_URL_list (list : URL_list) (m : Heap Block) : Option (Heap Block × URL_list) := do
  let m ← freeIfSet list.URLs m
  let m ← freeIfSet list.parsedURLs m
  some (m, { list with size := 0 })

/-! ## What is allocated -/

/-- The blocks of a list, latest first. -/
def URL_list.blocks (list : URL_list) : List Pointer :=
  [list.parsedURLs, list.URLs].filter (· ≠ NULL)

variable {A : Allocator Block} {m m₀ m' : Heap Block} {list out : URL_list} {p q : Pointer}
  {ps : List Pointer}

theorem memcpy_grown {n : Nat} (h : Grown m₀ m ps) (hq : q ∈ ps)
    (hrun : memcpy q p n m = some m') : Grown m₀ m' ps := by
  obtain ⟨from_cells, -, hrun⟩ := Option.bind_eq_some_iff.mp hrun
  obtain ⟨to_cells, -, hrun⟩ := Option.bind_eq_some_iff.mp hrun
  split at hrun
  · exact h.set hq hrun
  · cases hrun

theorem setUri_grown {i : Nat} {u : URI} (h : Grown m₀ m ps) (hp : p ∈ ps)
    (hrun : setUri m p i u = some m') : Grown m₀ m' ps := by
  obtain ⟨arr, -, hrun⟩ := Option.bind_eq_some_iff.mp hrun
  split at hrun
  · exact h.set hp hrun
  · cases hrun

theorem copyLoop_grown {left i : Nat} (h : Grown m₀ m ps) (hout : out.parsedURLs ∈ ps)
    (hrun : copyLoop list out left i m = some m') : Grown m₀ m' ps := by
  induction left generalizing i m with
  | zero =>
    cases hrun
    exact h
  | succ left ih =>
    obtain ⟨u, -, hrun⟩ := Option.bind_eq_some_iff.mp hrun
    obtain ⟨m₁, hset, hrun⟩ := Option.bind_eq_some_iff.mp hrun
    exact ih (setUri_grown h hout hset) hrun

theorem URL_list.mem_blocks :
    p ∈ list.blocks ↔ (p = list.parsedURLs ∨ p = list.URLs) ∧ p ≠ NULL := by
  rw [URL_list.blocks, List.mem_filter, List.mem_pair, decide_eq_true_iff]

/-- However `copy_URL_list` ends, what it has allocated is what the list that it fills points to,
and no block that was there changes. -/
theorem copy_URL_list_grown {code : Int}
    (hrun : copy_URL_list A m list = some (m', out, code)) : Grown m m' out.blocks := by
  obtain ⟨cells, -, hrun⟩ := Option.bind_eq_some_iff.mp hrun
  obtain ⟨n, -, hrun⟩ := Option.bind_eq_some_iff.mp hrun
  dsimp only at hrun
  set len := size_t (wrap32 (n + 1))
  set URLs := A.malloc 0 len (.chars (.alloc len)) m with hURLs
  set bytes := size_t (sizeof_uri_type * list.size)
  set parsedURLs := A.malloc 1 bytes (.uris (List.replicate (bytes / sizeof_uri_type) none)) URLs.1
    with hparsed
  have hgrown : Grown m parsedURLs.1 (URL_list.blocks ⟨0, URLs.2, parsedURLs.2⟩) := by
    have hfirst : Grown m URLs.1 ([URLs.2].filter (· ≠ NULL) ++ []) := (Grown.refl m).malloc
    have hsecond := @Grown.malloc _ _ A _ _ _ 1 bytes
      (.uris (List.replicate (bytes / sizeof_uri_type) none)) hfirst
    rwa [List.append_nil, ← List.filter_append] at hsecond
  split at hrun
  · cases hrun
    exact hgrown
  · rename_i hnull
    rw [not_or] at hnull
    obtain ⟨m₁, hcopy, hrun⟩ := Option.bind_eq_some_iff.mp hrun
    obtain ⟨m₂, hloop, hrun⟩ := Option.bind_eq_some_iff.mp hrun
    cases hrun
    have hcopied := memcpy_grown hgrown (URL_list.mem_blocks.mpr ⟨.inr rfl, hnull.1⟩) hcopy
    have hout : parsedURLs.2 ∈ URL_list.blocks ⟨0, URLs.2, parsedURLs.2⟩ :=
      URL_list.mem_blocks.mpr ⟨.inl rfl, hnull.2⟩
    exact copyLoop_grown hcopied hout hloop

theorem freeIfSet_grown (h : Grown m₀ m ([p].filter (· ≠ NULL) ++ ps)) :
    ∃ m', freeIfSet p m = some m' ∧ Grown m₀ m' ps := by
  unfold freeIfSet
  by_cases hnull : p = NULL
  · rw [if_neg (not_not.mpr hnull)]
    rw [List.filter_singleton, decide_eq_false (not_not.mpr hnull)] at h
    exact ⟨m, rfl, h⟩
  · rw [if_pos hnull, free, if_neg hnull]
    rw [List.filter_singleton, decide_eq_true hnull] at h
    exact Grown.free h

/-- `free_URL_list` of the list that `copy_URL_list` fills, whether it succeeds or not, leaves the
memory as it was in front of the copy. -/
theorem free_URL_list_copy {code : Int}
    (hrun : copy_URL_list A m list = some (m', out, code)) :
    ∃ m'', free_URL_list out m' = some (m'', { out with size := 0 }) ∧
      ∀ a, m''.get a = m.get a := by
  have hgrown := copy_URL_list_grown hrun
  have hswap : out.blocks.Perm
      ([out.URLs].filter (· ≠ NULL) ++ ([out.parsedURLs].filter (· ≠ NULL) ++ [])) := by
    rw [List.append_nil, ← List.filter_append]
    exact (List.Perm.swap _ _ _).filter _
  obtain ⟨m₁, hfirst, hgrown₁⟩ := freeIfSet_grown (hgrown.perm hswap)
  obtain ⟨m₂, hsecond, hgrown₂⟩ := freeIfSet_grown hgrown₁
  refine ⟨m₂, ?_, hgrown₂.unchanged_iff.mpr rfl⟩
  rw [free_URL_list, hfirst, Option.bind_eq_bind, Option.bind_some, hsecond]
  rfl

end Upnp.Uri.Copy
