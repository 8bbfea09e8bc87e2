import Upnp.Http.Client
import Upnp.Lib.Chain

/-!
# The buffers in memory

`getHeaders` and `read_http_response` on the `socket_buffer` nodes themselves.  The head is a variable
of `read_http_response` and stays; all other nodes are allocated.  A node that is not in use cannot be
read, written or freed: then there is no result.
-/

namespace Upnp.Http

open Upnp.Lib

/-- The `socket_buffer` nodes in use. -/
abbrev Nodes := Heap (Cell SocketBuffer)

/-- The address of the variable `head`. -/
def head : Addr := 0

namespace Nodes

/-- The nodes when `read_http_response` begins. -/
def init : Nodes := Heap.alloc ∅ head ⟨⟨[], 0⟩, none⟩

/-- What a node holds is replaced. -/
def store (h : Nodes) (p : Addr) (b : SocketBuffer) : Option Nodes := do
  let node ← h.get p
  Heap.set h p ⟨b, node.next⟩

/-- A node is allocated and linked behind the current one. -/
def append (h : Nodes) (current : Addr) : Option (Nodes × Addr) := do
  let next := h.fresh
  let h := h.alloc next ⟨⟨[], 0⟩, none⟩
  let node ← h.get current
  let h ← Heap.set h current ⟨node.val, some next⟩
  some (h, next)

/-- The CRLF of the previous line is removed if the line is a continuation of it. -/
def removeCRLF (h : Nodes) (prev : Option Addr) (line : List Char) : Option Nodes :=
  match prev with
  | some p =>
    if isContinuation line then do
      let node ← h.get p
      h.store p node.val.chopCRLF
    else some h
  | none => some h

/-- There is no previous line, or it is properly ended. -/
def newLine (h : Nodes) (prev : Option Addr) : Option Bool :=
  match prev with
  | some p => (h.get p).map (·.val.crlfEnded)
  | none => some true

/-- The loop of `free_socket_buffers`. -/
def freeLoop (h : Nodes) (finger : Option Addr) : Option Nodes :=
  match finger with
  | none => some h
  | some p =>
    if hmem : p ∈ h then do
      let node ← h.get p
      freeLoop (AList.erase p h) node.next
    else none
termination_by h.size
decreasing_by
  have hlen := AList.keys_erase p h
  rw [Heap.size, Heap.size, hlen]
  exact Nat.lt_of_le_of_ne (List.length_erase_le) (by
    rw [List.length_erase_of_mem (AList.mem_keys.mpr hmem)]
    have := List.length_pos_of_mem (AList.mem_keys.mpr hmem)
    omega)

/-- `free_socket_buffers`. -/
def freeSocketBuffers (h : Nodes) : Option Nodes := do
  let node ← h.get head
  h.freeLoop node.next

/-- `concat_socket_buffers`: the bytes of the nodes from `finger` on, of `n` at most. -/
def concatLoop (h : Nodes) : Nat → Option Addr → Option (List Char)
  | _, none => some []
  | 0, some _ => none
  | n + 1, some p => do
    let node ← h.get p
    let rest ← h.concatLoop n node.next
    some (node.val.bytes ++ rest)

end Nodes

/-- What `getHeaders` passes on when it succeeds. -/
structure Tail where
  total_size : Int
  contentLength : Int
  tail : Addr
  rest : Net

/-- The loop of `getHeaders` at the node `current`, when `n` nodes are allocated. -/
def headersOn (malloc : Nat → Bool) (h : Nodes) (current : Addr) (prev : Option Addr) (n : Nat)
    (total_size contentLength : Int) (net : Net) : Option (Nodes × Except Int Tail) :=
  match hread : readLine (SOCKET_BUFFER_SIZE - 1) net with
  | (none, _) => do
    -- the size of the current node, which is negative now, is not looked at again
    let h ← h.freeSocketBuffers
    some (h, .error UPNP_E_SOCKET_READ)
  | (some [], net') => do
    let h ← h.store current (.ofRead [])
    some (h, .ok ⟨total_size, lengthAtEnd contentLength, current, net'⟩)
  | (some (c :: cs), net') => do
    let line := c :: cs
    let h ← h.store current (.ofRead line)
    let total_size := wrap32 (total_size + line.length)
    let total_size :=
      if isContinuation line && prev.isSome then wrap32 (total_size - 2) else total_size
    let h ← h.removeCRLF prev line
    let newLine ← h.newLine prev
    let contentLength := if newLine then lengthAfter contentLength line else contentLength
    if isLastLine newLine line then some (h, .ok ⟨total_size, lengthAtEnd contentLength, current, net'⟩)
    else if !malloc n then do
      let h ← h.freeSocketBuffers
      some (h, .error UPNP_E_OUTOF_MEMORY)
    else do
      let (h, next) ← h.append current
      headersOn malloc h next (some current) (n + 1) total_size contentLength net'
termination_by net.size
decreasing_by
  have := size_of_readLine hread
  simp only [List.length_cons] at this
  omega

/-- The loop of `read_http_response` at the node `current`, when `n` nodes are allocated. -/
def bodyOn (malloc : Nat → Bool) (h : Nodes) (current : Addr) (n : Nat)
    (contentLength chunk_size total_size : Int) (net : Net) : Option (Nodes × Except Int Int) :=
  let chunk := currentChunk contentLength chunk_size net
  if contentLength = -1 ∧ chunk.1 = 0 then some (h, .ok total_size)
  else if !malloc n then do
    let h ← h.freeSocketBuffers
    some (h, .error UPNP_E_OUTOF_MEMORY)
  else do
    let (h, current) ← h.append current
    let next := nextToRead contentLength chunk.1
    if HTTP_READ_BYTES ≠ -1 ∧ wrap32 (total_size + next) > HTTP_READ_BYTES then
      some (h, .ok total_size)
    else
      match hrecv : chunk.2.recv (toSize next) with
      | (.bytes (b :: bs), net') =>
        let block := b :: bs
        -- the size and the link of a node are behind its bytes
        if block.length > SOCKET_BUFFER_SIZE then none
        else do
          let h ← h.store current (.ofRead block)
          let left := lengthLeft contentLength block.length
          let chunk_size := chunkLeft left chunk.1 block.length
          let total_size := wrap32 (total_size + block.length)
          if contentLength > 0 ∧ left = 0 then some (h, .ok total_size)
          else bodyOn malloc h current (n + 1) left chunk_size total_size net'
      | _ => do
        let h ← h.store current (.ofRead [])
        some (h, .ok total_size)
termination_by net.size
decreasing_by
  have h₁ := Net.size_of_recv_bytes hrecv
  have h₂ : chunk.2.size ≤ net.size := size_currentChunk_le ..
  simp only [List.length_cons] at h₁
  omega

/-- The end of `read_http_response`. -/
def concludeOn (h : Nodes) (total_size : Int) : Option (Nodes × Result) := do
  if total_size < 0 then
    let h ← h.freeSocketBuffers
    some (h, .error total_size)
  else
    let out ← h.concatLoop h.size (some head)
    let h ← h.freeSocketBuffers
    some (h, .output (wrap32 (total_size + 1)) out)

/-- `read_http_response`, with `getHeaders`. -/
def readHttpResponseOn (malloc : Nat → Bool) (net : Net) : Option (Nodes × Result) := do
  match ← headersOn malloc Nodes.init head none 0 0 (-3) net with
  | (h, .error code) => concludeOn h code
  | (h, .ok t) =>
    if t.total_size > 0 ∧ t.contentLength ≠ 0 then
      match ← bodyOn malloc h t.tail (h.size - 1) t.contentLength (-1) t.total_size t.rest with
      | (h, .error code) => some (h, .error code)
      | (h, .ok total_size) => concludeOn h total_size
    else concludeOn h t.total_size

/-! ## What the operations do -/

/-- The nodes in use are those of the list that begins with the head. -/
structure Lists (h : Nodes) (l : List (Addr × SocketBuffer)) : Prop where
  chain : Chain h (some head) l
  nodup : (addrs l).Nodup
  mem : ∀ a ∈ h, a ∈ addrs l

namespace Lists

variable {h : Nodes} {l l₁ l₂ : List (Addr × SocketBuffer)} {a : Addr} {v : SocketBuffer}

theorem init : Lists Nodes.init [(head, ⟨[], 0⟩)] where
  chain := ⟨rfl, none, rfl, rfl⟩
  nodup := List.nodup_singleton head
  mem := by
    intro a ha
    rw [Nodes.init, Heap.alloc, AList.mem_insert] at ha
    rcases ha with rfl | ha
    · exact List.mem_singleton_self _
    · cases ha

theorem length_eq (hl : Lists h l) : h.size = l.length := by
  apply Nat.le_antisymm
  · have hlen := (List.Nodup.subperm h.nodupKeys fun a ha ↦ hl.mem a ha).length_le
    rwa [addrs, List.length_map] at hlen
  · exact hl.chain.length_le hl.nodup

/-- Whatever is stored in a node, the list stays. -/
theorem store (hl : Lists h (l₁ ++ (a, v) :: l₂)) (w : SocketBuffer) :
    ∃ h', h.store a w = some h' ∧ Lists h' (l₁ ++ (a, w) :: l₂) := by
  obtain ⟨next, hget, hseg⟩ := Seg.write hl.chain hl.nodup w
  have haddrs : addrs (l₁ ++ (a, w) :: l₂) = addrs (l₁ ++ (a, v) :: l₂) := by
    rw [addrs_append, addrs_append]
    rfl
  refine ⟨_, ?_, hseg, haddrs ▸ hl.nodup, ?_⟩
  · rw [Nodes.store, hget]
    exact Heap.set_of_get hget _
  · intro b hb
    rw [haddrs]
    rcases (AList.mem_insert _).mp hb with rfl | hb
    · exact hl.mem _ (Heap.mem_of_get hget)
    · exact hl.mem b hb

/-- A node is linked behind the last one. -/
theorem append (hl : Lists h (l ++ [(a, v)])) :
    ∃ h' b, h.append a = some (h', b) ∧ Lists h' (l ++ [(a, v)] ++ [(b, ⟨[], 0⟩)]) := by
  have hfresh := h.fresh_notMem
  have hget := hl.chain.last
  have hmem := Heap.mem_of_get hget
  have hne : a ≠ h.fresh := by
    rintro rfl
    exact hfresh hmem
  have hnotMem : h.fresh ∉ addrs (l ++ [(a, v)]) := by
    intro hin
    obtain ⟨x, hx, hxa⟩ := List.mem_map.mp hin
    obtain ⟨next, hget'⟩ := hl.chain.mem x hx
    rw [hxa] at hget'
    exact hfresh (Heap.mem_of_get hget')
  have hget₁ : (h.alloc h.fresh ⟨⟨[], 0⟩, none⟩).get a = some ⟨v, none⟩ := by
    rw [Heap.get_alloc, if_neg hne, hget]
  have hchain₁ : Chain (h.alloc h.fresh ⟨⟨[], 0⟩, none⟩) (some head) (l ++ [(a, v)]) := by
    refine hl.chain.congr fun b hb ↦ ?_
    rw [Heap.get_alloc, if_neg]
    rintro rfl
    exact hnotMem hb
  have hnodup := hl.nodup
  rw [addrs_append, List.nodup_append] at hnodup
  have hlast : a ∉ addrs l := fun hin ↦ hnodup.2.2 a hin a List.mem_cons_self rfl
  have hchain := hchain₁.relink hlast (some h.fresh)
  refine ⟨_, h.fresh, ?_, seg_append.mpr ⟨_, hchain, rfl, none, ?_, rfl⟩, ?_, ?_⟩
  · rw [Nodes.append, hget₁, Option.bind_eq_bind, Option.bind_some, Heap.set_of_get hget₁]
    rfl
  · rw [Heap.get_insert, if_neg hne.symm, Heap.get_alloc, if_pos rfl]
  · rw [addrs_append, List.nodup_append]
    refine ⟨hl.nodup, List.nodup_singleton _, ?_⟩
    rintro b hb c hc rfl
    rw [addrs_cons, addrs_nil, List.mem_singleton] at hc
    exact hnotMem (hc ▸ hb)
  · intro b hb
    rw [addrs_append, List.mem_append]
    rcases (AList.mem_insert _).mp hb with rfl | hb
    · exact .inl (hl.mem _ hmem)
    · rcases (AList.mem_insert _).mp hb with rfl | hb
      · exact .inr List.mem_cons_self
      · exact .inl (hl.mem b hb)

end Lists

/-- `free_socket_buffers` frees the nodes it is led along. -/
theorem freeLoop_chain {h : Nodes} {p : Option Addr} {l : List (Addr × SocketBuffer)}
    (hchain : Chain h p l) (hnodup : (addrs l).Nodup) :
    ∃ h', h.freeLoop p = some h' ∧
      ∀ b, Heap.get h' b = if b ∈ addrs l then none else h.get b := by
  induction l generalizing h p with
  | nil =>
    obtain rfl : p = none := hchain
    refine ⟨h, ?_, fun b ↦ (if_neg List.not_mem_nil).symm⟩
    rw [Nodes.freeLoop]
  | cons x l ih =>
    obtain ⟨a, v⟩ := x
    obtain ⟨rfl, next, hget, hrest⟩ := hchain
    obtain ⟨hnot, hnodup⟩ := List.nodup_cons.mp hnodup
    have hrest' : Chain (AList.erase a h) next l := by
      refine Seg.congr hrest fun b hb ↦ ?_
      rw [Heap.get_erase, if_neg]
      rintro rfl
      exact hnot hb
    obtain ⟨h', hfree, hget'⟩ := ih hrest' hnodup
    refine ⟨h', ?_, fun b ↦ ?_⟩
    · rw [Nodes.freeLoop, dif_pos (Heap.mem_of_get hget), hget]
      exact hfree
    · rw [hget' b, Heap.get_erase, addrs_cons]
      by_cases hb : b ∈ addrs l
      · rw [if_pos hb, if_pos (List.mem_cons_of_mem a hb)]
      · by_cases hba : b = a
        · rw [if_neg hb, if_pos hba, if_pos (List.mem_cons.mpr (.inl hba))]
        · rw [if_neg hb, if_neg hba, if_neg (List.not_mem_cons_of_ne_of_not_mem hba hb)]

namespace Lists

variable {h : Nodes} {l : List (Addr × SocketBuffer)} {v : SocketBuffer}

/-- All nodes but the head are freed, and the head keeps its link. -/
theorem free (hl : Lists h ((head, v) :: l)) :
    ∃ h', h.freeSocketBuffers = some h' ∧ (∀ a ∈ h', a = head) ∧
      h'.get head = some ⟨v, l.head?.map Prod.fst⟩ := by
  obtain ⟨-, next, hget, hrest⟩ := hl.chain
  obtain ⟨hnot, hnodup⟩ : head ∉ addrs l ∧ (addrs l).Nodup := List.nodup_cons.mp hl.nodup
  obtain ⟨h', hfree, hget'⟩ := freeLoop_chain hrest hnodup
  have hnext : next = l.head?.map Prod.fst := by
    cases l with
    | nil => exact hrest
    | cons x l => exact hrest.1
  refine ⟨h', ?_, ?_, ?_⟩
  · rw [Nodes.freeSocketBuffers, hget]
    exact hfree
  · intro a ha
    by_contra hne
    rw [Heap.mem_iff_get, hget' a] at ha
    split at ha
    · exact ha rfl
    · rename_i hmem
      have hin := hl.mem a (Heap.mem_iff_get.mpr ha)
      rcases List.mem_cons.mp hin with rfl | hin
      · exact hne rfl
      · exact hmem hin
  · rw [hget' head, if_neg hnot, hget, hnext]

end Lists

/-- Freed a second time, the nodes are not there; only a list without nodes can be freed again. -/
theorem freeSocketBuffers_again {h : Nodes} {v : SocketBuffer} {next : Option Addr}
    (hmem : ∀ a ∈ h, a = head) (hget : h.get head = some ⟨v, next⟩) (hnext : next ≠ some head) :
    h.freeSocketBuffers = if next = none then some h else none := by
  rw [Nodes.freeSocketBuffers, hget]
  change h.freeLoop next = _
  cases next with
  | none =>
    rw [Nodes.freeLoop]
    rfl
  | some p =>
    have hp : p ∉ h := fun hin ↦ hnext (congrArg some (hmem p hin))
    rw [Nodes.freeLoop, dif_neg hp, if_neg (Option.some_ne_none p)]

/-- The bytes of a list are put together. -/
theorem concatLoop_chain {h : Nodes} {p : Option Addr} {l : List (Addr × SocketBuffer)}
    (hchain : Chain h p l) {n : Nat} (hn : l.length ≤ n) :
    h.concatLoop n p = some (concatSocketBuffers (l.map Prod.snd)) := by
  induction l generalizing p n with
  | nil =>
    obtain rfl : p = none := hchain
    cases n <;> rfl
  | cons x l ih =>
    obtain ⟨a, v⟩ := x
    obtain ⟨rfl, next, hget, hrest⟩ := hchain
    cases n with
    | zero => cases hn
    | succ n =>
      rw [Nodes.concatLoop, hget]
      simp only [Option.bind_eq_bind, Option.bind_some]
      rw [ih hrest (Nat.le_of_succ_le_succ hn)]
      rfl

end Upnp.Http
