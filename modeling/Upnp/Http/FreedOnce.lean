import Upnp.Http.Accounting
import Upnp.Http.BodyReads
import Upnp.Http.BufferMemory

/-!
# The buffers are freed once

The run on the nodes refines `readHttpResponse`: the nodes are the list of buffers, and they are freed
at the end.  When `getHeaders` fails it frees them, and `read_http_response` frees them once more.
-/

namespace Upnp.Http

open Upnp.Lib

variable {malloc : Nat → Bool} {h : Nodes} {l lb : List (Addr × SocketBuffer)}
variable {prev : Option (Addr × SocketBuffer)} {current : Addr} {v : SocketBuffer} {n : Nat}
variable {total_size cl chunk_size : Int} {net net' : Net} {line : List Char}

/-! ## The ends of a list -/

/-- The nodes when all but the head are freed; the head still has the link `next`. -/
structure Freed (h : Nodes) (next : Option Addr) : Prop where
  mem : ∀ a ∈ h, a = head
  get : ∃ v, h.get head = some ⟨v, next⟩
  next_ne : next ≠ some head

theorem Freed.again {next : Option Addr} (hf : Freed h next) :
    h.freeSocketBuffers = if next = none then some h else none := by
  obtain ⟨v, hget⟩ := hf.get
  exact freeSocketBuffers_again hf.mem hget hf.next_ne

/-- All nodes of a list are freed, and a link is left if there were any. -/
theorem Lists.freed (hl : Lists h (l ++ [(current, v)])) :
    ∃ h' next, h.freeSocketBuffers = some h' ∧ Freed h' next ∧ (next = none ↔ l = []) := by
  cases hcons : l ++ [(current, v)] with
  | nil => exact absurd hcons (List.append_ne_nil_of_right_ne_nil _ (List.cons_ne_nil _ _))
  | cons x l' =>
    obtain ⟨a, w⟩ := x
    rw [hcons] at hl
    obtain ⟨heq, -⟩ := hl.chain
    cases heq
    obtain ⟨h', hfree, hmem, hget⟩ := hl.free
    have hnot : head ∉ addrs l' := (List.nodup_cons.mp hl.nodup).1
    refine ⟨h', _, hfree, ⟨hmem, ⟨w, hget⟩, ?_⟩, ?_⟩
    · intro hhead
      obtain ⟨y, hy, hyhead⟩ := Option.map_eq_some_iff.mp hhead
      exact hnot (hyhead ▸ List.mem_map_of_mem (List.mem_of_head? hy))
    · rw [Option.map_eq_none_iff, List.head?_eq_none_iff]
      cases l with
      | nil =>
        cases hcons
        exact iff_of_true rfl rfl
      | cons y l =>
        rw [List.cons_append, List.cons.injEq] at hcons
        apply iff_of_false
        · rw [← hcons.2]
          exact List.append_ne_nil_of_right_ne_nil _ (List.cons_ne_nil _ _)
        · exact List.cons_ne_nil _ _

/-! ## The loop of `getHeaders` -/

theorem headersOn_of_failed {p : Option Addr}
    (hread : readLine (SOCKET_BUFFER_SIZE - 1) net = (none, net')) :
    headersOn malloc h current p n total_size cl net =
      h.freeSocketBuffers.map fun h ↦ (h, .error UPNP_E_SOCKET_READ) := by
  rw [headersOn]
  split
  · cases h.freeSocketBuffers <;> rfl
  · rename_i heq
    rw [hread] at heq
    cases heq
  · rename_i heq
    rw [hread] at heq
    cases heq

theorem headersOn_of_closed {p : Option Addr}
    (hread : readLine (SOCKET_BUFFER_SIZE - 1) net = (some [], net')) :
    headersOn malloc h current p n total_size cl net =
      (h.store current (.ofRead [])).map fun h ↦
        (h, .ok ⟨total_size, lengthAtEnd cl, current, net'⟩) := by
  rw [headersOn]
  split
  · rename_i heq
    rw [hread] at heq
    cases heq
  · rename_i heq
    rw [hread] at heq
    cases heq
    cases h.store current (.ofRead []) <;> rfl
  · rename_i heq
    rw [hread] at heq
    cases heq

/-- What becomes of the previous node. -/
def foldNode (line : List Char) (x : Addr × SocketBuffer) : Addr × SocketBuffer :=
  (x.1, if isContinuation line then x.2.chopCRLF else x.2)

theorem foldPrev_foldNode (prev : Option (Addr × SocketBuffer)) (line : List Char) :
    foldPrev (prev.map Prod.snd) line = (prev.map (foldNode line)).map Prod.snd := by
  cases prev with
  | none =>
    rw [foldPrev]
    split <;> rfl
  | some x =>
    rw [foldPrev]
    simp only [Option.map_some, foldNode]
    split <;> rfl

/-- A continuation takes the CRLF from the previous node, and then that is looked at. -/
theorem Lists.removeCRLF (hl : Lists h (lb ++ prev.toList ++ [(current, v)])) (line : List Char) :
    ∃ h', h.removeCRLF (prev.map Prod.fst) line = some h' ∧
      Lists h' (lb ++ (prev.map (foldNode line)).toList ++ [(current, v)]) ∧
      h'.newLine (prev.map Prod.fst) =
        some ((foldPrev (prev.map Prod.snd) line).all (·.crlfEnded)) := by
  rw [foldPrev_foldNode]
  cases prev with
  | none => exact ⟨h, rfl, hl, rfl⟩
  | some x =>
    obtain ⟨a, w⟩ := x
    rw [List.append_assoc] at hl
    have hget : ∃ next, h.get a = some ⟨w, next⟩ :=
      hl.chain.mem (a, w) (List.mem_append_right lb List.mem_cons_self)
    have hlook : ∀ {h' : Nodes} {w' : SocketBuffer},
        Lists h' (lb ++ (a, w') :: [(current, v)]) → h'.newLine (some a) = some w'.crlfEnded := by
      intro h' w' hl'
      obtain ⟨next, hget'⟩ := hl'.chain.mem (a, w') (List.mem_append_right lb List.mem_cons_self)
      rw [Nodes.newLine, hget']
      rfl
    simp only [Option.map_some, foldNode, Option.toList_some, Nodes.removeCRLF, List.append_assoc,
      List.cons_append, List.nil_append, Option.all_some]
    split
    · obtain ⟨next, hget⟩ := hget
      obtain ⟨h', hstore, hl'⟩ := hl.store w.chopCRLF
      refine ⟨h', ?_, hl', hlook hl'⟩
      rw [hget]
      exact hstore
    · exact ⟨h, rfl, hl, hlook hl⟩

/-- One turn of the loop. -/
theorem headersOn_turn (hl : Lists h (lb ++ prev.toList ++ [(current, v)]))
    (hread : readLine (SOCKET_BUFFER_SIZE - 1) net = (some line, net')) (hne : line ≠ []) :
    ∃ h', Lists h' (lb ++ (prev.map (foldNode line)).toList ++ [(current, .ofRead line)]) ∧
      headersOn malloc h current (prev.map Prod.fst) n total_size cl net =
        let newLine := (foldPrev (prev.map Prod.snd) line).all (·.crlfEnded)
        let cl := if newLine then lengthAfter cl line else cl
        let total_size := foldTotal (prev.map Prod.snd) total_size line
        if isLastLine newLine line then
          some (h', .ok ⟨total_size, lengthAtEnd cl, current, net'⟩)
        else if !malloc n then h'.freeSocketBuffers.map fun h ↦ (h, .error UPNP_E_OUTOF_MEMORY)
        else (h'.append current).bind fun x ↦
          headersOn malloc x.1 x.2 (some current) (n + 1) total_size cl net' := by
  obtain ⟨h₁, hstore, hl₁⟩ := hl.store (.ofRead line)
  obtain ⟨h₂, hremove, hl₂, hnew⟩ := hl₁.removeCRLF line
  refine ⟨h₂, hl₂, ?_⟩
  obtain ⟨c, cs, rfl⟩ := List.exists_cons_of_ne_nil hne
  rw [headersOn]
  split
  · rename_i heq
    rw [hread] at heq
    cases heq
  · rename_i heq
    rw [hread] at heq
    cases heq
  · rename_i heq
    rw [hread] at heq
    cases heq
    simp only [hstore, hremove, hnew, Option.bind_eq_bind, Option.bind_some]
    have hsome : (prev.map Prod.fst).isSome = (prev.map Prod.snd).isSome := by
      rw [Option.isSome_map, Option.isSome_map]
    rw [hsome]
    split
    · rfl
    · split
      · cases h₂.freeSocketBuffers <;> rfl
      · rfl

/-- The header line behind which reading fails: there is no next line, or no memory for one. -/
def failsAt (malloc : Nat → Bool) (prev : Option (List Char)) (n : Nat) (net : Net) : Option Nat :=
  match hread : readLine (SOCKET_BUFFER_SIZE - 1) net with
  | (none, _) => some n
  | (some [], _) => none
  | (some (c :: cs), net') =>
    let line := c :: cs
    if isLastLine (prev.all crlfEnded) line then none
    else if !malloc n then some n
    else failsAt malloc (some line) (n + 1) net'
termination_by net.size
decreasing_by
  have := size_of_readLine hread
  simp only [List.length_cons] at this
  omega

theorem failsAt_of_line {p : Option (List Char)}
    (hread : readLine (SOCKET_BUFFER_SIZE - 1) net = (some line, net')) (hne : line ≠ []) :
    failsAt malloc p n net =
      if isLastLine (p.all crlfEnded) line then none
      else if !malloc n then some n
      else failsAt malloc (some line) (n + 1) net' := by
  obtain ⟨c, cs, rfl⟩ := List.exists_cons_of_ne_nil hne
  rw [failsAt]
  split
  · rename_i heq
    rw [hread] at heq
    cases heq
  · rename_i heq
    rw [hread] at heq
    cases heq
  · rename_i heq
    rw [hread] at heq
    cases heq
    rfl

theorem failsAt_of_failed {p : Option (List Char)}
    (hread : readLine (SOCKET_BUFFER_SIZE - 1) net = (none, net')) :
    failsAt malloc p n net = some n := by
  rw [failsAt]
  split
  · rfl
  · rename_i heq
    rw [hread] at heq
    cases heq
  · rename_i heq
    rw [hread] at heq
    cases heq

theorem failsAt_of_closed {p : Option (List Char)}
    (hread : readLine (SOCKET_BUFFER_SIZE - 1) net = (some [], net')) :
    failsAt malloc p n net = none := by
  rw [failsAt]
  split
  · rename_i heq
    rw [hread] at heq
    cases heq
  · rfl
  · rename_i heq
    rw [hread] at heq
    cases heq

/-- The run of `getHeaders` on the nodes, beside that on the list of buffers. -/
inductive HeadersEnd (outcome : Except Int Headers) (fails : Option Nat) :
    Option (Nodes × Except Int Tail) → Prop
  | ok {h : Nodes} {l : List (Addr × SocketBuffer)} {tail : Addr} {v : SocketBuffer} {r : Headers}
    (hl : Lists h (l ++ [(tail, v)])) (hbuffers : (l ++ [(tail, v)]).map Prod.snd = r.buffers)
    (houtcome : outcome = .ok r) (hfails : fails = none) :
    HeadersEnd outcome fails
      (some (h, .ok ⟨r.total_size, r.contentLength, tail, r.rest⟩))
  | error {h : Nodes} {next : Option Addr} {code : Int} {k : Nat} (hfreed : Freed h next)
    (hnext : next = none ↔ k = 0) (hcode : code < 0) (houtcome : outcome = .error code)
    (hfails : fails = some k) :
    HeadersEnd outcome fails (some (h, .error code))

/-- The nodes are freed, and a link to them is left unless there were none. -/
theorem headersEnd_of_lists {code : Int} (hl : Lists h (lb ++ prev.toList ++ [(current, v)]))
    (hn : n = (lb ++ prev.toList).length) (hcode : code < 0) :
    HeadersEnd (.error code) (some n)
      (h.freeSocketBuffers.map fun h ↦ (h, (.error code : Except Int Tail))) := by
  obtain ⟨h', next, hfree, hfreed, hnext⟩ := hl.freed
  rw [hfree]
  refine .error hfreed ?_ hcode rfl rfl
  rw [hnext, hn, List.length_eq_zero_iff]

/-- The run on the nodes does what the loop does on the list. -/
theorem headersOn_end {p : Option (List Char)}
    (hl : Lists h (lb ++ prev.toList ++ [(current, v)])) (hp : prev.map Prod.snd = p.map .ofRead)
    (hn : n = (lb ++ prev.toList).length) :
    HeadersEnd (headerLoop malloc (lb.map Prod.snd) (prev.map Prod.snd) total_size cl net)
      (failsAt malloc p n net)
      (headersOn malloc h current (prev.map Prod.fst) n total_size cl net) := by
  induction hsize : net.size using Nat.strong_induction_on generalizing h lb prev current v n
    total_size cl net p with
  | h size ih =>
    rcases hread : readLine (SOCKET_BUFFER_SIZE - 1) net with ⟨answer, net'⟩
    cases answer with
    | none =>
      rw [headerLoop_of_failed hread, failsAt_of_failed hread, headersOn_of_failed hread]
      exact headersEnd_of_lists hl hn (by decide)
    | some line =>
      by_cases hne : line = []
      · subst hne
        rw [headerLoop_of_closed hread, failsAt_of_closed hread, headersOn_of_closed hread]
        obtain ⟨h', hstore, hl'⟩ := hl.store (.ofRead [])
        rw [hstore]
        refine .ok hl' ?_ rfl rfl
        rw [List.map_append, List.map_append]
        cases prev <;> rfl
      · obtain ⟨h', hl', hturn⟩ := @headersOn_turn malloc h lb prev current v n total_size cl net net'
          line hl hread hne
        rw [headerLoop_of_line hread hne, failsAt_of_line hread hne, hturn]
        have hlast := isLastLine_foldPrev p line
        rw [← hp] at hlast
        rw [← hlast]
        have hbefore : lb.map Prod.snd ++ (foldPrev (prev.map Prod.snd) line).toList =
            (lb ++ (prev.map (foldNode line)).toList).map Prod.snd := by
          rw [foldPrev_foldNode, List.map_append]
          cases prev <;> rfl
        have hlen : (lb ++ (prev.map (foldNode line)).toList).length = n := by
          rw [hn, List.length_append, List.length_append]
          cases prev <;> rfl
        dsimp only
        rw [hbefore, List.length_map, hlen]
        split
        · refine .ok hl' ?_ rfl rfl
          rw [List.map_append]
          rfl
        · split
          · exact headersEnd_of_lists hl' hlen.symm (by decide)
          · have hlt : net'.size < size := by
              have := size_of_readLine hread
              have := List.length_pos_iff.mpr hne
              omega
            obtain ⟨h'', next, happend, hl''⟩ := hl'.append
            rw [happend]
            have hrest := @ih net'.size hlt h'' (lb ++ (prev.map (foldNode line)).toList)
              (some (current, .ofRead line)) next ⟨[], 0⟩ (n + 1)
            exact hrest hl'' rfl (by rw [List.length_append, hlen]; rfl) rfl

/-! ## The loop of `read_http_response` -/

/-- The run of the loop on the nodes, beside that on the list of buffers. -/
inductive BodyEnd : Except Fault (Int × List SocketBuffer) → Option (Nodes × Except Int Int) → Prop
  | ok {h : Nodes} {l : List (Addr × SocketBuffer)} {total_size : Int} (hl : Lists h l) :
    BodyEnd (.ok (total_size, l.map Prod.snd)) (some (h, .ok total_size))
  | memory {h : Nodes} (hmem : ∀ a ∈ h, a = head) :
    BodyEnd (.error .memory) (some (h, .error UPNP_E_OUTOF_MEMORY))
  | overrun : BodyEnd (.error .overrun) none

theorem bodyOn_end (hl : Lists h (l ++ [(current, v)])) :
    BodyEnd (bodyLoop malloc cl chunk_size total_size ((l ++ [(current, v)]).map Prod.snd) net)
      (bodyOn malloc h current l.length cl chunk_size total_size net) := by
  induction hsize : net.size using Nat.strong_induction_on generalizing h l current v cl chunk_size
    total_size net with
  | h size ih =>
    have hlen : ((l ++ [(current, v)]).map Prod.snd).length - 1 = l.length := by
      rw [List.length_map, List.length_append]
      rfl
    by_cases hmore : cl = -1 ∧ (currentChunk cl chunk_size net).1 = 0
    · rw [bodyLoop, bodyOn]
      dsimp only
      rw [if_pos hmore, if_pos hmore]
      exact .ok hl
    by_cases hmalloc : (!malloc l.length) = true
    · rw [bodyLoop, bodyOn]
      dsimp only
      rw [hlen, if_neg hmore, if_pos hmalloc, if_neg hmore, if_pos hmalloc]
      obtain ⟨h', next, hfree, hfreed, -⟩ := hl.freed
      rw [hfree]
      exact .memory hfreed.mem
    have hmalloc' : ¬ (!malloc (((l ++ [(current, v)]).map Prod.snd).length - 1)) = true := by
      rwa [hlen]
    obtain ⟨h₁, next, happend, hl₁⟩ := hl.append
    rw [bodyOn]
    dsimp only
    rw [if_neg hmore, if_neg hmalloc, happend]
    simp only [Option.bind_eq_bind, Option.bind_some]
    rw [if_neg fun h ↦ h.1 rfl]
    split
    · rename_i b bs net' hrecv
      rw [bodyLoop_of_block hmore hmalloc' hrecv]
      dsimp only
      split
      · exact .overrun
      obtain ⟨h₂, hstore, hl₂⟩ := hl₁.store (.ofRead (b :: bs))
      rw [hstore, Option.bind_some]
      have hbufs : (l ++ [(current, v)]).map Prod.snd ++ [.ofRead (b :: bs)] =
          (l ++ [(current, v)] ++ [(next, SocketBuffer.ofRead (b :: bs))]).map Prod.snd := by
        rw [List.map_append, List.map_append, List.map_append]
        rfl
      rw [hbufs]
      split
      · exact .ok hl₂
      · have hlt : net'.size < size := by
          have h₁ := Net.size_of_recv_bytes hrecv
          have h₂ := size_currentChunk_le cl chunk_size net
          simp only [List.length_cons] at h₁
          omega
        have hrest := @ih net'.size hlt h₂ (l ++ [(current, v)]) next (.ofRead (b :: bs))
        rw [List.length_append] at hrest
        exact hrest hl₂ rfl
    · rename_i hnone
      rw [bodyLoop_of_none hmore hmalloc' hnone]
      obtain ⟨h₂, hstore, hl₂⟩ := hl₁.store (.ofRead [])
      rw [hstore]
      have hbufs : (l ++ [(current, v)]).map Prod.snd ++ [.ofRead []] =
          (l ++ [(current, v)] ++ [(next, SocketBuffer.ofRead [])]).map Prod.snd := by
        rw [List.map_append, List.map_append, List.map_append]
        rfl
      rw [hbufs]
      exact .ok hl₂

/-! ## `read_http_response` -/

/-- The output is made of the buffers, and all nodes are freed. -/
theorem concludeOn_lists (hl : Lists h l) (total_size : Int) :
    ∃ h', concludeOn h total_size = some (h', conclude total_size (l.map Prod.snd)) ∧
      ∀ a ∈ h', a = head := by
  have hfree : ∃ h', h.freeSocketBuffers = some h' ∧ ∀ a ∈ h', a = head := by
    cases l with
    | nil => cases hl.chain
    | cons x l =>
      obtain ⟨a, w⟩ := x
      obtain ⟨heq, -⟩ := hl.chain
      cases heq
      obtain ⟨h', hfree, hmem, -⟩ := hl.free
      exact ⟨h', hfree, hmem⟩
  obtain ⟨h', hfree, hmem⟩ := hfree
  refine ⟨h', ?_, hmem⟩
  rw [concludeOn, conclude]
  split
  · rw [hfree]
    rfl
  · rw [concatLoop_chain hl.chain (Nat.le_of_eq hl.length_eq.symm), hfree]
    rfl

/-- A second call of `free_socket_buffers` is harmless only where the first had nothing to free. -/
theorem concludeOn_freed {next : Option Addr} {code : Int} (hf : Freed h next) (hcode : code < 0) :
    concludeOn h code = if next = none then some (h, .error code) else none := by
  rw [concludeOn, if_pos hcode, hf.again]
  split <;> rfl

/-- All nodes are freed, and none is used afterwards. -/
def FreesOnce (malloc : Nat → Bool) (net : Net) : Prop :=
  ∃ h r, readHttpResponseOn malloc net = some (h, r) ∧ ∀ a ∈ h, a = head

/-- Where the run on the nodes comes to its end, it returns what `readHttpResponse` does and all nodes
are freed. -/
theorem readHttpResponseOn_cases (malloc : Nat → Bool) (net : Net) :
    (∃ h, readHttpResponseOn malloc net = some (h, readHttpResponse malloc net) ∧
      (∀ a ∈ h, a = head) ∧ (∀ k, failsAt malloc none 0 net = some k → k = 0) ∧
      readHttpResponse malloc net ≠ .overrun) ∨
    (readHttpResponseOn malloc net = none ∧
      ((∃ k, failsAt malloc none 0 net = some k ∧ k ≠ 0) ∨
        readHttpResponse malloc net = .overrun)) := by
  have hend := @headersOn_end malloc Nodes.init [] none head ⟨[], 0⟩ 0 0 (-3) net none
    Lists.init rfl rfl
  change HeadersEnd (getHeaders malloc net) _ (headersOn malloc Nodes.init head none 0 0 (-3) net)
    at hend
  rw [readHttpResponseOn, readHttpResponse]
  generalize headersOn malloc Nodes.init head none 0 0 (-3) net = run at hend ⊢
  generalize getHeaders malloc net = outcome at hend ⊢
  cases hend with
  | error hfreed hnext hcode houtcome hfails =>
    subst houtcome
    rename_i h next code k
    simp only [Option.bind_eq_bind, Option.bind_some]
    rw [concludeOn_freed hfreed hcode]
    by_cases hnone : next = none
    · left
      rw [if_pos hnone]
      refine ⟨h, rfl, hfreed.mem, ?_, fun heq ↦ by cases heq⟩
      intro k' hk
      rw [hfails, Option.some.injEq] at hk
      exact hk ▸ hnext.mp hnone
    · right
      rw [if_neg hnone]
      exact ⟨rfl, .inl ⟨k, hfails, fun hk ↦ hnone (hnext.mpr hk)⟩⟩
  | ok hl hbuffers houtcome hfails =>
    subst houtcome
    rename_i h l tail v r
    simp only [Option.bind_eq_bind, Option.bind_some]
    have hnone : ∀ k, failsAt malloc none 0 net = some k → k = 0 := by
      intro k hk
      rw [hfails] at hk
      cases hk
    have hconclude : ∀ {h' : Nodes} {l' : List (Addr × SocketBuffer)} {total : Int},
        Lists h' l' → ∃ h'', concludeOn h' total = some (h'', conclude total (l'.map Prod.snd)) ∧
          (∀ a ∈ h'', a = head) ∧ (∀ k, failsAt malloc none 0 net = some k → k = 0) ∧
          conclude total (l'.map Prod.snd) ≠ .overrun := by
      intro h' l' total hl'
      obtain ⟨h'', hrun, hmem⟩ := concludeOn_lists hl' total
      refine ⟨h'', hrun, hmem, hnone, ?_⟩
      rw [conclude]
      split <;> rintro ⟨⟩
    by_cases hbody : r.total_size > 0 ∧ r.contentLength ≠ 0
    · rw [if_pos hbody, if_pos hbody]
      have hbodyEnd := @bodyOn_end malloc h l tail v r.total_size r.contentLength (-1) r.rest hl
      have hsize : h.size - 1 = l.length := by
        rw [hl.length_eq, List.length_append]
        rfl
      rw [hbuffers] at hbodyEnd
      rw [hsize]
      generalize bodyOn malloc h tail l.length r.contentLength (-1) r.total_size r.rest = bodyRun at *
      generalize bodyLoop malloc r.contentLength (-1) r.total_size r.buffers r.rest = bodyOutcome at *
      cases hbodyEnd with
      | ok hl' => exact .inl (hconclude hl')
      | memory hmem => exact .inl ⟨_, rfl, hmem, hnone, fun heq ↦ by cases heq⟩
      | overrun => exact .inr ⟨rfl, .inr rfl⟩
    · rw [if_neg hbody, if_neg hbody, ← hbuffers]
      exact .inl (hconclude hl)

/-- A buffer is overrun if and only if a block is longer than that. -/
theorem readHttpResponse_overrun_iff (malloc : Nat → Bool) (net : Net) :
    readHttpResponse malloc net = .overrun ↔
      ∃ r ∈ responseReads malloc net, SOCKET_BUFFER_SIZE < r.block.length := by
  have hconclude : ∀ {total_size : Int} {bufs : List SocketBuffer},
      conclude total_size bufs ≠ .overrun := by
    intro total_size bufs
    rw [conclude]
    split <;> rintro ⟨⟩
  have hnil : ¬ ∃ r ∈ ([] : List Read), SOCKET_BUFFER_SIZE < r.block.length := by
    rintro ⟨r, hr, -⟩
    cases hr
  rw [readHttpResponse, responseReads]
  cases getHeaders malloc net with
  | error code => exact iff_of_false (fun heq ↦ by cases heq) hnil
  | ok h =>
    dsimp only
    by_cases hbody : h.total_size > 0 ∧ h.contentLength ≠ 0
    · rw [if_pos hbody, if_pos hbody, ← bodyLoop_overrun_iff]
      cases bodyLoop malloc h.contentLength (-1) h.total_size h.buffers h.rest with
      | error fault =>
        cases fault with
        | memory => exact iff_of_false (fun heq ↦ by cases heq) (fun heq ↦ by cases heq)
        | overrun => exact iff_of_true rfl rfl
      | ok r => exact iff_of_false hconclude (fun heq ↦ by cases heq)
    · rw [if_neg hbody, if_neg hbody]
      exact iff_of_false hconclude hnil

/-- A response of which nothing comes behind the status line until the time is out. -/
def timedOut : Net := [.segment "HTTP/1.1 200 OK\r\n".toList, .failure]

end Upnp.Http
