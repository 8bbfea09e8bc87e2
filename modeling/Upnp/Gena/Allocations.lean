import Upnp.Gena.Wire

/-!
# The blocks of a subscription request

`genaSubscriptionRequest`, `createURL_list` and `copy_subscription` as sequences of calls to
`malloc` and `free`, for every answer of `malloc`, of `parse_uri` and of the socket.  A pointer in
a block that was just allocated is undefined until it is written.
-/

namespace Upnp.Gena.Alloc

open Upnp.Lib

/-- A pointer. -/
inductive Ptr where
  /-- In memory that was not written. -/
  | undef
  | null
  | block (id : Nat)
deriving DecidableEq

/-- The blocks that a call has allocated and not freed, latest first; `next` numbers them. -/
structure Blocks where
  next : Nat
  live : List Nat

namespace Blocks

/-- `malloc`. -/
def malloc (ok : Bool) (m : Blocks) : Blocks × Ptr :=
  if ok then (⟨m.next + 1, m.next :: m.live⟩, .block m.next) else (m, .null)

/-- `free`, after a test for a null pointer or without; `none` for a pointer that is undefined, or
to a block that is not there. -/
def free (p : Ptr) (m : Blocks) : Option Blocks :=
  match p with
  | .undef => none
  | .null => some m
  | .block id => if id ∈ m.live then some { m with live := m.live.erase id } else none

end Blocks

/-! ## `createURL_list` -/

/-- What `parse_uri` does with a group of the value. -/
inductive Parse where
  /-- It ends before a host name is looked up; no host is found. -/
  | noHost
  /-- There is no memory for the host name. -/
  | noMemory
  /-- The host name is looked up, and found or not. -/
  | host (resolved : Bool)

/-- The block that `parse_hostport` allocates for the host name, and frees. -/
def Parse.run (m : Blocks) : Parse → Option Blocks
  | noHost => some m
  | noMemory => some (m.malloc false).1
  | host _ =>
    let (m, temp_host_name) := m.malloc true
    m.free temp_host_name

/-- A pass over the groups: the number of URLs, or `none` when memory runs out. -/
def pass : List Parse → Nat → Blocks → Option (Blocks × Option Nat)
  | [], URLcount, m => some (m, some URLcount)
  | p :: ps, URLcount, m => do
    let m ← p.run m
    match p with
    | .noMemory => some (m, none)
    | .host true => pass ps (URLcount + 1) m
    | _ => pass ps URLcount m

/-- What `createURL_list` meets: the groups in each pass, and memory for the two parts. -/
structure ListAnswers where
  count : List Parse
  URLsOk : Bool
  parsedOk : Bool
  store : List Parse

/-- The pointers of a `URL_list`. -/
structure URL_list where
  URLs : Ptr
  parsedURLs : Ptr

/-- The blocks of a list, latest first. -/
def URL_list.blocks (list : URL_list) : List Nat :=
  [list.parsedURLs, list.URLs].filterMap fun
    | .block id => some id
    | _ => none

/-- What `createURL_list` returns, without its list. -/
inductive ReturnCode where
  | UPNP_E_OUTOF_MEMORY
  | count (URLcount : Nat)
deriving DecidableEq

/-- `createURL_list`. -/
def createURL_list (a : ListAnswers) (m : Blocks) : Option (Blocks × URL_list × ReturnCode) := do
  let (m, counted) ← pass a.count 0 m
  match counted with
  | none => some (m, ⟨.null, .null⟩, .UPNP_E_OUTOF_MEMORY)
  | some _ =>
    let (m, URLs) := m.malloc a.URLsOk
    let (m, parsedURLs) := m.malloc a.parsedOk
    if URLs = .null ∨ parsedURLs = .null then
      some (m, ⟨URLs, parsedURLs⟩, .UPNP_E_OUTOF_MEMORY)
    else
      let (m, stored) ← pass a.store 0 m
      match stored with
      | none =>
        let m ← m.free URLs
        let m ← m.free parsedURLs
        some (m, ⟨.null, .null⟩, .UPNP_E_OUTOF_MEMORY)
      | some URLcount => some (m, ⟨URLs, parsedURLs⟩, .count URLcount)

/-- `copy_subscription`, with `copy_URL_list`; the list is that of `out`. -/
def copy_subscription (URLsOk parsedOk : Bool) (m : Blocks) : Blocks × URL_list :=
  let (m, URLs) := m.malloc URLsOk
  let (m, parsedURLs) := m.malloc parsedOk
  (m, ⟨URLs, parsedURLs⟩)

/-! ## `genaSubscriptionRequest` -/

/-- `freeSubscriptionList` of one node, with `free_URL_list`. -/
def freeSubscription (sub : Ptr) (list : URL_list) (m : Blocks) : Option Blocks := do
  let m ← m.free list.URLs
  let m ← m.free list.parsedURLs
  m.free sub

/-- The answers to a request, with those to `createURL_list` and to `respondOK`. -/
structure Answers where
  pathAllocOk : Bool
  subAllocOk : Bool
  list : CString → ListAnswers
  /-- `temp`, of `respondOK`. -/
  tempOk : Bool
  /-- The response is sent. -/
  sendOk : Bool

/-- `respondOK`. -/
def respondOK (env : Answers) (m : Blocks) : Option (Blocks × Bool) :=
  match m.malloc env.tempOk with
  | (m, .null) => some (m, false)
  | (m, temp) => (m.free temp).map fun m ↦ (m, env.sendOk)

/-- The blocks of a node that is linked into the list of a service. -/
structure Node where
  sub : Ptr
  DeliveryURLs : URL_list

/-- `genaSubscriptionRequest`, from the check for valid callbacks on. -/
def newSubscription (env : Answers) (request : HttpRequest) (sub : Ptr) (m : Blocks) :
    Option (Blocks × Option Node) :=
  match request.header "CALLBACK".toList with
  -- `createURL_list` is not called
  | none => (freeSubscription sub ⟨.undef, .undef⟩ m).map (·, none)
  | some callback => do
    let (m, list, return_code) ← createURL_list (env.list callback.text) m
    if return_code = .count 0 ∨ return_code = .UPNP_E_OUTOF_MEMORY then
      (freeSubscription sub list m).map (·, none)
    else
      let (m, ok) ← respondOK env m
      if !ok then (freeSubscription sub list m).map (·, none)
      else some (m, some ⟨sub, list⟩)

variable (samePath : CString → CString → Bool)

/-- `genaSubscriptionRequest`: the blocks, and the node it links. -/
def genaSubscriptionRequest (env : Answers) (s : State) (request : HttpRequest) (m : Blocks) :
    Option (Blocks × Option Node) :=
  match request.header "NT".toList with
  | none => some (m, none)
  | some nt =>
    if !acceptedNT nt then some (m, none)
    else if (request.header "SID".toList).isSome then some (m, none)
    else
      match m.malloc env.pathAllocOk with
      | (m, .null) => some (m, none)
      | (m, eventURLpath) =>
        -- the path is not freed without a device
        if s.getDeviceHandleInfo.isNone then some (m, none)
        else do
          let m ← m.free eventURLpath
          match requestedService samePath s request with
          | none => some (m, none)
          | some (info, _, svc) =>
            if !svc.active then some (m, none)
            else if info.maxSubscriptions ≠ -1 ∧ svc.totalSubscriptions ≥ info.maxSubscriptions then
              some (m, none)
            else
              match m.malloc env.subAllocOk with
              | (m, .null) => some (m, none)
              | (m, sub) => newSubscription env request sub m

variable {samePath} {m : Blocks} {n : Nat} {rest : List Nat} {list : URL_list} {env : Answers}
  {s : State} {request : HttpRequest}

/-! ## What each function leaves -/

/-- A block that was just allocated can be freed. -/
theorem free_malloc (m : Blocks) :
    (m.malloc true).1.free (m.malloc true).2 = some ⟨m.next + 1, m.live⟩ := by
  rw [Blocks.malloc, if_pos rfl, Blocks.free, if_pos (List.mem_cons_self ..),
    List.erase_cons_head]

theorem free_head (n id : Nat) (rest : List Nat) :
    Blocks.free (.block id) ⟨n, id :: rest⟩ = some ⟨n, rest⟩ := by
  rw [Blocks.free, if_pos (List.mem_cons_self ..), List.erase_cons_head]

theorem free_second {n id id' : Nat} (hne : id' ≠ id) (rest : List Nat) :
    Blocks.free (.block id) ⟨n, id' :: id :: rest⟩ = some ⟨n, id' :: rest⟩ := by
  have hmem : id ∈ id' :: id :: rest := List.mem_cons_of_mem _ (List.mem_cons_self ..)
  rw [Blocks.free, if_pos hmem, List.erase_cons_tail (by simpa using hne), List.erase_cons_head]

/-- `parse_uri` leaves no block. -/
theorem Parse.run_eq (p : Parse) (m : Blocks) : ∃ n, p.run m = some ⟨n, m.live⟩ := by
  cases p with
  | noHost => exact ⟨m.next, rfl⟩
  | noMemory => exact ⟨m.next, rfl⟩
  | host resolved => exact ⟨m.next + 1, free_malloc m⟩

theorem pass_eq (ps : List Parse) (URLcount : Nat) (m : Blocks) :
    ∃ n r, pass ps URLcount m = some (⟨n, m.live⟩, r) := by
  induction ps generalizing URLcount m with
  | nil => exact ⟨m.next, some URLcount, rfl⟩
  | cons p ps ih =>
    obtain ⟨n, hn⟩ := p.run_eq m
    rw [pass, hn]
    cases p with
    | noHost => exact ih URLcount ⟨n, m.live⟩
    | noMemory => exact ⟨n, none, rfl⟩
    | host resolved =>
      cases resolved with
      | false => exact ih URLcount ⟨n, m.live⟩
      | true => exact ih (URLcount + 1) ⟨n, m.live⟩

/-- The pointers of a list were written, and no two lead to one block. -/
structure URL_list.Set (list : URL_list) : Prop where
  URLs : list.URLs ≠ .undef
  parsedURLs : list.parsedURLs ≠ .undef
  nodup : list.blocks.Nodup

/-- What two calls to `malloc` leave. -/
theorem malloc_list (URLsOk parsedOk : Bool) (m : Blocks) :
    ∃ m₁ n list, m.malloc URLsOk = (m₁, URL_list.URLs list) ∧
      m₁.malloc parsedOk = (⟨n, list.blocks ++ m.live⟩, list.parsedURLs) ∧ list.Set := by
  cases URLsOk with
  | false =>
    cases parsedOk with
    | false =>
      refine ⟨m, m.next, ⟨.null, .null⟩, rfl, rfl, ?_⟩
      constructor <;> simp [URL_list.blocks]
    | true =>
      refine ⟨m, m.next + 1, ⟨.null, .block m.next⟩, rfl, rfl, ?_⟩
      constructor <;> simp [URL_list.blocks]
  | true =>
    cases parsedOk with
    | false =>
      refine ⟨_, m.next + 1, ⟨.block m.next, .null⟩, rfl, rfl, ?_⟩
      constructor <;> simp [URL_list.blocks]
    | true =>
      refine ⟨_, m.next + 1 + 1, ⟨.block m.next, .block (m.next + 1)⟩, rfl, rfl, ?_⟩
      constructor <;> simp [URL_list.blocks]

/-- A list is freed, each part once, before what was allocated earlier. -/
theorem free_list (hset : list.Set) (n : Nat) (rest : List Nat) :
    (Blocks.free list.URLs ⟨n, list.blocks ++ rest⟩).bind (Blocks.free list.parsedURLs) =
      some ⟨n, rest⟩ := by
  obtain ⟨URLs, parsedURLs⟩ := list
  obtain ⟨hURLs, hparsed, hnodup⟩ := hset
  cases URLs with
  | undef => exact absurd rfl hURLs
  | null =>
    cases parsedURLs with
    | undef => exact absurd rfl hparsed
    | null => rfl
    | block id => exact free_head n id rest
  | block u =>
    cases parsedURLs with
    | undef => exact absurd rfl hparsed
    | null =>
      change (Blocks.free (.block u) ⟨n, u :: rest⟩).bind _ = _
      rw [free_head]
      rfl
    | block p =>
      have hne : p ≠ u := fun heq ↦
        (List.nodup_cons.mp hnodup).1 (heq ▸ List.mem_singleton_self _)
      change (Blocks.free (.block u) ⟨n, p :: u :: rest⟩).bind _ = _
      rw [free_second hne, Option.bind_some, free_head]

theorem freeSubscription_eq (hset : list.Set) (n id : Nat) (rest : List Nat) :
    freeSubscription (.block id) list ⟨n, list.blocks ++ id :: rest⟩ = some ⟨n, rest⟩ := by
  have hlist := free_list hset n (id :: rest)
  obtain ⟨m, hm, hm'⟩ := Option.bind_eq_some_iff.mp hlist
  rw [freeSubscription, hm]
  change (Blocks.free list.parsedURLs m).bind _ = _
  rw [hm', Option.bind_some, free_head]

/-- A node whose list was not set cannot be freed. -/
theorem freeSubscription_undef (sub : Ptr) (m : Blocks) :
    freeSubscription sub ⟨.undef, .undef⟩ m = none := rfl

theorem URL_list.set_null : URL_list.Set ⟨.null, .null⟩ where
  URLs := fun h ↦ by cases h
  parsedURLs := fun h ↦ by cases h
  nodup := List.nodup_nil

/-- What `createURL_list` leaves is reached from its list. -/
theorem createURL_list_eq (a : ListAnswers) (m : Blocks) :
    ∃ n list code, createURL_list a m = some (⟨n, list.blocks ++ m.live⟩, list, code) ∧
      list.Set := by
  obtain ⟨n₁, counted, hcount⟩ := pass_eq a.count 0 m
  rw [createURL_list, hcount]
  cases counted with
  | none => exact ⟨n₁, _, _, rfl, URL_list.set_null⟩
  | some URLcount =>
    obtain ⟨m₂, n₂, list, hURLs, hparsed, hset⟩ := malloc_list a.URLsOk a.parsedOk ⟨n₁, m.live⟩
    simp only [Option.bind_eq_bind, Option.bind_some, hURLs, hparsed]
    split
    · exact ⟨n₂, list, _, rfl, hset⟩
    · obtain ⟨n₃, stored, hstore⟩ := pass_eq a.store 0 ⟨n₂, list.blocks ++ m.live⟩
      rw [hstore]
      cases stored with
      | none =>
        obtain ⟨m₄, hm₄, hm₅⟩ := Option.bind_eq_some_iff.mp (free_list hset n₃ m.live)
        refine ⟨n₃, ⟨.null, .null⟩, .UPNP_E_OUTOF_MEMORY, ?_, URL_list.set_null⟩
        simp only [Option.bind_some, hm₄, hm₅]
        rfl
      | some URLcount => exact ⟨n₃, list, _, rfl, hset⟩

theorem respondOK_eq (env : Answers) (m : Blocks) :
    ∃ n ok, respondOK env m = some (⟨n, m.live⟩, ok) := by
  rw [respondOK]
  cases env.tempOk with
  | false => exact ⟨m.next, false, rfl⟩
  | true =>
    refine ⟨m.next + 1, env.sendOk, ?_⟩
    change (Blocks.free (.block m.next) ⟨m.next + 1, m.next :: m.live⟩).map _ = _
    rw [free_head]
    rfl

/-- The blocks of a node. -/
def Node.blocks (node : Node) : List Nat :=
  node.DeliveryURLs.blocks ++ [node.sub].filterMap fun
    | .block id => some id
    | _ => none

/-- A node is linked with all its blocks, or its blocks are freed. -/
theorem newSubscription_eq {callback : Token}
    (hcallback : request.header "CALLBACK".toList = some callback) (env : Answers) (n id : Nat) :
    ∃ m node, newSubscription env request (.block id) ⟨n, [id]⟩ = some (m, node) ∧
      m.live = (node.map Node.blocks).getD [] := by
  obtain ⟨n₁, list, code, hlist, hset⟩ := createURL_list_eq (env.list callback.text) ⟨n, [id]⟩
  rw [newSubscription, hcallback]
  simp only [Option.bind_eq_bind, Option.bind_some, hlist]
  split
  · exact ⟨⟨n₁, []⟩, none, by rw [freeSubscription_eq hset]; rfl, rfl⟩
  · obtain ⟨n₂, ok, hok⟩ := respondOK_eq env ⟨n₁, list.blocks ++ [id]⟩
    rw [hok]
    cases ok with
    | false =>
      refine ⟨⟨n₂, []⟩, none, ?_, rfl⟩
      change (freeSubscription _ list _).map _ = _
      rw [freeSubscription_eq hset]
      rfl
    | true => exact ⟨⟨n₂, list.blocks ++ [id]⟩, some ⟨.block id, list⟩, rfl, rfl⟩

/-! ## The calls -/

/-- A call of one of the three functions, with what it meets. -/
inductive Call where
  | genaSubscriptionRequest (samePath : CString → CString → Bool) (env : Answers) (s : State)
      (request : HttpRequest)
  | createURL_list (a : ListAnswers)
  | copy_subscription (URLsOk parsedOk : Bool)

/-- The blocks that a call leaves, and those that are reached from the subscription list of the
service, or from the list that the call was to fill. -/
def Call.run : Call → Option (List Nat × List Nat)
  | genaSubscriptionRequest samePath env s request =>
    (Alloc.genaSubscriptionRequest samePath env s request ⟨0, []⟩).map fun (m, node) ↦
      (m.live, (node.map Node.blocks).getD [])
  | createURL_list a =>
    (Alloc.createURL_list a ⟨0, []⟩).map fun (m, list, _) ↦ (m.live, list.blocks)
  | copy_subscription URLsOk parsedOk =>
    let (m, list) := Alloc.copy_subscription URLsOk parsedOk ⟨0, []⟩
    some (m.live, list.blocks)

/-- No pointer is freed that is undefined or was freed before, and each block that is left is
reached. -/
def Call.ReleasedOnce (c : Call) : Prop :=
  ∃ live reached, c.run = some (live, reached) ∧ ∀ b ∈ live, b ∈ reached

/-- A request for events whose path is allocated, and that finds no device, or comes without a
callback to an active service that has room and memory. -/
def Call.Slips : Call → Prop
  | genaSubscriptionRequest samePath env s request =>
    (∃ nt, request.header "NT".toList = some nt ∧ acceptedNT nt = true) ∧
      request.header "SID".toList = none ∧ env.pathAllocOk = true ∧
      (s.getDeviceHandleInfo = none ∨
        ∃ info l svc, requestedService samePath s request = some (info, l, svc) ∧
          svc.active = true ∧
          ¬(info.maxSubscriptions ≠ -1 ∧ svc.totalSubscriptions ≥ info.maxSubscriptions) ∧
          env.subAllocOk = true ∧ request.header "CALLBACK".toList = none)
  | _ => False

variable {nt : Token}

/-- A request that the checks of the headers refuse allocates nothing. -/
theorem request_refused (h : ¬((∃ nt, request.header "NT".toList = some nt ∧
    acceptedNT nt = true) ∧ request.header "SID".toList = none ∧ env.pathAllocOk = true)) :
    genaSubscriptionRequest samePath env s request ⟨0, []⟩ = some (⟨0, []⟩, none) := by
  rw [genaSubscriptionRequest]
  cases hnt : request.header "NT".toList with
  | none => rfl
  | some nt =>
    cases haccept : acceptedNT nt with
    | false =>
      simp only [haccept]
      rfl
    | true =>
      simp only [haccept]
      cases hsid : request.header "SID".toList with
      | some t => rfl
      | none =>
        cases hpath : env.pathAllocOk with
        | false => rfl
        | true => exact absurd ⟨⟨nt, hnt, haccept⟩, hsid, hpath⟩ h

section Checked

variable (hnt : request.header "NT".toList = some nt) (haccept : acceptedNT nt = true)
  (hsid : request.header "SID".toList = none) (hpath : env.pathAllocOk = true)

include hnt haccept hsid hpath

/-- The path is left without a device. -/
theorem request_without_device (hdevice : s.getDeviceHandleInfo = none) :
    (Call.genaSubscriptionRequest samePath env s request).run = some ([0], []) := by
  rw [Call.run, genaSubscriptionRequest, hnt]
  simp only [haccept, hsid, hpath, hdevice]
  rfl

/-- With a device, the path is freed before the service is used. -/
theorem request_with_device {dev : Int × HandleInfo} (hdevice : s.getDeviceHandleInfo = some dev) :
    genaSubscriptionRequest samePath env s request ⟨0, []⟩ =
      match requestedService samePath s request with
      | none => some (⟨1, []⟩, none)
      | some (info, _, svc) =>
        if !svc.active then some (⟨1, []⟩, none)
        else if info.maxSubscriptions ≠ -1 ∧ svc.totalSubscriptions ≥ info.maxSubscriptions then
          some (⟨1, []⟩, none)
        else if env.subAllocOk then newSubscription env request (.block 1) ⟨2, [1]⟩
        else some (⟨1, []⟩, none) := by
  rw [genaSubscriptionRequest, hnt]
  simp only [haccept, hsid, hpath, hdevice]
  cases requestedService samePath s request with
  | none => rfl
  | some found =>
    obtain ⟨info, l, svc⟩ := found
    cases env.subAllocOk with
    | false => rfl
    | true => rfl

end Checked

theorem Call.ReleasedOnce.of_empty {c : Call} (h : c.run = some ([], [])) : c.ReleasedOnce :=
  ⟨[], [], h, fun _ hb ↦ hb⟩

/-- With a device, a request releases its blocks unless it comes without a callback to a service
that has room. -/
theorem request_released {dev : Int × HandleInfo}
    (hnt : request.header "NT".toList = some nt) (haccept : acceptedNT nt = true)
    (hsid : request.header "SID".toList = none) (hpath : env.pathAllocOk = true)
    (hdevice : s.getDeviceHandleInfo = some dev) :
    (Call.genaSubscriptionRequest samePath env s request).ReleasedOnce ↔
      ¬ ∃ info l svc, requestedService samePath s request = some (info, l, svc) ∧
        svc.active = true ∧
        ¬(info.maxSubscriptions ≠ -1 ∧ svc.totalSubscriptions ≥ info.maxSubscriptions) ∧
        env.subAllocOk = true ∧ request.header "CALLBACK".toList = none := by
  have hrun := @request_with_device samePath env s request nt hnt haccept hsid hpath dev hdevice
  constructor
  · rintro ⟨live, reached, hlive, -⟩ ⟨info, l, svc, hreq, hactive, hroom, hsub, hcallback⟩
    rw [Call.run, hrun, hreq] at hlive
    simp only [hactive, if_neg hroom, hsub, newSubscription, hcallback,
      freeSubscription_undef] at hlive
    cases hlive
  · intro hnone
    cases hreq : requestedService samePath s request with
    | none => exact .of_empty (by rw [Call.run, hrun, hreq]; rfl)
    | some found =>
      obtain ⟨info, l, svc⟩ := found
      rw [hreq] at hrun
      cases hactive : svc.active with
      | false =>
        simp only [hactive] at hrun
        exact .of_empty (by rw [Call.run, hrun]; rfl)
      | true =>
        by_cases hroom : info.maxSubscriptions ≠ -1 ∧
          svc.totalSubscriptions ≥ info.maxSubscriptions
        · simp only [hactive, if_pos hroom] at hrun
          exact .of_empty (by rw [Call.run, hrun]; rfl)
        · simp only [hactive, if_neg hroom] at hrun
          cases hsub : env.subAllocOk with
          | false =>
            rw [hsub] at hrun
            exact .of_empty (by rw [Call.run, hrun]; rfl)
          | true =>
            cases hcallback : request.header "CALLBACK".toList with
            | none => exact absurd ⟨info, l, svc, hreq, hactive, hroom, hsub, hcallback⟩ hnone
            | some callback =>
              obtain ⟨m, node, hnew, hlive⟩ := newSubscription_eq hcallback env 2 1
              rw [hsub] at hrun
              refine ⟨m.live, _, by rw [Call.run, hrun]; exact congrArg _ hnew, ?_⟩
              rw [hlive]
              exact fun b hb ↦ hb

theorem copy_subscription_released (URLsOk parsedOk : Bool) :
    (Call.copy_subscription URLsOk parsedOk).ReleasedOnce := by
  obtain ⟨m₁, n, list, hURLs, hparsed, -⟩ := malloc_list URLsOk parsedOk ⟨0, []⟩
  refine ⟨list.blocks ++ [], list.blocks, ?_, fun b hb ↦ by rwa [List.append_nil] at hb⟩
  rw [Call.run, copy_subscription]
  simp only [hURLs, hparsed]

theorem createURL_list_released (a : ListAnswers) : (Call.createURL_list a).ReleasedOnce := by
  obtain ⟨n, list, code, hlist, -⟩ := createURL_list_eq a ⟨0, []⟩
  refine ⟨list.blocks ++ [], list.blocks, ?_, fun b hb ↦ by rwa [List.append_nil] at hb⟩
  rw [Call.run, hlist]
  rfl

/-- The answers of two environments, to the same request. -/
structure Agree (env : RequestEnv) (a : Answers) : Prop where
  path : a.pathAllocOk = env.pathAllocOk
  sub : a.subAllocOk = env.subAllocOk
  respond : (a.tempOk && a.sendOk) = env.respondOk
  memory : ∀ t m m' list code, createURL_list (a.list t) m = some (m', list, code) →
    (code = .UPNP_E_OUTOF_MEMORY ↔ env.createURLList t = none)
  none_found : ∀ t m m' list code, createURL_list (a.list t) m = some (m', list, code) →
    (code = .count 0 ↔ env.createURLList t = some [])

theorem respondOK_ok {a : Answers} {m m' : Blocks} {ok : Bool}
    (h : respondOK a m = some (m', ok)) : ok = (a.tempOk && a.sendOk) := by
  rw [respondOK] at h
  cases htemp : a.tempOk with
  | false =>
    rw [htemp] at h
    cases h
    rfl
  | true =>
    rw [htemp] at h
    change (Blocks.free (.block m.next) ⟨m.next + 1, m.next :: m.live⟩).map _ = _ at h
    rw [free_head] at h
    cases h
    rfl

/-- A node is linked by a request that the handler accepts. -/
theorem newSubscription_linked {a : Answers} {env : RequestEnv} (hagree : Agree env a)
    {sub : Ptr} {m m' : Blocks} {node : Node}
    (h : newSubscription a request sub m = some (m', some node)) :
    ∃ callback url urls, request.header "CALLBACK".toList = some callback ∧
      env.createURLList callback.text = some (url :: urls) ∧ env.respondOk = true := by
  rw [newSubscription] at h
  cases hcallback : request.header "CALLBACK".toList with
  | none =>
    rw [hcallback] at h
    cases h
  | some callback =>
    rw [hcallback] at h
    obtain ⟨n, list, code, hlist, -⟩ := createURL_list_eq (a.list callback.text) m
    simp only [Option.bind_eq_bind, hlist, Option.bind_some] at h
    by_cases hcode : code = .count 0 ∨ code = .UPNP_E_OUTOF_MEMORY
    · rw [if_pos hcode] at h
      obtain ⟨m₁, -, hm₁⟩ := Option.map_eq_some_iff.mp h
      cases hm₁
    · rw [if_neg hcode] at h
      obtain ⟨hzero, hmemory⟩ := not_or.mp hcode
      obtain ⟨⟨m₁, ok⟩, hok, h⟩ := Option.bind_eq_some_iff.mp h
      have hvalue := respondOK_ok hok
      cases ok with
      | false =>
        obtain ⟨m₂, -, hm₂⟩ := Option.map_eq_some_iff.mp h
        cases hm₂
      | true =>
        have hsent := hagree.respond
        rw [← hvalue] at hsent
        cases hurls : env.createURLList callback.text with
        | none => exact absurd ((hagree.memory _ _ _ _ _ hlist).mpr hurls) hmemory
        | some urls =>
          cases urls with
          | nil => exact absurd ((hagree.none_found _ _ _ _ _ hlist).mpr hurls) hzero
          | cons url urls => exact ⟨callback, url, urls, rfl, hurls, hsent.symm⟩

/-- A request that leaves a node is one that `Gena.genaSubscriptionRequest` answers with a SID,
after it has put a subscription at the head of the list of the service. -/
theorem genaSubscriptionRequest_linked {a : Answers} {env : RequestEnv} (hagree : Agree env a)
    {node : Node} (h : genaSubscriptionRequest samePath a s request ⟨0, []⟩ = some (m, some node)) :
    ∃ info l svc time_out sub,
      requestedService samePath s request = some (info, l, svc) ∧
      (Gena.genaSubscriptionRequest samePath env s request).2 = .respondOK time_out sub.sid ∧
      (Gena.genaSubscriptionRequest samePath env s request).1.handleTable =
        (s.setService l { svc with
          subscriptionList := sub :: svc.subscriptionList
          totalSubscriptions := svc.totalSubscriptions + 1 }).handleTable := by
  by_cases hcheck : (∃ nt, request.header "NT".toList = some nt ∧ acceptedNT nt = true) ∧
    request.header "SID".toList = none ∧ a.pathAllocOk = true
  · obtain ⟨⟨nt, hnt, haccept⟩, hsid, hpath⟩ := hcheck
    cases hdevice : s.getDeviceHandleInfo with
    | none =>
      rw [genaSubscriptionRequest, hnt] at h
      simp only [haccept, hsid, hpath, hdevice] at h
      cases h
    | some dev =>
      rw [request_with_device hnt haccept hsid hpath hdevice] at h
      cases hreq : requestedService samePath s request with
      | none =>
        rw [hreq] at h
        cases h
      | some found =>
        obtain ⟨info, l, svc⟩ := found
        rw [hreq] at h
        simp only at h
        split at h
        · cases h
        · rename_i hactive
          split at h
          · cases h
          · rename_i hroom
            split at h
            · rename_i hsub
              obtain ⟨callback, url, urls, hcallback, hurls, hok⟩ :=
                newSubscription_linked hagree h
              have hsub' := hagree.sub.symm.trans hsub
              have hpath' := hagree.path.symm.trans hpath
              rw [Gena.genaSubscriptionRequest, hnt]
              simp only [haccept, hsid, hpath', hreq, if_neg hactive, if_neg hroom, hsub',
                hcallback, Option.map_some, hurls, hok]
              exact ⟨info, l, svc, _, _, rfl, rfl, rfl⟩
            · cases h
  · rw [request_refused hcheck] at h
    cases h

/-- Memory for everything, and one URL in each value. -/
def ample : Answers where
  pathAllocOk := true
  subAllocOk := true
  list _ := ⟨[.host true], true, true, [.host true]⟩
  tempOk := true
  sendOk := true

/-- A request for events without a callback. -/
def uncalledRequest : HttpRequest where
  header h := if h = "NT".toList then some ⟨"upnp:event".toList, "\r\n".toList⟩ else none
  pathquery := "/e".toList

example : (Call.genaSubscriptionRequest (· = ·) ample oneService subscribeRequest).run =
    some ([4, 3, 1], [4, 3, 1]) := by
  decide

end Upnp.Gena.Alloc
