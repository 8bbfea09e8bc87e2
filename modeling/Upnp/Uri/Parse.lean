import Upnp.Lib.CString
import Upnp.Lib.Scanner

/-!
# Parsing of URIs

`parse_uri` of `http_client.c` and the scanners under it.  Each of them gets the
memory from its first character on and the number of characters it may look at; it
gives `none` when it looks behind the end of the memory.  The answers of `malloc`
and of `gethostbyname` are parameters.
-/

namespace Upnp.Uri

open Upnp.Lib

def UPNP_E_INVALID_URL : Int := -108
def UPNP_E_OUTOF_MEMORY : Int := -104

/-! ## Characters -/

def MARK : CString := "-_.!~*'()".toList
def RESERVED : CString := ";/?:@&=+$,".toList

/-- `is_reserved`; `strchr` finds the NUL too. -/
def is_reserved (c : Char) : Bool := c = '\x00' || RESERVED.contains c

/-- `is_mark`; `strchr` finds the NUL too. -/
def is_mark (c : Char) : Bool := c = '\x00' || MARK.contains c

/-- `is_unreserved`. -/
def is_unreserved (c : Char) : Bool := c.isAlphanum || is_mark c

/-- `isxdigit`. -/
def isxdigit (c : Char) : Bool :=
  c.isDigit || ('a' ≤ c && c ≤ 'f') || ('A' ≤ c && c ≤ 'F')

/-- A character that `parse_scheme` takes behind the first. -/
def isScheme (c : Char) : Bool := c.isAlphanum || c = '+' || c = '-' || c = '.'

/-- A character that `parse_hostport` takes for the host. -/
def isHost (c : Char) : Bool := c.isAlphanum || c = '.' || c = '-'

/-! ## The scanners -/

/-- `is_escaped`; `none` is a look behind the end. -/
def is_escaped : CString → Option Bool
  | [] => none
  | c :: rest =>
    if c = '%' then
      match rest with
      | [] => none
      | c₁ :: rest =>
        if isxdigit c₁ then
          match rest with
          | [] => none
          | c₂ :: _ => some (isxdigit c₂)
        else some false
    else some false

/-- The condition of `parse_uric`, with the character `c` and what is behind it. -/
def isUric (max : Nat) (c : Char) (rest : CString) : Option Bool :=
  if is_unreserved c || is_reserved c then some true
  else if 2 < max then is_escaped (c :: rest) else some false

/-- `parse_uric`: the number of characters taken. -/
def parse_uric : Nat → CString → Option Nat
  | 0, _ => some 0
  | _ + 1, [] => none
  | max + 1, c :: rest =>
    match isUric (max + 1) c rest with
    | none => none
    | some true => (parse_uric max rest).map (· + 1)
    | some false => some 0

/-- The loop of `parse_port`, with `temp` of 16 bits. -/
def portLoop : Nat → Nat → CString → Option (Nat × Nat)
  | 0, temp, _ => some (0, temp)
  | _ + 1, _, [] => none
  | max + 1, temp, c :: rest =>
    if c.isDigit then
      (portLoop max ((temp * 10 + (c.toNat - '0'.toNat)) % 65536) rest).map fun r ↦ (r.1 + 1, r.2)
    else some (0, temp)

/-- `parse_port`: the number of characters taken, and the port. -/
def parse_port (max : Nat) (port : CString) : Option (Nat × Nat) := portLoop max 0 port

/-- The loop of `parse_hostport` over the host. -/
def hostLoop : Nat → CString → Option Nat
  | 0, _ => some 0
  | _ + 1, [] => none
  | max + 1, c :: rest => if isHost c then (hostLoop max rest).map (· + 1) else some 0

/-- The loop of `parse_scheme` behind the first character: where the colon is. -/
def schemeLoop : Nat → CString → Option (Option Nat)
  | 0, _ => some none
  | _ + 1, [] => none
  | max + 1, c :: rest =>
    if c = ':' then some (some 0)
    else if isScheme c then (schemeLoop max rest).map (·.map (· + 1)) else some none

/-- `parse_scheme`: the size of the scheme, or `0`. -/
def parse_scheme : CString → Nat → Option Nat
  | _, 0 => some 0
  | [], _ + 1 => none
  | c :: rest, max + 1 =>
    if c.isAlpha then (schemeLoop max rest).map fun colon ↦ (colon.map (· + 1)).getD 0 else some 0

/-! ## URIs -/

/-- `token`: a pointer into the memory, as an offset, and a size. -/
structure Token where
  buff : Option Nat
  size : Nat
deriving DecidableEq, Repr

inductive UriType where
  | ABSOLUTE
  | RELATIVE
deriving DecidableEq, Repr

inductive PathType where
  | ABS_PATH
  | REL_PATH
  | OPAQUE_PART
deriving DecidableEq, Repr

/-- `hostport_type`, with the port and the address before they are put in network order. -/
structure HostPort where
  text : Token
  sin_port : Nat
  sin_addr : Nat
deriving DecidableEq, Repr

/-- `uri_type`. -/
structure URI where
  type : UriType
  scheme : Token
  path_type : PathType
  pathquery : Token
  fragment : Token
  hostport : HostPort
deriving DecidableEq, Repr

/-- What the system answers: `malloc`, and `gethostbyname` with the address that is found. -/
structure Env where
  mallocOk : Bool
  gethostbyname : CString → Option Nat

/-- Whether the character `c` stands behind the first `n`, of which there may be `max`. -/
def charAt (input : CString) (n max : Nat) (c : Char) : Option Bool :=
  if n < max then (input.drop n).head?.map (decide <| · = c) else some false

/-- The port of `parse_hostport` behind the host: how far it goes, and the port. -/
def hostportPort (input : CString) (max host_size : Nat) : Option (Option (Nat × Nat)) := do
  let colon ← charAt input host_size max ':'
  if colon then
    (parse_port (max - (host_size + 1)) (input.drop (host_size + 1))).map fun r ↦
      if r.1 = 0 then none else some (r.1 + (host_size + 1), r.2)
  else some (some (host_size, 80))

/-- `parse_hostport`, at the offset `pos`. -/
def parse_hostport (env : Env) (pos : Nat) (input : CString) (max : Nat) :
    Option (Except Int HostPort) := do
  let host_size ← hostLoop max input
  let port ← hostportPort input max host_size
  match port with
  | none => some (.error UPNP_E_INVALID_URL)
  | some (hostport_size, sin_port) =>
    if env.mallocOk then
      match env.gethostbyname (input.take host_size) with
      | some sin_addr => some (.ok ⟨⟨some pos, hostport_size⟩, sin_port, sin_addr⟩)
      | none => some (.error UPNP_E_INVALID_URL)
    else some (.error UPNP_E_OUTOF_MEMORY)

/-- Whether two slashes come next. -/
def slashes (input : CString) (max : Nat) : Option Bool :=
  if 1 < max then
    match input with
    | [] => none
    | c :: rest =>
      if c = '/' then
        match rest with
        | [] => none
        | c₁ :: _ => some (c₁ = '/')
      else some false
  else some false

/-- The host and port of `parse_uri`, which may be missing. -/
def hostport (env : Env) (pos : Nat) (input : CString) (max : Nat) :
    Option (Except Int HostPort) := do
  let found ← slashes input max
  if found then parse_hostport env (pos + 2) (input.drop 2) (max - 2)
  else some (.ok ⟨⟨none, 0⟩, 0, 0⟩)

/-- The part of `parse_uri` behind the host and port. -/
def pathAndFragment (pos : Nat) (input : CString) (max : Nat) :
    Option (Token × Token) := do
  let n ← parse_uric max input
  let hash ← charAt input n max '#'
  if hash then
    let m ← parse_uric (max - (n + 1)) (input.drop (n + 1))
    some (⟨some pos, n⟩, ⟨some (pos + n + 1), m⟩)
  else some (⟨some pos, n⟩, ⟨none, 0⟩)

/-- The characters of `parse_uri`'s host part, with the slashes. -/
def HostPort.extent (h : HostPort) : Nat := if h.text.buff = none then 0 else 2 + h.text.size

/-- `parse_uri`, at the offset `pos` of the memory. -/
def parse_uri (env : Env) (memory : CString) (pos max : Nat) : Option (Except Int URI) := do
  let input := memory.drop pos
  let size ← parse_scheme input max
  let begin_hostport := if size = 0 then 0 else size + 1
  let host ← hostport env (pos + begin_hostport) (input.drop begin_hostport) (max - begin_hostport)
  match host with
  | .error code => some (.error code)
  | .ok host =>
    let begin_path := begin_hostport + host.extent
    let (pathquery, fragment) ←
      pathAndFragment (pos + begin_path) (input.drop begin_path) (max - begin_path)
    some (.ok
      { type := if size = 0 then .RELATIVE else .ABSOLUTE
        scheme := if size = 0 then ⟨none, 0⟩ else ⟨some pos, size⟩
        path_type :=
          if 0 < pathquery.size ∧ (input.drop begin_path).head? = some '/' then .ABS_PATH
          else if size = 0 then .REL_PATH else .OPAQUE_PART
        pathquery := pathquery
        fragment := fragment
        hostport := host })

variable {max n : Nat} {input more : CString}

/-! ## The loops are scanners -/

def uricScanner : Scanner Char Unit Nat where
  finish _ := 0
  shift := (· + 1)
  step max _ c rest := (isUric max c rest).map fun uric ↦ if uric then .inr () else .inl 0

def portScanner : Scanner Char Nat (Nat × Nat) where
  finish temp := (0, temp)
  shift r := (r.1 + 1, r.2)
  step _ temp c _ :=
    some (if c.isDigit then .inr ((temp * 10 + (c.toNat - '0'.toNat)) % 65536) else .inl (0, temp))

def hostScanner : Scanner Char Unit Nat where
  finish _ := 0
  shift := (· + 1)
  step _ _ c _ := some (if isHost c then .inr () else .inl 0)

def schemeScanner : Scanner Char Unit (Option Nat) where
  finish _ := none
  shift := Option.map (· + 1)
  step _ _ c _ :=
    some (if c = ':' then .inl (some 0) else if isScheme c then .inr () else .inl none)

theorem parse_uric_eq_run : parse_uric max input = uricScanner.run max () input := by
  induction max generalizing input with
  | zero => rfl
  | succ max ih =>
    cases input with
    | nil => rfl
    | cons c rest =>
      rw [parse_uric]
      cases huric : isUric (max + 1) c rest with
      | none => exact (Scanner.run_cons_none (congrArg (Option.map _) huric)).symm
      | some uric =>
        cases uric with
        | false => exact (Scanner.run_cons_stop (congrArg (Option.map _) huric)).symm
        | true =>
          dsimp only
          rw [ih]
          exact (Scanner.run_cons_next (congrArg (Option.map _) huric)).symm

theorem portLoop_eq_run {temp : Nat} :
    portLoop max temp input = portScanner.run max temp input := by
  induction max generalizing input temp with
  | zero => rfl
  | succ max ih =>
    cases input with
    | nil => rfl
    | cons c rest =>
      rw [portLoop]
      split
      · rename_i hc
        rw [ih]
        exact (Scanner.run_cons_next (congrArg some (if_pos hc))).symm
      · rename_i hc
        exact (Scanner.run_cons_stop (congrArg some (if_neg hc))).symm

theorem hostLoop_eq_run : hostLoop max input = hostScanner.run max () input := by
  induction max generalizing input with
  | zero => rfl
  | succ max ih =>
    cases input with
    | nil => rfl
    | cons c rest =>
      rw [hostLoop]
      split
      · rename_i hc
        rw [ih]
        exact (Scanner.run_cons_next (congrArg some (if_pos hc))).symm
      · rename_i hc
        exact (Scanner.run_cons_stop (congrArg some (if_neg hc))).symm

theorem schemeLoop_eq_run : schemeLoop max input = schemeScanner.run max () input := by
  induction max generalizing input with
  | zero => rfl
  | succ max ih =>
    cases input with
    | nil => rfl
    | cons c rest =>
      rw [schemeLoop]
      split
      · rename_i hcolon
        exact (Scanner.run_cons_stop (congrArg some (if_pos hcolon))).symm
      · rename_i hcolon
        split
        · rename_i hc
          rw [ih]
          exact (Scanner.run_cons_next (congrArg some ((if_neg hcolon).trans (if_pos hc)))).symm
        · rename_i hc
          exact (Scanner.run_cons_stop (congrArg some ((if_neg hcolon).trans (if_neg hc)))).symm

/-! ## How far the scanners look -/

theorem parse_uric_le (h : parse_uric max input = some n) : n ≤ max ∧ n ≤ input.length := by
  rw [parse_uric_eq_run] at h
  refine Scanner.run_le id (fun _ ↦ rfl) (fun _ ↦ rfl) (fun max _ c rest r hstop ↦ ?_) h
  obtain ⟨uric, -, heq⟩ := Option.map_eq_some_iff.mp hstop
  split at heq
  · cases heq
  · cases heq
    rfl

theorem hostLoop_le (h : hostLoop max input = some n) : n ≤ max ∧ n ≤ input.length := by
  rw [hostLoop_eq_run] at h
  refine Scanner.run_le id (fun _ ↦ rfl) (fun _ ↦ rfl) (fun _ _ c _ r hstop ↦ ?_) h
  have heq := Option.some_inj.mp hstop
  split at heq
  · cases heq
  · cases heq
    rfl

theorem portLoop_le {temp : Nat} {r : Nat × Nat} (h : portLoop max temp input = some r) :
    r.1 ≤ max ∧ r.1 ≤ input.length := by
  rw [portLoop_eq_run] at h
  refine Scanner.run_le Prod.fst (fun _ ↦ rfl) (fun _ ↦ rfl) (fun _ _ c _ r hstop ↦ ?_) h
  have heq := Option.some_inj.mp hstop
  split at heq
  · cases heq
  · cases heq
    rfl

theorem schemeLoop_le {colon : Option Nat} (h : schemeLoop max input = some colon) :
    ∀ n ∈ colon, n < max ∧ input[n]? = some ':' ∧ ∀ c ∈ input.take n, isScheme c := by
  induction max generalizing input colon with
  | zero =>
    cases h
    rintro n ⟨⟩
  | succ max ih =>
    cases input with
    | nil => cases h
    | cons c rest =>
      rw [schemeLoop] at h
      split at h
      · rename_i hc
        cases h
        rintro n ⟨⟩
        exact ⟨Nat.succ_pos _, congrArg some hc, nofun⟩
      · split at h
        · rename_i hc
          obtain ⟨m, hm, rfl⟩ := Option.map_eq_some_iff.mp h
          intro n hn
          obtain ⟨k, hk, rfl⟩ := Option.map_eq_some_iff.mp hn
          obtain ⟨hlt, hcolon, hall⟩ := ih hm k hk
          exact ⟨Nat.succ_lt_succ hlt, hcolon, List.forall_mem_cons.mpr ⟨hc, hall⟩⟩
        · cases h
          rintro n ⟨⟩

/-! ## Looking behind the end -/

theorem is_escaped_isSome (h : 2 < input.length) : (is_escaped input).isSome := by
  match input, h with
  | c :: c₁ :: c₂ :: rest, _ =>
    rw [is_escaped]
    split
    · split <;> rfl
    · rfl

theorem isUric_isSome {c : Char} (h : max ≤ (c :: input).length) : (isUric max c input).isSome := by
  rw [isUric]
  split
  · rfl
  · split
    · rename_i hmax
      exact is_escaped_isSome (hmax.trans_le h)
    · rfl

/-- With as many characters as it may look at, no scanner looks behind the end. -/
theorem parse_uric_isSome (h : max ≤ input.length) : (parse_uric max input).isSome := by
  rw [parse_uric_eq_run]
  refine Scanner.run_isSome (fun max _ c rest hmax ↦ ?_) h
  exact Option.isSome_map.trans (isUric_isSome hmax)

theorem portLoop_isSome {temp : Nat} (h : max ≤ input.length) :
    (portLoop max temp input).isSome := by
  rw [portLoop_eq_run]
  exact Scanner.run_isSome (fun _ _ _ _ _ ↦ rfl) h

theorem hostLoop_isSome (h : max ≤ input.length) : (hostLoop max input).isSome := by
  rw [hostLoop_eq_run]
  exact Scanner.run_isSome (fun _ _ _ _ _ ↦ rfl) h

theorem schemeLoop_isSome (h : max ≤ input.length) : (schemeLoop max input).isSome := by
  rw [schemeLoop_eq_run]
  exact Scanner.run_isSome (fun _ _ _ _ _ ↦ rfl) h

theorem parse_scheme_isSome (h : max ≤ input.length) : (parse_scheme input max).isSome := by
  cases max with
  | zero =>
    cases input <;> rfl
  | succ max =>
    cases input with
    | nil => cases h
    | cons c rest =>
      rw [parse_scheme]
      split
      · rw [Option.isSome_map]
        exact schemeLoop_isSome (Nat.le_of_succ_le_succ h)
      · rfl

theorem charAt_isSome {c : Char} (h : max ≤ input.length) : (charAt input n max c).isSome := by
  rw [charAt]
  split
  · rename_i hlt
    rw [Option.isSome_map, List.head?_drop]
    exact Option.isSome_iff_exists.mpr ⟨_, List.getElem?_eq_getElem (hlt.trans_le h)⟩
  · rfl

theorem slashes_isSome (h : max ≤ input.length) : (slashes input max).isSome := by
  rw [slashes.eq_def]
  split
  · rename_i hmax
    match input, hmax.trans_le h with
    | c :: c₁ :: rest, _ =>
      dsimp only
      split <;> rfl
  · rfl

theorem length_drop_le (h : max ≤ input.length) : max - n ≤ (input.drop n).length := by
  rw [List.length_drop]
  exact Nat.sub_le_sub_right h n

variable {env : Env} {pos : Nat}

theorem parse_hostport_isSome (h : max ≤ input.length) :
    (parse_hostport env pos input max).isSome := by
  obtain ⟨host_size, hhost⟩ := Option.isSome_iff_exists.mp (hostLoop_isSome h)
  obtain ⟨colon, hcolon⟩ := Option.isSome_iff_exists.mp
    (@charAt_isSome max host_size input ':' h)
  obtain ⟨r, hr⟩ := Option.isSome_iff_exists.mp
    (@portLoop_isSome (max - (host_size + 1)) (input.drop (host_size + 1)) 0 (length_drop_le h))
  simp only [parse_hostport, hostportPort, hhost, hcolon, Option.bind_eq_bind, Option.bind_some,
    parse_port, hr]
  cases colon with
  | false =>
    simp only [Bool.false_eq_true, if_false, Option.bind_some]
    split
    · split <;> rfl
    · rfl
  | true =>
    simp only [if_true, Option.map_some, Option.bind_some]
    by_cases hzero : r.1 = 0
    · rw [if_pos hzero]
      rfl
    · rw [if_neg hzero]
      dsimp only
      split
      · split <;> rfl
      · rfl

theorem hostport_isSome (h : max ≤ input.length) : (hostport env pos input max).isSome := by
  obtain ⟨found, hfound⟩ := Option.isSome_iff_exists.mp (slashes_isSome h)
  rw [hostport, hfound, Option.bind_eq_bind, Option.bind_some]
  split
  · exact parse_hostport_isSome (length_drop_le h)
  · rfl

theorem pathAndFragment_isSome (h : max ≤ input.length) :
    (pathAndFragment pos input max).isSome := by
  obtain ⟨n, hn⟩ := Option.isSome_iff_exists.mp (parse_uric_isSome h)
  obtain ⟨hash, hhash⟩ := Option.isSome_iff_exists.mp (@charAt_isSome max n input '#' h)
  obtain ⟨m, hm⟩ := Option.isSome_iff_exists.mp
    (@parse_uric_isSome (max - (n + 1)) (input.drop (n + 1)) (length_drop_le h))
  simp only [pathAndFragment, hn, hhash, hm, Option.bind_eq_bind, Option.bind_some]
  split <;> rfl

theorem parse_uri_isSome {memory : CString} (h : max ≤ (memory.drop pos).length) :
    (parse_uri env memory pos max).isSome := by
  obtain ⟨size, hsize⟩ := Option.isSome_iff_exists.mp (parse_scheme_isSome h)
  simp only [parse_uri, hsize, Option.bind_eq_bind, Option.bind_some]
  obtain ⟨host, hhost⟩ := Option.isSome_iff_exists.mp
    (@hostport_isSome (max - if size = 0 then 0 else size + 1)
      ((memory.drop pos).drop (if size = 0 then 0 else size + 1)) env
      (pos + if size = 0 then 0 else size + 1) (length_drop_le h))
  rw [hhost, Option.bind_some]
  cases host with
  | error code => rfl
  | ok host =>
    obtain ⟨r, hr⟩ := Option.isSome_iff_exists.mp
      (@pathAndFragment_isSome (max - ((if size = 0 then 0 else size + 1) + host.extent))
        ((memory.drop pos).drop ((if size = 0 then 0 else size + 1) + host.extent))
        (pos + ((if size = 0 then 0 else size + 1) + host.extent)) (length_drop_le h))
    dsimp only
    rw [hr]
    rfl

/-! ## Memory behind what is looked at -/

theorem is_escaped_append {b : Bool} (h : is_escaped input = some b) :
    is_escaped (input ++ more) = some b := by
  match input, h with
  | [], h => cases h
  | [c], h =>
    rw [is_escaped] at h
    split at h
    · cases h
    · rename_i hc
      rw [List.singleton_append, is_escaped.eq_def]
      dsimp only
      rw [if_neg hc, h]
  | [c, c₁], h =>
    simp only [is_escaped] at h
    split at h
    · rename_i hc
      split at h
      · cases h
      · rename_i hc₁
        simp only [List.cons_append, is_escaped, if_pos hc, if_neg hc₁]
        exact h
    · rename_i hc
      simp only [List.cons_append, is_escaped, if_neg hc]
      exact h
  | c :: c₁ :: c₂ :: rest, h => exact h

theorem isUric_append {c : Char} {b : Bool} (h : isUric max c input = some b) :
    isUric max c (input ++ more) = some b := by
  rw [isUric] at h ⊢
  split
  · rename_i hc
    rwa [if_pos hc] at h
  · rename_i hc
    rw [if_neg hc] at h
    split
    · rename_i hmax
      rw [if_pos hmax] at h
      exact is_escaped_append h
    · rename_i hmax
      rwa [if_neg hmax] at h

/-- More memory changes nothing where no scanner looks behind the end. -/
theorem parse_uric_append (h : parse_uric max input = some n) :
    parse_uric max (input ++ more) = some n := by
  rw [parse_uric_eq_run] at h ⊢
  refine Scanner.run_append (fun max _ c rest next hstep ↦ ?_) h
  obtain ⟨uric, huric, heq⟩ := Option.map_eq_some_iff.mp hstep
  exact Option.map_eq_some_iff.mpr ⟨uric, isUric_append huric, heq⟩

theorem portLoop_append {temp : Nat} {r : Nat × Nat} (h : portLoop max temp input = some r) :
    portLoop max temp (input ++ more) = some r := by
  rw [portLoop_eq_run] at h ⊢
  exact Scanner.run_append (fun _ _ _ _ _ hstep ↦ hstep) h

theorem hostLoop_append (h : hostLoop max input = some n) :
    hostLoop max (input ++ more) = some n := by
  rw [hostLoop_eq_run] at h ⊢
  exact Scanner.run_append (fun _ _ _ _ _ hstep ↦ hstep) h

theorem schemeLoop_append {colon : Option Nat} (h : schemeLoop max input = some colon) :
    schemeLoop max (input ++ more) = some colon := by
  rw [schemeLoop_eq_run] at h ⊢
  exact Scanner.run_append (fun _ _ _ _ _ hstep ↦ hstep) h

theorem parse_scheme_append (h : parse_scheme input max = some n) :
    parse_scheme (input ++ more) max = some n := by
  cases max with
  | zero =>
    cases input <;> cases more <;> exact h
  | succ max =>
    cases input with
    | nil => cases h
    | cons c rest =>
      rw [List.cons_append, parse_scheme]
      rw [parse_scheme] at h
      split
      · rename_i hc
        rw [if_pos hc] at h
        obtain ⟨m, hm, rfl⟩ := Option.map_eq_some_iff.mp h
        exact Option.map_eq_some_iff.mpr ⟨m, schemeLoop_append hm, rfl⟩
      · rename_i hc
        rwa [if_neg hc] at h

theorem charAt_append {c : Char} {b : Bool} (h : charAt input n max c = some b) :
    charAt (input ++ more) n max c = some b := by
  rw [charAt] at h ⊢
  split
  · rename_i hlt
    rw [if_pos hlt, List.head?_drop] at h
    obtain ⟨d, hd, hb⟩ := Option.map_eq_some_iff.mp h
    rw [List.head?_drop, List.getElem?_append_left (List.getElem?_eq_some_iff.mp hd).1, hd]
    exact congrArg some hb
  · rename_i hlt
    rwa [if_neg hlt] at h

theorem slashes_append {b : Bool} (h : slashes input max = some b) :
    slashes (input ++ more) max = some b := by
  rw [slashes.eq_def] at h ⊢
  split
  · rename_i hmax
    rw [if_pos hmax] at h
    match input, h with
    | [], h => cases h
    | [c], h =>
      dsimp only at h
      split at h
      · cases h
      · rename_i hc
        rw [List.singleton_append]
        dsimp only
        rw [if_neg hc, h]
    | c :: c₁ :: rest, h => exact h
  · rename_i hmax
    rwa [if_neg hmax] at h

theorem drop_append_of_le (h : n ≤ input.length) :
    (input ++ more).drop n = input.drop n ++ more :=
  List.drop_append_of_le_length h

theorem charAt_true {c : Char} (h : charAt input n max c = some true) :
    n < max ∧ input[n]? = some c := by
  rw [charAt] at h
  split at h
  · rename_i hlt
    obtain ⟨d, hd, hb⟩ := Option.map_eq_some_iff.mp h
    rw [List.head?_drop] at hd
    exact ⟨hlt, hd.trans (congrArg some (of_decide_eq_true hb))⟩
  · cases h

theorem slashes_true (h : slashes input max = some true) :
    1 < max ∧ ∃ rest, input = '/' :: '/' :: rest := by
  rw [slashes.eq_def] at h
  split at h
  · rename_i hmax
    refine ⟨hmax, ?_⟩
    match input, h with
    | [], h => cases h
    | [c], h =>
      dsimp only at h
      split at h
      · cases h
      · cases h
    | c :: c₁ :: rest, h =>
      dsimp only at h
      split at h
      · rename_i hc
        have hc₁ : c₁ = '/' := of_decide_eq_true (Option.some.inj h)
        exact ⟨rest, by rw [hc, hc₁]⟩
      · cases h
  · cases h

/-- The host and port is not longer than what there is. -/
theorem hostportPort_le {host_size sin_port : Nat} (hhost : host_size ≤ max)
    (hlen : host_size ≤ input.length)
    (h : hostportPort input max host_size = some (some (n, sin_port))) :
    n ≤ max ∧ n ≤ input.length := by
  obtain ⟨colon, hcolon, h⟩ := Option.bind_eq_some_iff.mp h
  cases colon with
  | false =>
    cases h
    exact ⟨hhost, hlen⟩
  | true =>
    obtain ⟨hlt, hget⟩ := charAt_true hcolon
    have hlt' : host_size < input.length := (List.getElem?_eq_some_iff.mp hget).1
    rw [if_pos rfl] at h
    obtain ⟨r, hr, h⟩ := Option.map_eq_some_iff.mp h
    obtain ⟨hmax, hle⟩ := portLoop_le hr
    rw [List.length_drop] at hle
    split at h
    · cases h
    · cases h
      omega

theorem parse_hostport_ok {host : HostPort} (h : parse_hostport env pos input max = some (.ok host)) :
    host.text.buff = some pos ∧ host.text.size ≤ max ∧ host.text.size ≤ input.length := by
  obtain ⟨host_size, hhost, h⟩ := Option.bind_eq_some_iff.mp h
  obtain ⟨port, hport, h⟩ := Option.bind_eq_some_iff.mp h
  obtain ⟨hmax, hlen⟩ := hostLoop_le hhost
  cases port with
  | none => cases h
  | some port =>
    dsimp only at h
    split at h
    · split at h
      · cases h
        exact ⟨rfl, hostportPort_le hmax hlen hport⟩
      · cases h
    · cases h

theorem hostportPort_append {host_size : Nat} {r : Option (Nat × Nat)}
    (h : hostportPort input max host_size = some r) :
    hostportPort (input ++ more) max host_size = some r := by
  obtain ⟨colon, hcolon, h⟩ := Option.bind_eq_some_iff.mp h
  refine Option.bind_eq_some_iff.mpr ⟨colon, charAt_append hcolon, ?_⟩
  cases colon with
  | false => exact h
  | true =>
    have hlt := (List.getElem?_eq_some_iff.mp (charAt_true hcolon).2).1
    rw [if_pos rfl] at h ⊢
    obtain ⟨m, hm, hr⟩ := Option.map_eq_some_iff.mp h
    rw [drop_append_of_le hlt]
    exact Option.map_eq_some_iff.mpr ⟨m, portLoop_append hm, hr⟩

theorem parse_hostport_append {r : Except Int HostPort}
    (h : parse_hostport env pos input max = some r) :
    parse_hostport env pos (input ++ more) max = some r := by
  obtain ⟨host_size, hhost, h⟩ := Option.bind_eq_some_iff.mp h
  obtain ⟨port, hport, h⟩ := Option.bind_eq_some_iff.mp h
  refine Option.bind_eq_some_iff.mpr ⟨host_size, hostLoop_append hhost,
    Option.bind_eq_some_iff.mpr ⟨port, hostportPort_append hport, ?_⟩⟩
  rw [List.take_append_of_le_length (hostLoop_le hhost).2]
  exact h

theorem hostport_append {r : Except Int HostPort} (h : hostport env pos input max = some r) :
    hostport env pos (input ++ more) max = some r := by
  obtain ⟨found, hfound, h⟩ := Option.bind_eq_some_iff.mp h
  refine Option.bind_eq_some_iff.mpr ⟨found, slashes_append hfound, ?_⟩
  cases found with
  | false => exact h
  | true =>
    obtain ⟨-, rest, rfl⟩ := slashes_true hfound
    exact parse_hostport_append h

/-- The part with the host and port, if there is one. -/
theorem hostport_ok {host : HostPort} (h : hostport env pos input max = some (.ok host)) :
    host.extent ≤ max ∧ host.extent ≤ input.length ∧
      (host.text = ⟨none, 0⟩ ∨
        host.text.buff = some (pos + 2) ∧ ['/', '/'] <+: input) := by
  obtain ⟨found, hfound, h⟩ := Option.bind_eq_some_iff.mp h
  cases found with
  | false =>
    cases h
    exact ⟨Nat.zero_le _, Nat.zero_le _, .inl rfl⟩
  | true =>
    obtain ⟨hmax, rest, rfl⟩ := slashes_true hfound
    obtain ⟨hbuff, hsize, hlen⟩ := parse_hostport_ok h
    have hextent : host.extent = 2 + host.text.size := by
      rw [HostPort.extent, hbuff, if_neg (Option.some_ne_none _)]
    simp only [List.drop_succ_cons, List.drop_zero] at hlen
    rw [hextent]
    refine ⟨by omega, ?_, .inr ⟨hbuff, rest, rfl⟩⟩
    simp only [List.length_cons]
    omega

theorem pathAndFragment_append {r : Token × Token}
    (h : pathAndFragment pos input max = some r) :
    pathAndFragment pos (input ++ more) max = some r := by
  obtain ⟨n, hn, h⟩ := Option.bind_eq_some_iff.mp h
  obtain ⟨hash, hhash, h⟩ := Option.bind_eq_some_iff.mp h
  refine Option.bind_eq_some_iff.mpr ⟨n, parse_uric_append hn,
    Option.bind_eq_some_iff.mpr ⟨hash, charAt_append hhash, ?_⟩⟩
  cases hash with
  | false => exact h
  | true =>
    have hlt := (List.getElem?_eq_some_iff.mp (charAt_true hhash).2).1
    rw [if_pos rfl] at h ⊢
    obtain ⟨m, hm, hr⟩ := Option.bind_eq_some_iff.mp h
    rw [drop_append_of_le hlt]
    exact Option.bind_eq_some_iff.mpr ⟨m, parse_uric_append hm, hr⟩

/-- The path, the query and the fragment. -/
theorem pathAndFragment_eq {pathquery fragment : Token}
    (h : pathAndFragment pos input max = some (pathquery, fragment)) :
    pathquery.buff = some pos ∧ pathquery.size ≤ max ∧ pathquery.size ≤ input.length ∧
      (fragment = ⟨none, 0⟩ ∨
        fragment.buff = some (pos + pathquery.size + 1) ∧ input[pathquery.size]? = some '#' ∧
          pathquery.size + 1 + fragment.size ≤ max ∧
          pathquery.size + 1 + fragment.size ≤ input.length) := by
  obtain ⟨n, hn, h⟩ := Option.bind_eq_some_iff.mp h
  obtain ⟨hash, hhash, h⟩ := Option.bind_eq_some_iff.mp h
  obtain ⟨hmax, hlen⟩ := parse_uric_le hn
  cases hash with
  | false =>
    cases h
    exact ⟨rfl, hmax, hlen, .inl rfl⟩
  | true =>
    obtain ⟨hlt, hget⟩ := charAt_true hhash
    have hlt' : n < input.length := (List.getElem?_eq_some_iff.mp hget).1
    rw [if_pos rfl] at h
    obtain ⟨m, hm, h⟩ := Option.bind_eq_some_iff.mp h
    obtain ⟨hmax', hlen'⟩ := parse_uric_le hm
    rw [List.length_drop] at hlen'
    cases h
    exact ⟨rfl, hmax, hlen, .inr ⟨rfl, hget, by dsimp only; omega, by dsimp only; omega⟩⟩

end Upnp.Uri
