import Upnp.Lib.Numeral
import Upnp.Uri.Parse

/-!
# Port numbers

`parse_port` adds up the digits behind the colon in 16 bits, whatever their number is.  So a
port above 65535 is not rejected: what is stored is its remainder.
-/

namespace Upnp.Uri

open Upnp.Lib

/-- `htons`: the bytes of `sin_port`, in network order. -/
def htons (port : Nat) : List Nat := [port / 256, port % 256]

/-- The number that bytes in network order stand for. -/
def ofNetworkOrder (bytes : List Nat) : Nat := bytes.foldl (fun n b ↦ n * 256 + b) 0

theorem ofNetworkOrder_htons (port : Nat) : ofNetworkOrder (htons port) = port := by
  change (0 * 256 + port / 256) * 256 + port % 256 = port
  rw [Nat.zero_mul, Nat.zero_add, Nat.mul_comm]
  exact Nat.div_add_mod port 256

/-- A text with an explicit port: the host, a colon, and digits that end where `rest` begins. -/
structure ExplicitPort where
  host : CString
  digits : CString
  rest : CString
  host_host : ∀ c ∈ host, isHost c
  digits_ne_nil : digits ≠ []
  digits_digits : IsDigits 10 digits
  rest_ends : ∀ c ∈ rest.head?, c.isDigit = false

namespace ExplicitPort

/-- The text that is parsed. -/
def text (t : ExplicitPort) : CString := t.host ++ ':' :: (t.digits ++ t.rest)

/-- The number that the digits denote. -/
def value (t : ExplicitPort) : Nat := numeral 10 t.digits

end ExplicitPort

/-! ## The scanners on the text -/

theorem isDigit_of_digitVal {c : Char} (h : (digitVal 10 c).isSome) :
    c.isDigit ∧ c.toNat - '0'.toNat = (digitVal 10 c).getD 0 := by
  unfold digitVal at h ⊢
  dsimp only at h ⊢
  split at h
  · rename_i hc
    have h₁ : 48 ≤ c.toNat := UInt32.le_iff_toNat_le.mp hc.1
    have h₂ : c.toNat ≤ 57 := UInt32.le_iff_toNat_le.mp hc.2
    have hsub : c.toNat - '0'.toNat < 10 := by
      change c.toNat - 48 < 10
      omega
    have hfilter : (some (c.toNat - '0'.toNat)).filter (fun v ↦ decide (v < 10)) =
        some (c.toNat - '0'.toNat) := by
      rw [Option.filter_some, if_pos (decide_eq_true hsub)]
    rw [if_pos hc, hfilter]
    refine ⟨?_, rfl⟩
    rw [Char.isDigit, Bool.and_eq_true, decide_eq_true_eq, decide_eq_true_eq]
    exact ⟨hc.1, hc.2⟩
  · exfalso
    obtain ⟨v, hv⟩ := Option.isSome_iff_exists.mp h
    obtain ⟨hsome, hlt⟩ := Option.filter_eq_some_iff.mp hv
    have hlt : v < 10 := of_decide_eq_true hlt
    split at hsome
    · cases hsome
      omega
    · split at hsome
      · cases hsome
        omega
      · cases hsome

/-- The digits are added up modulo 65536. -/
theorem portLoop_digits {digits rest : CString} (hdigits : IsDigits 10 digits)
    (hrest : ∀ c ∈ rest.head?, c.isDigit = false) (temp : Nat) :
    portLoop (digits ++ rest).length (temp % 65536) (digits ++ rest) =
      some (digits.length,
        digits.foldl (fun n c ↦ n * 10 + (digitVal 10 c).getD 0) temp % 65536) := by
  induction digits generalizing temp with
  | nil =>
    cases rest with
    | nil => rfl
    | cons c rest =>
      have hc : c.isDigit = false := hrest c rfl
      rw [List.nil_append, List.length_cons, portLoop, hc]
      rfl
  | cons d digits ih =>
    obtain ⟨hd, hval⟩ := isDigit_of_digitVal (hdigits d List.mem_cons_self)
    rw [List.cons_append, List.length_cons, portLoop, if_pos hd, hval]
    have hmod : (temp % 65536 * 10 + (digitVal 10 d).getD 0) % 65536 =
        (temp * 10 + (digitVal 10 d).getD 0) % 65536 := by omega
    rw [hmod, ih (fun c hc ↦ hdigits c (List.mem_cons_of_mem _ hc))]
    rfl

theorem hostLoop_host {host rest : CString} (hhost : ∀ c ∈ host, isHost c) :
    hostLoop (host ++ ':' :: rest).length (host ++ ':' :: rest) = some host.length := by
  induction host with
  | nil => rfl
  | cons c host ih =>
    rw [List.cons_append, List.length_cons, hostLoop, if_pos (hhost c List.mem_cons_self),
      ih fun d hd ↦ hhost d (List.mem_cons_of_mem _ hd)]
    rfl

/-- What `parse_hostport` makes of the text. -/
theorem parse_hostport_text (env : Env) (pos : Nat) (t : ExplicitPort) (more : CString) :
    parse_hostport env pos (t.text ++ more) t.text.length = some (
      if env.mallocOk then
        match env.gethostbyname t.host with
        | some sin_addr => .ok
          ⟨⟨some pos, t.digits.length + (t.host.length + 1)⟩, t.value % 65536, sin_addr⟩
        | none => .error UPNP_E_INVALID_URL
      else .error UPNP_E_OUTOF_MEMORY) := by
  apply parse_hostport_append
  have hhost : hostLoop t.text.length t.text = some t.host.length := hostLoop_host t.host_host
  have hcolon : charAt t.text t.host.length t.text.length ':' = some true := by
    rw [charAt, if_pos (by simp [ExplicitPort.text]), ExplicitPort.text, List.drop_left]
    rfl
  have hdrop : t.text.drop (t.host.length + 1) = t.digits ++ t.rest := by
    rw [ExplicitPort.text, ← List.drop_drop, List.drop_left]
    rfl
  have hlen : t.text.length - (t.host.length + 1) = (t.digits ++ t.rest).length := by
    rw [← hdrop, List.length_drop]
  have hport := portLoop_digits t.digits_digits t.rest_ends 0
  have hne : t.digits.length ≠ 0 := fun h ↦ t.digits_ne_nil (List.length_eq_zero_iff.mp h)
  have htake : t.text.take t.host.length = t.host := List.take_left
  simp only [parse_hostport, hhost, hostportPort, hcolon, hdrop, hlen, parse_port,
    Option.bind_eq_bind, Option.bind_some, if_true]
  rw [Nat.zero_mod] at hport
  rw [hport, Option.map_some, if_neg hne, Option.bind_some, htake]
  cases env.mallocOk with
  | false => rfl
  | true =>
    cases env.gethostbyname t.host with
    | none => rfl
    | some sin_addr => rfl

/-! ## What is stored -/

/-- If the text is accepted, its digits denote a port, and that port is stored in network order. -/
def PortStored (env : Env) (pos : Nat) (t : ExplicitPort) (more : CString) : Prop :=
  ∀ out, parse_hostport env pos (t.text ++ more) t.text.length = some (.ok out) →
    t.value ≤ 65535 ∧ ofNetworkOrder (htons out.sin_port) = t.value

/-- Only what is wrong with the host keeps a port that is too large from being accepted. -/
theorem portStored_iff (env : Env) (pos : Nat) (t : ExplicitPort) (more : CString) :
    PortStored env pos t more ↔
      t.value ≤ 65535 ∨ env.mallocOk = false ∨ env.gethostbyname t.host = none := by
  have hparse := parse_hostport_text env pos t more
  constructor
  · intro h
    by_contra hnot
    rw [not_or, not_or] at hnot
    obtain ⟨hvalue, hmalloc, hname⟩ := hnot
    obtain ⟨sin_addr, haddr⟩ := Option.ne_none_iff_exists'.mp hname
    rw [if_pos (by simpa using hmalloc), haddr] at hparse
    exact hvalue (h _ hparse).1
  · rintro h out hout
    rw [hparse] at hout
    have hout := Option.some.inj hout
    split at hout
    · rename_i hmalloc
      split at hout
      · rename_i sin_addr haddr
        cases hout
        rcases h with hvalue | hfalse | hnone
        · refine ⟨hvalue, ?_⟩
          rw [ofNetworkOrder_htons]
          exact Nat.mod_eq_of_lt (Nat.lt_succ_of_le hvalue)
        · rw [hfalse] at hmalloc
          cases hmalloc
        · rw [hnone] at haddr
          cases haddr
      · cases hout
    · cases hout

/-- `a:65616`. -/
def port65616 : ExplicitPort where
  host := ['a']
  digits := "65616".toList
  rest := []
  host_host := forall_mem_of_all (by decide)
  digits_ne_nil := List.cons_ne_nil _ _
  digits_digits := forall_mem_of_all (by decide)
  rest_ends := by rintro c ⟨⟩

/-- The port 65616 is taken for 80. -/
theorem port65616_accepted : ¬ PortStored ⟨true, fun _ ↦ some 0⟩ 0 port65616 [] := by
  intro h
  have hout := parse_hostport_text ⟨true, fun _ ↦ some 0⟩ 0 port65616 []
  have hvalue := (h _ hout).1
  revert hvalue
  decide

end Upnp.Uri
