import Upnp.Web.Tokenizer

/-!
# Parsers of header values

What the functions of `parseutil.cpp` see of a scanner: the tokens that were returned, those that
were pushed back, and those of the text behind.  `Reads` says which scanner a `Tokenizer` is.  A
parser that throws leaves the scanner where it stands.
-/

namespace Upnp.Web

open Upnp.Lib
open TokenType

def PARSERR_BAD_LISTCOUNT : Int := -5
def PARSERR_BAD_COMMALIST : Int := -6

/-- An exception, as far as a handler tells it apart. -/
inductive ParseException where
  | HttpParseException (errorCode : Int)
  | ofScanner (e : Exception)
deriving DecidableEq, Repr

/-- `HttpParseException( s, lineNumber )`, which leaves the error code as `BasicException` sets it. -/
def parseFailure : ParseException := .HttpParseException (-1)

/-- A scanner.  Behind the text there is either the end of the stream, again and again, or an
exception. -/
structure Scanner where
  returned : List Token
  pending : List Token
  source : List Token
  failure : Option Exception
deriving DecidableEq, Repr

/-- The tokens to come. -/
def Scanner.unread (s : Scanner) : List Token := s.pending ++ s.source

/-- A function that reads from a scanner. -/
def Parse (α : Type) := Scanner → Except ParseException α × Scanner

namespace Parse

variable {α β : Type}

protected def pure (a : α) : Parse α := fun s ↦ (.ok a, s)

protected def bind (p : Parse α) (f : α → Parse β) : Parse β := fun s ↦
  match p s with
  | (.error e, s) => (.error e, s)
  | (.ok a, s) => f a s

instance : Monad Parse where
  pure := Parse.pure
  bind := Parse.bind

def throw (e : ParseException) : Parse α := fun s ↦ (.error e, s)

theorem bind_ok {p : Parse α} {f : α → Parse β} {s s' : Scanner} {a : α} (h : p s = (.ok a, s')) :
    (p >>= f) s = f a s' := by
  show Parse.bind p f s = _
  rw [Parse.bind, h]

theorem bind_error {p : Parse α} {f : α → Parse β} {s s' : Scanner} {e : ParseException}
    (h : p s = (.error e, s')) : (p >>= f) s = (.error e, s') := by
  show Parse.bind p f s = _
  rw [Parse.bind, h]

end Parse

open Parse (throw bind_ok)

section

variable {α β : Type} {p : Parse α} {f : α → Parse β} {s s' : Scanner} {b : β}

/-- A parser that returns has returned from its first part. -/
theorem bind_eq_ok :
    (p >>= f) s = (.ok b, s') ↔ ∃ a s₁, p s = (.ok a, s₁) ∧ f a s₁ = (.ok b, s') := by
  change Parse.bind p f s = _ ↔ _
  rw [Parse.bind]
  constructor
  · intro h
    split at h
    · cases h
    · next a s₁ hp => exact ⟨a, s₁, hp, h⟩
  · rintro ⟨a, s₁, hp, h⟩
    rw [hp]
    exact h

theorem bind_fst_eq_ok (h : ((p >>= f) s).1 = .ok b) :
    ∃ a s₁, p s = (.ok a, s₁) ∧ (f a s₁).1 = .ok b := by
  have hrun : (p >>= f) s = (.ok b, ((p >>= f) s).2) := Prod.ext h rfl
  obtain ⟨a, s₁, hp, hf⟩ := bind_eq_ok.mp hrun
  exact ⟨a, s₁, hp, congrArg Prod.fst hf⟩

end

/-! ## The scanner's operations -/

/-- `getToken`. -/
def getToken : Parse Token := fun s ↦
  match s.pending with
  | t :: pending => (.ok t, { s with returned := t :: s.returned, pending })
  | [] =>
    match s.source, s.failure with
    | t :: source, _ =>
      (.ok t, { s with returned := (t :: s.returned).take Tokenizer.MAX_PUSHBACKS, source })
    | [], some e => (.error (.ofScanner e), s)
    | [], none =>
      (.ok ⟨END_OF_STREAM, []⟩,
        { s with returned := (⟨END_OF_STREAM, []⟩ :: s.returned).take Tokenizer.MAX_PUSHBACKS })

/-- `pushBack`. -/
def pushBack : Parse Unit := fun s ↦
  match s.returned with
  | [] => (.error (.ofScanner .TokenizerException), s)
  | t :: returned => (.ok (), { s with returned, pending := t :: s.pending })

/-- `SkipLWS`. -/
def SkipLWS : Parse Bool := do
  let token ← getToken
  let crlfMatch := token.tokType = CRLF
  if ¬ crlfMatch then pushBack
  let token ← getToken
  if token.tokType ≠ WHITESPACE then
    pushBack
    if crlfMatch then pushBack
    return false
  return true

/-- `SkipOptionalWhitespace`. -/
def SkipOptionalWhitespace : Parse Unit := do
  let token ← getToken
  if token.tokType ≠ WHITESPACE then pushBack

/-- What a token counts: nothing where the stream has ended. -/
def Token.weight (t : Token) : Nat := if t = ⟨END_OF_STREAM, []⟩ then 0 else 1

/-- How many tokens are to come. -/
def Scanner.left (s : Scanner) : Nat := (s.unread.map Token.weight).sum

variable {s s' : Scanner} {t : Token} {ts ts' : List Token} {e : ParseException}

/-- A token that is got is the first one to come, or the stream is at its end. -/
theorem getToken_ok (h : getToken s = (.ok t, s')) : s'.failure = s.failure ∧
    (s.unread = t :: s'.unread ∨ s.unread = [] ∧ s'.unread = [] ∧ t = ⟨END_OF_STREAM, []⟩) ∧
    ∃ n, 4 ≤ n ∧ s'.returned = t :: s.returned.take n := by
  obtain ⟨returned, pending, source, failure⟩ := s
  cases pending with
  | cons u pending =>
    cases h
    exact ⟨rfl, .inl rfl, returned.length + 4, Nat.le_add_left .., by simp⟩
  | nil =>
    cases source with
    | cons u source =>
      cases h
      exact ⟨rfl, .inl rfl, 4, Nat.le_refl _, rfl⟩
    | nil =>
      cases failure with
      | some e => cases h
      | none =>
        cases h
        exact ⟨rfl, .inr ⟨rfl, rfl, rfl⟩, 4, Nat.le_refl _, rfl⟩

theorem getToken_error (h : getToken s = (.error e, s')) : s' = s ∧ s.unread = [] := by
  obtain ⟨returned, pending, source, failure⟩ := s
  cases pending with
  | cons u pending => cases h
  | nil =>
    cases source with
    | cons u source => cases h
    | nil =>
      cases failure with
      | some e =>
        cases h
        exact ⟨rfl, rfl⟩
      | none => cases h

theorem getToken_cons (h : s.unread = t :: ts) : ∃ s', getToken s = (.ok t, s') ∧ s'.unread = ts ∧
    ∃ n, 4 ≤ n ∧ s'.returned = t :: s.returned.take n := by
  cases hget : getToken s with
  | mk r s' =>
    cases r with
    | error e =>
      rw [(getToken_error hget).2] at h
      cases h
    | ok u =>
      obtain ⟨-, hunread | ⟨hnil, -⟩, hreturned⟩ := getToken_ok hget
      · rw [h] at hunread
        obtain ⟨rfl, rfl⟩ := List.cons.inj hunread
        exact ⟨s', rfl, rfl, hreturned⟩
      · rw [hnil] at h
        cases h

theorem pushBack_of_returned {returned : List Token} (h : s.returned = t :: returned) :
    ∃ s', pushBack s = (.ok (), s') ∧ s'.unread = t :: s.unread ∧ s'.returned = returned ∧
      s'.failure = s.failure := by
  rw [pushBack, h]
  exact ⟨_, rfl, rfl, rfl, rfl⟩

/-! ## What a parser makes of a list of tokens -/

section Yields

variable {α β : Type} {p q : Parse α} {f : α → Parse β} {r : Except ParseException α}
variable {r' : Except ParseException β} {back : List Token} {ts'' : List Token}

/-- Where the tokens `ts` are to come, and `back` were returned last, a parser has the result `r` and
leaves the tokens `ts'`. -/
def Yields (back : List Token) (p : Parse α) (ts : List Token) (r : Except ParseException α)
    (ts' : List Token) : Prop :=
  ∀ s : Scanner, s.unread = ts → back <+: s.returned → ∃ s', p s = (r, s') ∧ s'.unread = ts'

theorem Yields.weaken (h : Yields [] p ts r ts') : Yields back p ts r ts' :=
  fun s hs _ ↦ h s hs (List.nil_prefix ..)

theorem yields_pure (a : α) : Yields back (pure a : Parse α) ts (.ok a) ts :=
  fun s hs _ ↦ ⟨s, rfl, hs⟩

theorem yields_throw (e : ParseException) : Yields back (throw e : Parse α) ts (.error e) ts :=
  fun s hs _ ↦ ⟨s, rfl, hs⟩

theorem Yields.bind {a : α} (h : Yields back p ts (.ok a) ts') (hf : Yields [] (f a) ts' r' ts'') :
    Yields back (p >>= f) ts r' ts'' := by
  intro s hs hback
  obtain ⟨s', hp, hs'⟩ := h s hs hback
  rw [bind_ok hp]
  exact hf s' hs' (List.nil_prefix ..)

theorem Yields.bind_error (h : Yields back p ts (.error e) ts') :
    Yields back (p >>= f) ts (.error e) ts' := by
  intro s hs hback
  obtain ⟨s', hp, hs'⟩ := h s hs hback
  exact ⟨s', Parse.bind_error hp, hs'⟩

/-- Four tokens at least are kept when the next one is got. -/
theorem prefix_returned {s' : Scanner} {n : Nat} (hback : back <+: s.returned) (hn : 4 ≤ n)
    (hreturned : s'.returned = t :: s.returned.take n) : t :: back.take 4 <+: s'.returned := by
  rw [hreturned, List.prefix_cons_inj, List.prefix_take_iff]
  exact ⟨(List.take_prefix 4 back).trans hback, (List.length_take_le 4 back).trans hn⟩

/-- The next token is got. -/
theorem yields_getToken {f : Token → Parse α} (h : Yields (t :: back.take 4) (f t) ts r ts') :
    Yields back (getToken >>= f) (t :: ts) r ts' := by
  intro s hs hback
  obtain ⟨s', hget, hs', n, hn, hreturned⟩ := getToken_cons hs
  rw [bind_ok hget]
  exact h s' hs' (prefix_returned hback hn hreturned)

/-- The token that was returned last is put back. -/
theorem yields_pushBack {f : Unit → Parse α} (h : Yields back (f ()) (t :: ts) r ts') :
    Yields (t :: back) (pushBack >>= f) ts r ts' := by
  intro s hs hback
  obtain ⟨rest, hreturned⟩ := hback
  obtain ⟨s', hpush, hs', hreturned', -⟩ := pushBack_of_returned hreturned.symm
  rw [bind_ok hpush]
  refine h s' (by rw [hs', hs]) ?_
  rw [hreturned']
  exact List.prefix_append ..

end Yields

/-! ## White space -/

/-- Nothing is skipped in front of a token that is neither white space nor the end of a line. -/
theorem yields_SkipLWS_other (hcrlf : t.tokType ≠ CRLF) (hws : t.tokType ≠ WHITESPACE) :
    Yields [] SkipLWS (t :: ts) (.ok false) (t :: ts) := by
  rw [SkipLWS]
  refine yields_getToken ?_
  simp only [hcrlf, not_false_eq_true, if_true]
  apply yields_pushBack
  refine yields_getToken ?_
  rw [if_pos hws]
  apply yields_pushBack
  exact yields_pure false

/-- White space is skipped. -/
theorem yields_SkipLWS_space (h : t.tokType = WHITESPACE) :
    Yields [] SkipLWS (t :: ts) (.ok true) ts := by
  rw [SkipLWS]
  refine yields_getToken ?_
  simp only [h, reduceCtorEq, not_false_eq_true, if_true]
  apply yields_pushBack
  refine yields_getToken ?_
  rw [if_neg (by simp [h])]
  exact yields_pure true

/-- The end of a line is no white space, unless the next line begins with some. -/
theorem yields_SkipLWS_crlf {u : Token} (h : t.tokType = CRLF) (hu : u.tokType ≠ WHITESPACE) :
    Yields [] SkipLWS (t :: u :: ts) (.ok false) (t :: u :: ts) := by
  rw [SkipLWS]
  refine yields_getToken ?_
  simp only [h, not_true_eq_false, if_false]
  refine yields_getToken ?_
  rw [if_pos hu]
  apply yields_pushBack
  rw [if_pos trivial]
  apply yields_pushBack
  exact yields_pure false

/-- The end of a line is skipped with the white space that the next line begins with. -/
theorem yields_SkipLWS_fold {u : Token} (h : t.tokType = CRLF) (hu : u.tokType = WHITESPACE) :
    Yields [] SkipLWS (t :: u :: ts) (.ok true) ts := by
  rw [SkipLWS]
  refine yields_getToken ?_
  simp only [h, not_true_eq_false, if_false]
  refine yields_getToken ?_
  rw [if_neg (by simp [hu])]
  exact yields_pure true

theorem left_getToken (h : getToken s = (.ok t, s')) : s'.left + t.weight = s.left := by
  obtain ⟨-, hunread | ⟨hnil, hnil', rfl⟩, -⟩ := getToken_ok h
  · rw [Scanner.left, Scanner.left, hunread, List.map_cons, List.sum_cons, Nat.add_comm]
  · rw [Scanner.left, Scanner.left, hnil, hnil']
    rfl

theorem left_pushBack {returned : List Token} (h : s.returned = t :: returned) :
    ∃ s', pushBack s = (.ok (), s') ∧ s'.left = s.left + t.weight ∧ s'.returned = returned := by
  obtain ⟨s', hpush, hunread, hreturned, -⟩ := pushBack_of_returned h
  refine ⟨s', hpush, ?_, hreturned⟩
  rw [Scanner.left, Scanner.left, hunread, List.map_cons, List.sum_cons, Nat.add_comm]

theorem weight_of_type (h : t.tokType ≠ END_OF_STREAM) : t.weight = 1 := by
  refine if_neg ?_
  rintro rfl
  exact h rfl

theorem weight_of_char {c : Char} (h : t.s = [c]) : t.weight = 1 := by
  refine if_neg ?_
  rintro rfl
  cases h

/-- White space that is skipped is taken away, and nothing else is. -/
theorem left_SkipLWS {b : Bool} (h : SkipLWS s = (.ok b, s')) :
    s'.left + (if b then 1 else 0) ≤ s.left := by
  rw [SkipLWS] at h
  obtain ⟨t, s₁, hget, h⟩ := bind_eq_ok.mp h
  have hleft := left_getToken hget
  obtain ⟨-, -, n, -, hreturned⟩ := getToken_ok hget
  by_cases hcrlf : t.tokType = CRLF
  · simp only [hcrlf, not_true_eq_false, if_false] at h
    obtain ⟨u, s₂, hget₁, h⟩ := bind_eq_ok.mp h
    have hleft₁ := left_getToken hget₁
    obtain ⟨-, -, n₁, hn₁, hreturned₁⟩ := getToken_ok hget₁
    by_cases hws : u.tokType = WHITESPACE
    · rw [if_neg (by simp [hws])] at h
      cases h
      have hweight := weight_of_type (t := u) (by simp [hws])
      rw [if_pos rfl]
      omega
    · rw [if_pos hws] at h
      obtain ⟨s₃, hpush, hs₃, hreturned₃⟩ := left_pushBack hreturned₁
      rw [bind_ok hpush, if_pos trivial] at h
      have htake : s₃.returned = t :: (s.returned.take n).take (n₁ - 1) := by
        rw [hreturned₃, hreturned]
        obtain ⟨k, rfl⟩ : ∃ k, n₁ = k + 1 := ⟨n₁ - 1, by omega⟩
        rfl
      obtain ⟨s₄, hpush', hs₄, -⟩ := left_pushBack htake
      rw [bind_ok hpush'] at h
      cases h
      rw [if_neg Bool.false_ne_true]
      omega
  · simp only [hcrlf, not_false_eq_true, if_true] at h
    obtain ⟨s₂, hpush, hs₂, hreturned₂⟩ := left_pushBack hreturned
    rw [bind_ok hpush] at h
    obtain ⟨u, s₃, hget₁, h⟩ := bind_eq_ok.mp h
    have hleft₁ := left_getToken hget₁
    obtain ⟨-, -, n₃, -, hreturned₃⟩ := getToken_ok hget₁
    by_cases hws : u.tokType = WHITESPACE
    · rw [if_neg (by simp [hws])] at h
      cases h
      have hweight := weight_of_type (t := u) (by simp [hws])
      rw [if_pos rfl]
      omega
    · rw [if_pos hws] at h
      obtain ⟨s₄, hpush', hs₄, -⟩ := left_pushBack hreturned₃
      rw [bind_ok hpush'] at h
      cases h
      rw [if_neg Bool.false_ne_true]
      omega

/-- A parser that throws nothing but what the scanner throws. -/
def OnlyScanner {α : Type} (p : Parse α) : Prop :=
  ∀ s e s', p s = (.error e, s') → ∃ x, e = .ofScanner x

section OnlyScanner

variable {α β : Type} {p : Parse α} {f : α → Parse β}

theorem OnlyScanner.bind (h : OnlyScanner p) (hf : ∀ a, OnlyScanner (f a)) : OnlyScanner (p >>= f) := by
  intro s e s' hrun
  cases hp : p s with
  | mk r s₁ =>
    cases r with
    | error e₁ =>
      rw [Parse.bind_error hp] at hrun
      cases hrun
      exact h _ _ _ hp
    | ok a =>
      rw [bind_ok hp] at hrun
      exact hf a _ _ _ hrun

theorem onlyScanner_pure (a : α) : OnlyScanner (pure a : Parse α) := by
  intro s e s' h
  cases h

theorem onlyScanner_getToken : OnlyScanner getToken := by
  intro s e s' h
  rw [getToken] at h
  split at h
  · cases h
  · split at h
    · cases h
    · cases h
      exact ⟨_, rfl⟩
    · cases h

theorem onlyScanner_pushBack : OnlyScanner pushBack := by
  intro s e s' h
  rw [pushBack] at h
  split at h
  · cases h
    exact ⟨_, rfl⟩
  · cases h

theorem onlyScanner_SkipLWS : OnlyScanner SkipLWS := by
  rw [SkipLWS]
  refine onlyScanner_getToken.bind fun t ↦ ?_
  dsimp only
  split
  · refine onlyScanner_pushBack.bind fun _ ↦ onlyScanner_getToken.bind fun u ↦ ?_
    split
    · exact onlyScanner_pushBack.bind fun _ ↦ onlyScanner_pure _
    · exact onlyScanner_pure _
  · refine onlyScanner_getToken.bind fun u ↦ ?_
    split
    · refine onlyScanner_pushBack.bind fun _ ↦ ?_
      split
      · exact onlyScanner_pushBack.bind fun _ ↦ onlyScanner_pure _
      · exact onlyScanner_pure _
    · exact onlyScanner_pure _

end OnlyScanner

/-- `SkipOptionalLWS`. -/
def SkipOptionalLWS : Parse Unit := fun s ↦
  match hskip : SkipLWS s with
  | (.error e, s) => (.error e, s)
  | (.ok true, s') => SkipOptionalLWS s'
  | (.ok false, s) => (.ok (), s)
termination_by s => s.left
decreasing_by exact left_SkipLWS hskip

theorem SkipOptionalLWS_eq (s : Scanner) : SkipOptionalLWS s =
    match SkipLWS s with
    | (.error e, s) => (.error e, s)
    | (.ok true, s') => SkipOptionalLWS s'
    | (.ok false, s) => (.ok (), s) := by
  rw [SkipOptionalLWS]
  split <;> rename_i heq <;> rw [heq]

/-- Nothing is put in front of what is to come. -/
theorem left_SkipOptionalLWS (h : SkipOptionalLWS s = (.ok (), s')) : s'.left ≤ s.left := by
  fun_induction SkipOptionalLWS s with
  | case1 => cases h
  | case2 s s₁ hskip ih => exact (ih h).trans (Nat.le_of_succ_le (left_SkipLWS hskip))
  | case3 s s₁ hskip =>
    cases h
    exact left_SkipLWS hskip

/-! ## Parsers that put nothing into the stream -/

section Spends

variable {α β : Type} {p q : Parse α} {f : α → Parse β} {back : List Token}

/-- Where the tokens `back` were returned last, a parser leaves no more than these in front of what
is to come. -/
def Spends (back : List Token) (p : Parse α) : Prop :=
  ∀ s a s', back <+: s.returned → p s = (.ok a, s') → s'.left ≤ s.left + (back.map Token.weight).sum

theorem spends_pure (a : α) : Spends back (pure a : Parse α) := by
  intro s b s' _ h
  cases h
  exact Nat.le_add_right ..

theorem spends_throw (e : ParseException) : Spends back (throw e : Parse α) := by
  intro s b s' _ h
  cases h

theorem Spends.bind (h : Spends [] p) (hf : ∀ a, Spends [] (f a)) : Spends back (p >>= f) := by
  intro s b s' _ hrun
  obtain ⟨a, s₁, hp, hrun⟩ := bind_eq_ok.mp hrun
  have hle := h _ _ _ (List.nil_prefix ..) hp
  have hle' := hf a _ _ _ (List.nil_prefix ..) hrun
  exact (hle'.trans hle).trans (Nat.le_add_right ..)

theorem spends_getToken {f : Token → Parse α} (h : ∀ t, Spends (t :: back.take 4) (f t)) :
    Spends back (getToken >>= f) := by
  intro s b s' hback hrun
  obtain ⟨t, s₁, hget, hrun⟩ := bind_eq_ok.mp hrun
  obtain ⟨-, -, n, hn, hreturned⟩ := getToken_ok hget
  have hleft := left_getToken hget
  have hle := h t _ _ _ (prefix_returned hback hn hreturned) hrun
  have hsum : ((back.take 4).map Token.weight).sum + ((back.drop 4).map Token.weight).sum =
      (back.map Token.weight).sum := by
    rw [← List.sum_append, ← List.map_append, List.take_append_drop]
  rw [List.map_cons, List.sum_cons] at hle
  omega

theorem spends_pushBack {t : Token} {f : Unit → Parse α} (h : Spends back (f ())) :
    Spends (t :: back) (pushBack >>= f) := by
  intro s b s' hback hrun
  obtain ⟨rest, hreturned⟩ := hback
  obtain ⟨s₁, hpush, hleft, hreturned₁⟩ := left_pushBack hreturned.symm
  rw [bind_ok hpush] at hrun
  have hle := h _ _ _ (by
    rw [hreturned₁]
    exact List.prefix_append ..) hrun
  rw [List.map_cons, List.sum_cons]
  omega

theorem spends_SkipOptionalLWS : Spends [] SkipOptionalLWS :=
  fun _ _ _ _ h ↦ (left_SkipOptionalLWS h).trans (Nat.le_add_right ..)

theorem Spends.weaken (h : Spends [] p) : Spends back p :=
  fun _ _ _ _ hrun ↦ (h _ _ _ (List.nil_prefix ..) hrun).trans (Nat.le_add_right ..)

/-- A parser that puts nothing into the stream. -/
theorem Spends.left_load (h : Spends [] p) {s s' : Scanner} {a : α}
    (hrun : p s = (.ok a, s')) : s'.left ≤ s.left :=
  h _ _ _ (List.nil_prefix ..) hrun

theorem spends_ite {q : Parse α} {c : Prop} [Decidable c] (hp : Spends back p) (hq : Spends back q) :
    Spends back (if c then p else q) := by
  by_cases hc : c
  · rwa [if_pos hc]
  · rwa [if_neg hc]

end Spends

theorem onlyScanner_SkipOptionalLWS : OnlyScanner SkipOptionalLWS := by
  intro s e s' h
  fun_induction SkipOptionalLWS s with
  | case1 s e₁ s₁ hskip =>
    cases h
    exact onlyScanner_SkipLWS _ _ _ hskip
  | case2 s s₁ hskip ih => exact ih h
  | case3 => cases h

theorem yields_SkipOptionalLWS_of_false {back : List Token} (h : Yields [] SkipLWS ts (.ok false) ts') :
    Yields back SkipOptionalLWS ts (.ok ()) ts' := by
  intro s hs _
  obtain ⟨s', hskip, hs'⟩ := h s hs (List.nil_prefix ..)
  refine ⟨s', ?_, hs'⟩
  rw [SkipOptionalLWS_eq, hskip]

theorem yields_SkipOptionalLWS_other {back : List Token} (hcrlf : t.tokType ≠ CRLF)
    (hws : t.tokType ≠ WHITESPACE) : Yields back SkipOptionalLWS (t :: ts) (.ok ()) (t :: ts) :=
  yields_SkipOptionalLWS_of_false (yields_SkipLWS_other hcrlf hws)

theorem yields_SkipOptionalLWS_crlf {back : List Token} {u : Token} (h : t.tokType = CRLF)
    (hu : u.tokType ≠ WHITESPACE) :
    Yields back SkipOptionalLWS (t :: u :: ts) (.ok ()) (t :: u :: ts) :=
  yields_SkipOptionalLWS_of_false (yields_SkipLWS_crlf h hu)

theorem yields_SkipOptionalLWS_of_true {back ts'' : List Token}
    (h : Yields [] SkipLWS ts (.ok true) ts')
    (hts : Yields [] SkipOptionalLWS ts' (.ok ()) ts'') :
    Yields back SkipOptionalLWS ts (.ok ()) ts'' := by
  intro s hs _
  obtain ⟨s', hskip, hs'⟩ := h s hs (List.nil_prefix ..)
  obtain ⟨s'', hmore, hs''⟩ := hts s' hs' (List.nil_prefix ..)
  refine ⟨s'', ?_, hs''⟩
  rw [SkipOptionalLWS_eq, hskip]
  exact hmore

theorem yields_SkipOptionalLWS_space {back : List Token} (h : t.tokType = WHITESPACE)
    (hts : Yields [] SkipOptionalLWS ts (.ok ()) ts') :
    Yields back SkipOptionalLWS (t :: ts) (.ok ()) ts' :=
  yields_SkipOptionalLWS_of_true (yields_SkipLWS_space h) hts

theorem yields_SkipOptionalLWS_fold {back : List Token} {u : Token} (h : t.tokType = CRLF)
    (hu : u.tokType = WHITESPACE) (hts : Yields [] SkipOptionalLWS ts (.ok ()) ts') :
    Yields back SkipOptionalLWS (t :: u :: ts) (.ok ()) ts' :=
  yields_SkipOptionalLWS_of_true (yields_SkipLWS_fold h hu) hts

/-! ## What a parser does not make of a list of tokens -/

section Misses

variable {α β : Type} {p : Parse α} {back : List Token} {a : α} {b : β}

/-- Where the tokens `ts` are to come, and `back` were returned last, a parser does not have the
result `a`. -/
def Misses (back : List Token) (p : Parse α) (ts : List Token) (a : α) : Prop :=
  ∀ s : Scanner, s.unread = ts → back <+: s.returned → (p s).1 ≠ .ok a

theorem Misses.weaken (h : Misses [] p ts a) : Misses back p ts a :=
  fun s hs _ ↦ h s hs (List.nil_prefix ..)

theorem Yields.misses {f : α → Parse β} (h : Yields back p ts (.ok a) ts')
    (hf : Misses [] (f a) ts' b) :
    Misses back (p >>= f) ts b := by
  intro s hs hback
  obtain ⟨s', hp, hs'⟩ := h s hs hback
  rw [bind_ok hp]
  exact hf s' hs' (List.nil_prefix ..)

theorem misses_getToken {f : Token → Parse α} (h : Misses (t :: back.take 4) (f t) ts a) :
    Misses back (getToken >>= f) (t :: ts) a := by
  intro s hs hback
  obtain ⟨s', hget, hs', n, hn, hreturned⟩ := getToken_cons hs
  rw [bind_ok hget]
  exact h s' hs' (prefix_returned hback hn hreturned)

theorem misses_pushBack {f : Unit → Parse α} (h : Misses back (f ()) (t :: ts) a) :
    Misses (t :: back) (pushBack >>= f) ts a := by
  intro s hs hback
  obtain ⟨rest, hreturned⟩ := hback
  obtain ⟨s', hpush, hs', hreturned', -⟩ := pushBack_of_returned hreturned.symm
  rw [bind_ok hpush]
  refine h s' (by rw [hs', hs]) ?_
  rw [hreturned']
  exact List.prefix_append ..

theorem misses_bind {f : α → Parse β} (h : ∀ a, Misses back p ts a) : Misses back (p >>= f) ts b := by
  intro s hs hback hrun
  obtain ⟨a, s', hp, -⟩ := bind_fst_eq_ok hrun
  exact h a s hs hback (congrArg Prod.fst hp)

/-- What a result is made of is not the result of a part. -/
theorem Misses.map {g : α → β} (h : Misses [] p ts a) (hg : ∀ a', g a' = g a → a' = a) :
    Misses back (p >>= fun a ↦ pure (g a)) ts (g a) := by
  intro s hs _ hrun
  obtain ⟨a', s', hp, hrun⟩ := bind_fst_eq_ok hrun
  refine h s hs (List.nil_prefix ..) ?_
  rw [hp, hg a' (Except.ok.inj hrun)]

/-- At the end of the tokens there is nothing but the end of the stream. -/
theorem misses_skip_getToken {f : Token → Parse α} (h : ∀ s, (f ⟨END_OF_STREAM, []⟩ s).1 ≠ .ok a) :
    Misses back (SkipOptionalLWS >>= fun _ ↦ getToken >>= f) [] a := by
  intro s hs _ hrun
  have hnil : s.left = 0 := by
    rw [Scanner.left, hs]
    rfl
  obtain ⟨u, s₁, hskip, hrun⟩ := bind_fst_eq_ok hrun
  have hleft := left_SkipOptionalLWS hskip
  obtain ⟨t, s₂, hget, hrun⟩ := bind_fst_eq_ok hrun
  have hweight := left_getToken hget
  have ht : t = ⟨END_OF_STREAM, []⟩ := by
    by_contra hne
    rw [Token.weight, if_neg hne] at hweight
    omega
  rw [ht] at hrun
  exact h s₂ hrun

end Misses

end Upnp.Web
