import Mathlib.Data.List.DropRight
import Upnp.HttpMessage.Scan

/-!
# The headers of a message

`parse_headers` goes from header to header until it meets an empty line or the end of the buffer.
A buffer that ends before the empty line is accepted too, and what is taken for the content then
can have the size -1.  White space behind a value is meant to be stripped, but the stripping begins
at the CR and never does anything.
-/

namespace Upnp.HttpMessage

open Upnp.Lib

/-- `http_header`, without its link. -/
structure HttpHeader where
  header : Token
  value : Token
deriving DecidableEq, Repr

/-- What `parse_headers` stores in an `http_message`. -/
structure Headers where
  header_list : List HttpHeader
  content : Token
deriving DecidableEq, Repr

/-- The loop of `parse_headers` at one header: the header, and the finger and the remaining length
behind it; `none` is a look behind the end of the memory. -/
def headerStep (memory : CString) (finger : Nat) (max_len : Int) :
    Option (Except Int (HttpHeader × Nat × Int)) :=
  let counter := parse_token max_len (memory.drop finger)
  if counter = 0 then some (.error UPNP_E_BAD_REQUEST)
  else
    let header : Token := ⟨some finger, counter⟩
    match memory[finger + counter]? with
    | none => none
    | some c =>
      if c ≠ ':' then some (.error UPNP_E_BAD_REQUEST)
      else
        let finger := finger + counter + 1
        let max_len := max_len - (counter + 1)
        -- get rid of whitespace
        let counter := parse_LWS max_len (memory.drop finger)
        let finger := finger + counter
        let max_len := max_len - counter
        -- parse value, allows empty values
        let parsed := parse_header_value finger max_len (memory.drop finger)
        let value := if parsed.2 = 0 then ⟨none, 0⟩ else parsed.1
        let finger := (finger + parsed.2).toNat
        let max_len := max_len - parsed.2
        let counter := parse_http_line max_len (memory.drop finger)
        some (.ok (⟨header, value⟩, finger + counter, max_len - counter))

/-- Each header takes at least its name. -/
theorem headerStep_lt {memory : CString} {finger finger' : Nat} {max_len max_len' : Int}
    {h : HttpHeader} (hstep : headerStep memory finger max_len = some (.ok (h, finger', max_len'))) :
    finger < finger' := by
  rw [headerStep] at hstep
  dsimp only at hstep
  split at hstep
  · cases hstep
  · rename_i hzero
    split at hstep
    · cases hstep
    · split at hstep
      · cases hstep
      · generalize parse_LWS _ _ = lws at hstep
        have hvalue : ∀ pos max_size input, -1 ≤ (parse_header_value pos max_size input).2 := by
          intro pos max_size input
          rw [parse_header_value]
          dsimp only
          split
          · decide
          · exact neg_one_le_stripLoop _ _
        have hge := hvalue (finger + parse_token max_len (memory.drop finger) + 1 + lws)
          (max_len - (parse_token max_len (memory.drop finger) + 1) - lws)
          (memory.drop (finger + parse_token max_len (memory.drop finger) + 1 + lws))
        have hfinger := congrArg (fun r ↦ r.2.1) (Except.ok.inj (Option.some.inj hstep))
        dsimp only at hfinger
        omega

/-- The loop of `parse_headers`, over the answers of `malloc`. -/
def headersLoop (malloc : Nat → Bool) (memory : CString) (max_finger : Nat)
    (headers : List HttpHeader) (finger : Nat) (max_len : Int) :
    Option (Except Int (List HttpHeader × Nat × Int)) :=
  if finger + 1 < max_finger ∧ ¬ CrlfAt memory finger then
    if !malloc headers.length then some (.error UPNP_E_OUTOF_MEMORY)
    else
      match hstep : headerStep memory finger max_len with
      | none => none
      | some (.error code) => some (.error code)
      | some (.ok (h, finger', max_len')) =>
        headersLoop malloc memory max_finger (headers ++ [h]) finger' max_len'
  else some (.ok (headers, finger, max_len))
termination_by max_finger - finger
decreasing_by
  have := headerStep_lt hstep
  omega

/-- The content token at the end of the loop. -/
def contentAt (max_finger finger : Nat) (max_len : Int) : Token :=
  ⟨some (if finger + 1 < max_finger then finger + 2 else finger),
    if max_len > 0 then max_len - 2 else 0⟩

/-- `parse_headers`, on the memory from `in` on. -/
def parse_headers (malloc : Nat → Bool) (memory : CString) (max_len : Nat) :
    Option (Except Int Headers) :=
  match headersLoop malloc memory max_len [] 0 max_len with
  | none => none
  | some (.error code) => some (.error code)
  | some (.ok (header_list, finger, left)) =>
    some (.ok ⟨header_list, contentAt max_len finger left⟩)

/-! ## The head of the loop -/

/-- What holds at the head of the loop in a run of `parse_headers`: the headers that are stored, the
finger and the remaining length. -/
inductive AtHead (memory : CString) (max_finger : Nat) : List HttpHeader → Nat → Int → Prop
  | start : AtHead memory max_finger [] 0 max_finger
  | next {headers : List HttpHeader} {finger finger' : Nat} {max_len max_len' : Int}
      {h : HttpHeader} : AtHead memory max_finger headers finger max_len →
      finger + 1 < max_finger → ¬ CrlfAt memory finger →
      headerStep memory finger max_len = some (.ok (h, finger', max_len')) →
      AtHead memory max_finger (headers ++ [h]) finger' max_len'

/-- CRLF at the beginning, or behind another CRLF, in the first `max_finger` characters. -/
def EmptyLine (memory : CString) (max_finger e : Nat) : Prop :=
  CrlfAt memory e ∧ e + 2 ≤ max_finger ∧ (e = 0 ∨ 2 ≤ e ∧ CrlfAt memory (e - 2))

/-- One value lies in front of another. -/
def Before (h h' : HttpHeader) : Prop :=
  ∀ b ∈ h.value.buff, ∀ b' ∈ h'.value.buff, b + h.value.size ≤ b'

/-- A value that is stored lies within the first `n` characters. -/
def Within (n : Nat) (h : HttpHeader) : Prop :=
  0 ≤ h.value.size ∧ ∀ b ∈ h.value.buff, b + h.value.size ≤ n

variable {memory : CString} {max_finger finger finger' : Nat} {max_len max_len' : Int}
variable {headers : List HttpHeader} {h : HttpHeader}

/-- Where the value begins that one turn of the loop stores. -/
def valueStart (memory : CString) (finger : Nat) (max_len : Int) : Nat :=
  let colon := finger + parse_token max_len (memory.drop finger)
  colon + 1 + parse_LWS (max_len - (parse_token max_len (memory.drop finger) + 1))
    (memory.drop (colon + 1))

/-- A name, a colon and white space are passed, up to the value. -/
theorem headerStep_front {memory name ws more : CString} {finger : Nat} {max_len : Int}
    (hdrop : memory.drop finger = name ++ ':' :: (ws ++ more)) (hname : name ≠ [])
    (htoken : ∀ c ∈ name, isToken c) (hws : ∀ c ∈ ws, isLWS c)
    (hmore : ∀ c ∈ more.head?, isLWS c = false)
    (hmax : ((name.length + 1 + ws.length : Nat) : Int) ≤ max_len) :
    (∃ r, headerStep memory finger max_len = some (.ok r)) ∧
      valueStart memory finger max_len = finger + name.length + 1 + ws.length := by
  have hdropColon : memory.drop (finger + name.length) = ':' :: (ws ++ more) := by
    rw [← List.drop_drop, hdrop, List.drop_left]
  have hdropWs : memory.drop (finger + name.length + 1) = ws ++ more := by
    rw [← List.drop_drop, hdropColon]
    rfl
  -- the scanners stop at the colon and at the value
  have hcounter : parse_token max_len (memory.drop finger) = name.length := by
    rw [parse_token, hdrop]
    refine scan_append htoken ?_ (by omega)
    rintro c hc
    cases hc
    decide
  have hcolon : memory[finger + name.length]? = some ':' := by
    rw [← List.head?_drop, hdropColon]
    rfl
  have hlws : parse_LWS (max_len - (name.length + 1)) (memory.drop (finger + name.length + 1)) =
      ws.length := by
    rw [parse_LWS, hdropWs]
    exact scan_append hws hmore (by omega)
  constructor
  · have hne : name.length ≠ 0 := mt List.length_eq_zero_iff.mp hname
    rw [headerStep, hcounter]
    dsimp only
    rw [if_neg hne, hcolon]
    exact ⟨_, rfl⟩
  · rw [valueStart, hcounter, hlws]

/-- One turn of the loop: the value goes to the next CRLF, if there is one. -/
structure Turn (memory : CString) (max_finger finger finger' : Nat) (max_len' : Int)
    (h : HttpHeader) (start : Nat) : Prop where
  position : finger' + max_len' = max_finger
  start_ge : finger + 2 ≤ start
  front : ∀ q, finger ≤ q → q < start → ¬ CrlfAt memory q
  value : (∃ n : Nat, CrlfAt memory (start + n) ∧ start + n + 2 ≤ max_finger ∧
      (∀ q, start ≤ q → q < start + n → ¬ CrlfAt memory q) ∧
      h.value = (if n = 0 then ⟨none, 0⟩ else ⟨some start, n⟩) ∧ finger' = start + n + 2) ∨
    (∀ q, start ≤ q → q + 2 ≤ max_finger → ¬ CrlfAt memory q) ∧ h.value = ⟨none, 0⟩ ∧
      finger' = start

theorem not_crlfAt_of_ne {q : Nat} {c : Char} (hget : memory[q]? = some c) (hc : c ≠ '\r') :
    ¬ CrlfAt memory q := by
  rintro ⟨hcr, -⟩
  rw [hget] at hcr
  exact hc (Option.some.inj hcr)

theorem scan_front {test : Char → Bool} (htest : test '\r' = false) {pos max q : Nat}
    (hpos : pos ≤ q) (hq : q < pos + scan test max (memory.drop pos)) : ¬ CrlfAt memory q := by
  have hlt : q - pos < scan test max (memory.drop pos) := by omega
  obtain ⟨c, hget, hc⟩ := scan_passes hlt
  rw [List.getElem?_drop, Nat.add_sub_cancel' hpos] at hget
  refine not_crlfAt_of_ne hget ?_
  rintro rfl
  rw [htest] at hc
  cases hc

theorem headerStep_turn (hlen : max_finger ≤ memory.length) (hlt : finger + 1 < max_finger)
    (hpos : finger + max_len = max_finger)
    (hstep : headerStep memory finger max_len = some (.ok (h, finger', max_len'))) :
    Turn memory max_finger finger finger' max_len' h (valueStart memory finger max_len) := by
  have htoken : parse_token max_len (memory.drop finger) ≤ max_len.toNat := scan_le _ _ _
  have htokenFront := @scan_front memory isToken (by decide) finger max_len.toNat
  rw [headerStep] at hstep
  dsimp only at hstep
  split at hstep
  · cases hstep
  rename_i hzero
  split at hstep
  · cases hstep
  rename_i c hcolon
  split at hstep
  · cases hstep
  rename_i hc
  have hc : c = ':' := not_not.mp hc
  have hinside : finger + parse_token max_len (memory.drop finger) < memory.length :=
    (List.getElem?_eq_some_iff.mp hcolon).1
  have hcolonFront : ¬ CrlfAt memory (finger + parse_token max_len (memory.drop finger)) := by
    refine not_crlfAt_of_ne hcolon ?_
    rw [hc]
    decide
  rw [valueStart]
  change ∀ {q : Nat}, finger ≤ q → q < finger + parse_token max_len (memory.drop finger) → _
    at htokenFront
  generalize parse_token max_len (memory.drop finger) = counter at *
  have hlws : parse_LWS (max_len - (counter + 1)) (memory.drop (finger + counter + 1)) ≤
      (max_len - (counter + 1)).toNat := scan_le _ _ _
  have hlwsFront := @scan_front memory isLWS (by decide) (finger + counter + 1)
    (max_len - (counter + 1)).toNat
  change ∀ {q : Nat}, finger + counter + 1 ≤ q → q < finger + counter + 1 +
    parse_LWS (max_len - (counter + 1)) (memory.drop (finger + counter + 1)) → _ at hlwsFront
  generalize parse_LWS (max_len - (counter + 1)) (memory.drop (finger + counter + 1)) = lws at *
  have hfront : ∀ q, finger ≤ q → q < finger + counter + 1 + lws → ¬ CrlfAt memory q := by
    intro q hq hlt
    rcases Nat.lt_trichotomy q (finger + counter) with hq' | rfl | hq'
    · exact htokenFront hq hq'
    · exact hcolonFront
    · exact hlwsFront hq' hlt
  have hroom : finger + counter + 1 + lws + (max_len - (counter + 1) - lws).toNat ≤
      memory.length := by omega
  have hend : (finger + counter + 1 + lws : Nat) + (max_len - (counter + 1) - lws) =
      (max_finger : Int) := by omega
  have hcounter : 0 < counter := Nat.pos_of_ne_zero hzero
  generalize hstart : finger + counter + 1 + lws = start at *
  generalize max_len - (counter + 1) - lws = left at *
  rcases parse_header_value_cases hroom with
    ⟨n, hvalue, hline, hle, hat, hbefore⟩ | ⟨hvalue, hline, hnone⟩
  · rw [hvalue] at hstep
    dsimp only at hstep
    have hnat : ((start : Int) + (n : Int)).toNat = start + n := by omega
    rw [hnat] at hstep
    -- behind the value there is nothing but CRLF
    have hroom' : start + n + (left - n).toNat ≤ memory.length := by omega
    have htwo : parse_http_line (left - n) (memory.drop (start + n)) = 2 := by
      rcases parse_http_line_cases hroom' with ⟨m, hm, -, -, hbefore'⟩ | ⟨-, hnone⟩
      · rw [hm]
        rcases Nat.eq_zero_or_pos m with rfl | hm'
        · rfl
        · exact absurd hat (hbefore' (start + n) (Nat.le_refl _) (Nat.lt_add_of_pos_right hm'))
      · exact absurd hat (hnone (start + n) (Nat.le_refl _) (by omega))
    rw [htwo] at hstep
    cases hstep
    refine ⟨by omega, by omega, hfront, .inl ⟨n, hat, by omega, hbefore, ?_, rfl⟩⟩
    dsimp only
    by_cases hn : n = 0
    · rw [if_pos hn, if_pos (Int.natCast_eq_zero.mpr hn)]
    · rw [if_neg hn, if_neg (mt Int.natCast_eq_zero.mp hn)]
  · rw [hvalue] at hstep
    simp only [if_true, add_zero, sub_zero, Int.toNat_natCast] at hstep
    rw [hline] at hstep
    cases hstep
    refine ⟨by omega, by omega, hfront, .inr ⟨?_, rfl, rfl⟩⟩
    intro q hq hle
    exact hnone q hq (by omega)

/-- What the head of the loop keeps. -/
structure Head (memory : CString) (max_finger : Nat) (headers : List HttpHeader) (finger : Nat)
    (max_len : Int) : Prop where
  position : finger + max_len = max_finger
  /-- The finger is at the beginning of a line, or there are no more lines. -/
  lineStart : (finger = 0 ∨ 2 ≤ finger ∧ CrlfAt memory (finger - 2)) ∨
    ∀ q, finger ≤ q → q + 2 ≤ max_finger → ¬ CrlfAt memory q
  passed : ∀ e < finger, ¬ EmptyLine memory max_finger e
  within : ∀ h ∈ headers, Within max_finger h ∧ Within finger h
  ordered : headers.Pairwise Before

theorem Head.start : Head memory max_finger [] 0 max_finger where
  position := by omega
  lineStart := .inl (.inl rfl)
  passed := by
    intro e he
    cases he
  within := by
    intro h hmem
    cases hmem
  ordered := List.Pairwise.nil

theorem Head.next (hhead : Head memory max_finger headers finger max_len) {start : Nat}
    (hturn : Turn memory max_finger finger finger' max_len' h start) :
    Head memory max_finger (headers ++ [h]) finger' max_len' := by
  have hge := hturn.start_ge
  have hmono : ∀ h' ∈ headers, Within max_finger h' ∧ Within finger' h' := by
    intro h' hmem
    obtain ⟨hmax, hnonneg, hwithin⟩ := hhead.within h' hmem
    refine ⟨hmax, hnonneg, ?_⟩
    intro b hb
    have hle := hwithin b hb
    have hlt : finger ≤ finger' := by
      rcases hturn.value with ⟨n, -, -, -, -, rfl⟩ | ⟨-, -, rfl⟩
      · omega
      · omega
    omega
  have hordered : (∀ b ∈ h.value.buff, finger ≤ b) → (headers ++ [h]).Pairwise Before := by
    intro hb
    refine List.pairwise_append.mpr ⟨hhead.ordered, List.pairwise_singleton _ _, ?_⟩
    intro h' hmem h'' hmem'' b hb' b' hb''
    cases List.mem_singleton.mp hmem''
    have hle := (hhead.within h' hmem).2.2 b hb'
    have := hb b' hb''
    omega
  -- an empty line begins at a CRLF, and the first one behind the finger is that of the value
  rcases hturn.value with ⟨n, hat, hle, hbefore, hvalue, rfl⟩ | ⟨hnone, hvalue, rfl⟩
  · have hfirst : ∀ q, finger ≤ q → q < start + n → ¬ CrlfAt memory q := by
      intro q hq hlt
      rcases Nat.lt_or_ge q start with hq' | hq'
      · exact hturn.front q hq hq'
      · exact hbefore q hq' hlt
    have hbuff : ∀ b ∈ h.value.buff, b = start ∧ h.value.size = n := by
      rw [hvalue]
      split
      · rintro b hb
        cases hb
      · rintro b hb
        cases hb
        exact ⟨rfl, rfl⟩
    have hnonneg : 0 ≤ h.value.size := by
      rw [hvalue]
      split
      · exact Int.le_refl 0
      · exact Int.natCast_nonneg n
    refine ⟨hturn.position, .inl (.inr ⟨by omega, hat⟩), ?_, ?_, hordered ?_⟩
    · rintro e he ⟨hcrlf', hmax, hprev⟩
      rcases Nat.lt_or_ge e finger with hlt | hge'
      · exact hhead.passed e hlt ⟨hcrlf', hmax, hprev⟩
      · rcases Nat.lt_or_ge e (start + n) with hlt | hge''
        · exact hfirst e hge' hlt hcrlf'
        · rcases Nat.eq_or_lt_of_le hge'' with rfl | hgt
          · rcases hprev with hzero | ⟨-, hprev⟩
            · omega
            · exact hfirst (start + n - 2) (by omega) (by omega) hprev
          · obtain rfl : e = start + n + 1 := by omega
            exact not_crlfAt_of_ne hat.2 (by decide) hcrlf'
    · intro h' hmem
      rcases List.mem_append.mp hmem with hmem | hmem
      · exact hmono h' hmem
      · cases List.mem_singleton.mp hmem
        refine ⟨⟨hnonneg, ?_⟩, hnonneg, ?_⟩
        · intro b hb
          obtain ⟨rfl, hsize⟩ := hbuff b hb
          omega
        · intro b hb
          obtain ⟨rfl, hsize⟩ := hbuff b hb
          omega
    · intro b hb
      rw [(hbuff b hb).1]
      omega
  · have hbuff : ∀ b ∈ h.value.buff, False := by
      rw [hvalue]
      rintro b hb
      cases hb
    have hnonneg : 0 ≤ h.value.size := by
      rw [hvalue]
    refine ⟨hturn.position, .inr hnone, ?_, ?_, hordered fun b hb ↦ (hbuff b hb).elim⟩
    · rintro e he ⟨hcrlf', hmax, hprev⟩
      rcases Nat.lt_or_ge e finger with hlt | hge'
      · exact hhead.passed e hlt ⟨hcrlf', hmax, hprev⟩
      · exact hturn.front e hge' he hcrlf'
    · intro h' hmem
      rcases List.mem_append.mp hmem with hmem | hmem
      · exact hmono h' hmem
      · cases List.mem_singleton.mp hmem
        exact ⟨⟨hnonneg, fun b hb ↦ (hbuff b hb).elim⟩, hnonneg, fun b hb ↦ (hbuff b hb).elim⟩

/-- The invariant holds at each turn of the loop. -/
theorem AtHead.head (hlen : max_finger ≤ memory.length)
    (hat : AtHead memory max_finger headers finger max_len) :
    Head memory max_finger headers finger max_len := by
  induction hat with
  | start => exact Head.start
  | next _ hlt _ hstep ih => exact ih.next (headerStep_turn hlen hlt ih.position hstep)

/-- A run of the loop that succeeds ends at the head, where the loop stops. -/
theorem atHead_of_headersLoop {malloc : Nat → Bool} {r : List HttpHeader × Nat × Int}
    (hat : AtHead memory max_finger headers finger max_len)
    (hloop : headersLoop malloc memory max_finger headers finger max_len = some (.ok r)) :
    AtHead memory max_finger r.1 r.2.1 r.2.2 ∧
      (r.2.1 + 1 < max_finger → CrlfAt memory r.2.1) := by
  induction hsize : max_finger - finger using Nat.strong_induction_on generalizing headers finger
    max_len with
  | h size ih =>
    rw [headersLoop] at hloop
    split at hloop
    · rename_i hcond
      split at hloop
      · cases hloop
      · split at hloop
        · cases hloop
        · cases hloop
        · rename_i h finger' max_len' hstep
          have hlt := headerStep_lt hstep
          exact ih (max_finger - finger') (by omega) (.next hat hcond.1 hcond.2 hstep) hloop rfl
    · rename_i hcond
      cases hloop
      refine ⟨hat, ?_⟩
      intro hlt
      by_contra hcrlf
      exact hcond ⟨hlt, hcrlf⟩

/-! ## The stored tokens -/

/-- What `parse_headers` is to store: the values lie in the buffer, one behind the other, and the
content is what follows the first empty line; and the finger and the remaining length fit at each
turn of its loop. -/
structure Stored (memory : CString) (max_len : Nat) (r : Headers) : Prop where
  within : ∀ h ∈ r.header_list, Within max_len h
  ordered : r.header_list.Pairwise Before
  content : ∃ e, EmptyLine memory max_len e ∧ (∀ e' < e, ¬ EmptyLine memory max_len e') ∧
    r.content = ⟨some (e + 2), max_len - (e + 2)⟩
  content_nonneg : 0 ≤ r.content.size
  position : ∀ headers finger left, AtHead memory max_len headers finger left →
    finger + left = (max_len : Int)

/-- How a run of `parse_headers` that succeeds ends. -/
theorem head_of_parse_headers {malloc : Nat → Bool} {max_len : Nat} {r : Headers}
    (hlen : max_len ≤ memory.length) (hr : parse_headers malloc memory max_len = some (.ok r)) :
    ∃ finger left, Head memory max_len r.header_list finger left ∧
      (finger + 1 < max_len → CrlfAt memory finger) ∧ r.content = contentAt max_len finger left := by
  rw [parse_headers] at hr
  split at hr
  · cases hr
  · cases hr
  · rename_i header_list finger left hloop
    obtain ⟨hat, hstop⟩ := atHead_of_headersLoop .start hloop
    cases hr
    exact ⟨finger, left, hat.head hlen, hstop, rfl⟩

/-- Where the loop stops in front of the end there is the first empty line. -/
theorem Head.emptyLine {finger : Nat} (hhead : Head memory max_finger headers finger max_len)
    (hlt : finger + 1 < max_finger) (hcrlf : CrlfAt memory finger) :
    EmptyLine memory max_finger finger := by
  refine ⟨hcrlf, hlt, ?_⟩
  rcases hhead.lineStart with hstart | hnone
  · exact hstart
  · exact absurd hcrlf (hnone finger (Nat.le_refl _) hlt)

/-- The tokens are right if and only if the buffer holds an empty line at all. -/
theorem stored_iff {malloc : Nat → Bool} {max_len : Nat} {r : Headers}
    (hlen : max_len ≤ memory.length) (hr : parse_headers malloc memory max_len = some (.ok r)) :
    Stored memory max_len r ↔ ∃ e, EmptyLine memory max_len e := by
  obtain ⟨finger, left, hhead, hstop, hcontent⟩ := head_of_parse_headers hlen hr
  constructor
  · rintro ⟨-, -, ⟨e, he, -⟩, -⟩
    exact ⟨e, he⟩
  · rintro ⟨e, he⟩
    have hlt : finger + 1 < max_len := by
      by_contra hnot
      rcases Nat.lt_or_ge e finger with hlt | hge
      · exact hhead.passed e hlt he
      · have := he.2.1
        omega
    have hposition := hhead.position
    have hsize : contentAt max_len finger left = ⟨some (finger + 2), max_len - (finger + 2)⟩ := by
      rw [contentAt, if_pos hlt, if_pos (by omega)]
      congr 1
      omega
    refine ⟨fun h hmem ↦ (hhead.within h hmem).1, hhead.ordered,
      ⟨finger, hhead.emptyLine hlt (hstop hlt), hhead.passed, hcontent.trans hsize⟩, ?_, ?_⟩
    · rw [hcontent, hsize]
      dsimp only
      omega
    · intro headers' finger' left' hat
      exact (hat.head hlen).position

theorem stored_iff_page : Stored "A: b\r\n\r\nc".toList 9 ⟨[⟨⟨some 0, 1⟩, ⟨some 3, 1⟩⟩], ⟨some 8, 1⟩⟩ ↔
    ∃ e, EmptyLine "A: b\r\n\r\nc".toList 9 e :=
  @stored_iff _ (fun _ ↦ true) 9 _ (by decide) (by decide +kernel)

/-- The buffer ends behind the first character of the value: the content has the size -1. -/
theorem stored_cut_short : ¬ ∀ (malloc : Nat → Bool) (memory : CString) (max_len : Nat) (r : Headers),
    max_len ≤ memory.length → parse_headers malloc memory max_len = some (.ok r) →
      Stored memory max_len r := by
  intro h
  have hparse : parse_headers (fun _ ↦ true) "A: b".toList 4 =
      some (.ok ⟨[⟨⟨some 0, 1⟩, ⟨none, 0⟩⟩], ⟨some 3, -1⟩⟩) := by
    decide +kernel
  have hnonneg := (h _ _ _ _ (by decide) hparse).content_nonneg
  revert hnonneg
  decide

end Upnp.HttpMessage
