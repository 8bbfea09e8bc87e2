import Mathlib.Data.List.DropRight
import Upnp.HttpMessage.Scan
import Upnp.Uri.Characters

/-!
# Start lines

`parse_status_line` and `parse_request_line`.  They cut a line at its blanks, and the scanner for
what is no blank does not stop at the end of the line: a line that is too short takes tokens from
the lines behind it.  An error of `parse_uri` is negative, and is taken for success.
-/

namespace Upnp.HttpMessage

open Upnp.Lib

/-- `http_status`. -/
structure HttpStatus where
  http_version : Token
  status_code : Token
  reason_phrase : Token
deriving DecidableEq, Repr

/-- `http_request`; where `parse_uri` fails there is the error in place of the URI. -/
structure HttpRequest where
  method : Token
  request_uri : Except Int Uri.URI
  http_version : Token

/-- `parse_status_line`: the size and the status, or `none` for the value 0. -/
def parse_status_line (max_size : Int) (memory : CString) : Option (Nat × HttpStatus) :=
  let temp := parse_not_LWS max_size memory
  if temp = 0 then none
  else
    let http_version : Token := ⟨some 0, temp⟩
    let finger := temp
    let max_len := max_size - temp
    let temp := parse_LWS max_len (memory.drop finger)
    let finger := finger + temp
    let max_len := max_len - temp
    let temp := parse_not_LWS max_len (memory.drop finger)
    if temp = 0 then none
    else
      let status_code : Token := ⟨some finger, temp⟩
      let finger := finger + temp
      let max_len := max_len - temp
      let temp := parse_LWS max_len (memory.drop finger)
      let finger := finger + temp
      let max_len := max_len - temp
      let temp := parse_http_line max_len (memory.drop finger)
      if temp = 0 then none
      else some (finger + temp, ⟨http_version, status_code, ⟨some finger, temp - 2⟩⟩)

/-- The value of `parse_uri`. -/
def uriValue : Except Int Uri.URI → Int
  | .ok _ => 1
  | .error code => code

/-- `parse_request_line`: the size and the request, or `none` for the value 0; there is no result
when `parse_uri` looks behind the end of the memory. -/
def parse_request_line (env : Uri.Env) (max_size : Int) (memory : CString) :
    Option (Option (Nat × HttpRequest)) :=
  let temp := parse_token max_size memory
  if temp = 0 then some none
  else
    let method : Token := ⟨some 0, temp⟩
    let finger := temp
    let max_len := max_size - temp
    let temp := parse_LWS max_len (memory.drop finger)
    let finger := finger + temp
    let max_len := max_len - temp
    -- parse request URI (path)
    (Uri.parse_uri env memory finger max_len.toNat).map fun request_uri ↦
      if uriValue request_uri = 0 then none
      else
        let temp := parse_not_LWS max_len (memory.drop finger)
        let finger := finger + temp
        let max_len := max_len - temp
        let temp := parse_LWS max_len (memory.drop finger)
        let finger := finger + temp
        let max_len := max_len - temp
        let temp := parse_http_line max_len (memory.drop finger)
        if temp = 0 then none
        else some (finger + temp, ⟨method, request_uri, ⟨some finger, temp - 2⟩⟩)

/-! ## The first line -/

/-- The text in front of the first CRLF, and what is behind that. -/
structure FirstLine (buffer line rest : CString) : Prop where
  eq : buffer = line ++ '\r' :: '\n' :: rest
  first : ∀ q < line.length, ¬ CrlfAt buffer q

variable {buffer line rest : CString}

theorem FirstLine.crlfAt (h : FirstLine buffer line rest) : CrlfAt buffer line.length := by
  rw [h.eq]
  constructor
  · rw [List.getElem?_append_right (Nat.le_refl _), Nat.sub_self]
    rfl
  · rw [List.getElem?_append_right (Nat.le_add_right _ _), Nat.add_sub_cancel_left]
    rfl

theorem FirstLine.length (h : FirstLine buffer line rest) :
    buffer.length = line.length + 2 + rest.length := by
  rw [h.eq, List.length_append, List.length_cons, List.length_cons]
  omega

/-- There is only one first line. -/
theorem FirstLine.unique {line' rest' : CString} (h : FirstLine buffer line rest)
    (h' : FirstLine buffer line' rest') : line = line' := by
  have hlen : line.length = line'.length := by
    rcases Nat.lt_trichotomy line.length line'.length with hlt | heq | hgt
    · exact absurd h.crlfAt (h'.first _ hlt)
    · exact heq
    · exact absurd h'.crlfAt (h.first _ hgt)
  exact (List.append_inj (h.eq.symm.trans h'.eq) hlen).1

theorem exists_firstLine {q : Nat} (h : CrlfAt buffer q) : ∃ line rest, FirstLine buffer line rest := by
  induction q using Nat.strong_induction_on with
  | h q ih =>
    by_cases hearlier : ∃ q' < q, CrlfAt buffer q'
    · obtain ⟨q', hlt, hcrlf⟩ := hearlier
      exact ih q' hlt hcrlf
    · obtain ⟨hlt, hcr⟩ := List.getElem?_eq_some_iff.mp h.1
      obtain ⟨hlt', hlf⟩ := List.getElem?_eq_some_iff.mp h.2
      refine ⟨buffer.take q, buffer.drop (q + 2), ?_, ?_⟩
      · calc
          buffer = buffer.take q ++ buffer.drop q := (List.take_append_drop q buffer).symm
          _ = _ := by rw [List.drop_eq_getElem_cons hlt, hcr, List.drop_eq_getElem_cons hlt', hlf]
      · intro q' hq' hcrlf
        rw [List.length_take] at hq'
        exact hearlier ⟨q', by omega, hcrlf⟩

/-- From within the first line on, `parse_http_line` goes to its end. -/
theorem FirstLine.parse_http_line (h : FirstLine buffer line rest) {finger : Nat} {max_len : Int}
    (hfinger : finger ≤ line.length) (hmax : finger + max_len = buffer.length) :
    parse_http_line max_len (buffer.drop finger) = line.length - finger + 2 := by
  have hlen := h.length
  have hroom : finger + max_len.toNat ≤ buffer.length := by omega
  rcases parse_http_line_cases hroom with ⟨n, hn, -, hat, hbefore⟩ | ⟨-, hnone⟩
  · rw [hn]
    rcases Nat.lt_trichotomy (finger + n) line.length with hlt | heq | hgt
    · exact absurd hat (h.first _ hlt)
    · omega
    · exact absurd h.crlfAt (hbefore _ hfinger hgt)
  · exact absurd h.crlfAt (hnone _ hfinger (by omega))

/-- A scan that stops within the line or at its end. -/
theorem scan_line {test : Char → Bool} {a : CString} {max : Nat}
    (h : a.dropWhile test ≠ [] ∨ test '\r' = false) (hmax : a.length ≤ max) :
    scan test max (a ++ '\r' :: '\n' :: rest) = (a.takeWhile test).length ∧
      (a ++ '\r' :: '\n' :: rest).drop (a.takeWhile test).length =
        a.dropWhile test ++ '\r' :: '\n' :: rest := by
  have hhead : ∀ c ∈ (a.dropWhile test ++ '\r' :: '\n' :: rest).head?, test c = false := by
    have hnot := List.head?_dropWhile_not test a
    cases hdrop : a.dropWhile test with
    | nil =>
      rintro c hc
      cases hc
      exact h.resolve_left fun hne ↦ hne hdrop
    | cons d v =>
      rintro c hc
      cases hc
      rw [hdrop] at hnot
      simpa using hnot
  have hall : ∀ c ∈ a.takeWhile test, test c := fun c hc ↦ List.mem_takeWhile_imp hc
  have hle : (a.takeWhile test).length ≤ max :=
    (List.takeWhile_sublist test).length_le.trans hmax
  have hsplit : a ++ '\r' :: '\n' :: rest =
      a.takeWhile test ++ (a.dropWhile test ++ '\r' :: '\n' :: rest) := by
    rw [← List.append_assoc, List.takeWhile_append_dropWhile]
  rw [hsplit]
  exact ⟨scan_append hall hhead hle, List.drop_left⟩

/-- A scan that passes the line passes its end. -/
theorem scan_beyond {test : Char → Bool} {a : CString} {max : Nat} (h : a.dropWhile test = [])
    (hcr : test '\r' = true) (hlf : test '\n' = true) (hmax : a.length + 2 ≤ max) :
    a.length + 2 ≤ scan test max (a ++ '\r' :: '\n' :: rest) := by
  induction a generalizing max with
  | nil =>
    obtain ⟨m, rfl⟩ := Nat.exists_eq_add_of_le' hmax
    change 0 + 2 ≤ scan test (m + 1 + 1) ('\r' :: '\n' :: rest)
    rw [scan, if_pos hcr, scan, if_pos hlf]
    exact Nat.le_add_left 2 _
  | cons c a ih =>
    obtain ⟨m, rfl⟩ := Nat.exists_eq_add_of_le' hmax
    have hc : test c = true := List.dropWhile_eq_nil_iff.mp h c List.mem_cons_self
    have ha : a.dropWhile test = [] := by
      rwa [List.dropWhile_cons_of_pos hc] at h
    have hmore := @ih (m + (a.length + 2)) ha (Nat.le_add_left _ _)
    rw [List.cons_append]
    change _ ≤ scan test (m + (a.length + 2) + 1) _
    rw [scan, if_pos hc]
    exact Nat.succ_le_succ hmore

theorem length_takeWhile_add (test : Char → Bool) (a : CString) :
    (a.takeWhile test).length + (a.dropWhile test).length = a.length := by
  rw [← List.length_append, List.takeWhile_append_dropWhile]

/-- From `t` on, the first line goes on with `a`. -/
structure GoesOn (buffer line rest : CString) (t : Nat) (a : CString) : Prop where
  drop : buffer.drop t = a ++ '\r' :: '\n' :: rest
  length : t + a.length = line.length

theorem FirstLine.goesOn (h : FirstLine buffer line rest) : GoesOn buffer line rest 0 line where
  drop := h.eq
  length := Nat.zero_add _

/-- A scan that stops in the line goes on from there. -/
theorem GoesOn.scan {test : Char → Bool} {a : CString} {t n max : Nat}
    (h : GoesOn buffer line rest t a) (hn : n = scan test max (buffer.drop t))
    (hstop : a.dropWhile test ≠ [] ∨ test '\r' = false) (hmax : a.length ≤ max) :
    GoesOn buffer line rest (t + n) (a.dropWhile test) := by
  obtain ⟨hscan, hdrop⟩ := @scan_line rest test a max hstop hmax
  rw [h.drop, hscan] at hn
  constructor
  · rw [← List.drop_drop, h.drop, hn, hdrop]
  · have hsum := length_takeWhile_add test a
    have hlen := h.length
    omega

/-- A scan that passes what the line goes on with passes its end. -/
theorem GoesOn.beyond {test : Char → Bool} {a : CString} {t n max : Nat}
    (h : GoesOn buffer line rest t a) (hn : n = HttpMessage.scan test max (buffer.drop t))
    (hall : a.dropWhile test = []) (hcr : test '\r' = true) (hlf : test '\n' = true)
    (hmax : a.length + 2 ≤ max) : line.length + 2 ≤ t + n := by
  have hbeyond := @scan_beyond rest test a max hall hcr hlf hmax
  rw [h.drop] at hn
  have hlen := h.length
  omega

/-! ## Tokens in a line -/

/-- The tokens that are there lie one behind the other, from `p` on, and end at `n` at the
latest. -/
def InOrder (n : Nat) : Int → List Token → Prop
  | p, [] => p ≤ n
  | p, ⟨none, _⟩ :: ts => InOrder n p ts
  | p, ⟨some b, size⟩ :: ts => p ≤ b ∧ 0 ≤ size ∧ InOrder n (b + size) ts

theorem InOrder.le {n : Nat} {p : Int} {ts : List Token} (h : InOrder n p ts) : p ≤ n := by
  induction ts generalizing p with
  | nil => exact h
  | cons t ts ih =>
    obtain ⟨buff, size⟩ := t
    cases buff with
    | none => exact ih h
    | some b =>
      obtain ⟨hb, hsize, hts⟩ := h
      have := ih hts
      omega

theorem InOrder.mono {n : Nat} {p p' : Int} {ts : List Token} (h : InOrder n p ts) (hp : p' ≤ p) :
    InOrder n p' ts := by
  induction ts with
  | nil => exact hp.trans h
  | cons t ts ih =>
    obtain ⟨buff, size⟩ := t
    cases buff with
    | none => exact ih h
    | some b => exact ⟨hp.trans h.1, h.2⟩

/-- The last token ends in front of `n`. -/
theorem InOrder.of_append {n : Nat} {p : Int} {ts ts' : List Token} (h : InOrder n p (ts ++ ts')) :
    ∃ p', InOrder n p' ts' := by
  induction ts generalizing p with
  | nil => exact ⟨p, h⟩
  | cons t ts ih =>
    obtain ⟨buff, size⟩ := t
    cases buff with
    | none => exact ih h
    | some b => exact ih h.2.2

/-! ## Status lines -/

/-- The tokens of a status line lie in the first line, in order, and the size is that of the line
with its CRLF. -/
def StatusInLine (buffer : CString) (size : Nat) (out : HttpStatus) : Prop :=
  ∃ line rest, FirstLine buffer line rest ∧ size = line.length + 2 ∧
    InOrder line.length 0 [out.http_version, out.status_code, out.reason_phrase]

/-- The line goes on with white space behind its second word. -/
def TwoWords (line : CString) : Prop :=
  ((line.dropWhile (!isLWS ·)).dropWhile isLWS).dropWhile (!isLWS ·) ≠ []

/-- What `parse_status_line` has done when it succeeds. -/
theorem parse_status_line_ok {max_size : Int} {size : Nat} {out : HttpStatus}
    (h : parse_status_line max_size buffer = some (size, out)) :
    ∃ temp₁ temp₂ temp₃ temp₄ temp₅ : Nat,
      temp₁ = parse_not_LWS max_size buffer ∧
      temp₂ = parse_LWS (max_size - temp₁) (buffer.drop temp₁) ∧
      temp₃ = parse_not_LWS (max_size - temp₁ - temp₂) (buffer.drop (temp₁ + temp₂)) ∧
      temp₄ = parse_LWS (max_size - temp₁ - temp₂ - temp₃) (buffer.drop (temp₁ + temp₂ + temp₃)) ∧
      temp₅ = parse_http_line (max_size - temp₁ - temp₂ - temp₃ - temp₄)
        (buffer.drop (temp₁ + temp₂ + temp₃ + temp₄)) ∧ temp₅ ≠ 0 ∧
      size = temp₁ + temp₂ + temp₃ + temp₄ + temp₅ ∧
      out = ⟨⟨some 0, temp₁⟩, ⟨some (temp₁ + temp₂), temp₃⟩,
        ⟨some (temp₁ + temp₂ + temp₃ + temp₄), temp₅ - 2⟩⟩ := by
  rw [parse_status_line] at h
  dsimp only at h
  split at h
  · cases h
  · split at h
    · cases h
    · split at h
      · cases h
      · rename_i hne
        cases h
        exact ⟨_, _, _, _, _, rfl, rfl, rfl, rfl, rfl, hne, rfl, rfl⟩

/-- Where `parse_http_line` succeeds there is a first line. -/
theorem firstLine_of_parse_http_line {finger : Nat} {max_len : Int} (hfinger : finger ≤ buffer.length)
    (hmax : max_len.toNat ≤ buffer.length - finger)
    (h : parse_http_line max_len (buffer.drop finger) ≠ 0) :
    ∃ line rest, FirstLine buffer line rest := by
  rcases parse_http_line_cases (by omega : finger + max_len.toNat ≤ buffer.length) with
    ⟨n, -, -, hat, -⟩ | ⟨hzero, -⟩
  · exact exists_firstLine hat
  · exact absurd hzero h

/-- The tokens of a status line are in the first line if and only if it has two words, with white
space behind each. -/
theorem statusInLine_iff {size : Nat} {out : HttpStatus}
    (h : parse_status_line buffer.length buffer = some (size, out)) :
    StatusInLine buffer size out ↔ ∃ line rest, FirstLine buffer line rest ∧ TwoWords line := by
  obtain ⟨t₁, t₂, t₃, t₄, t₅, h₁, h₂, h₃, h₄, h₅, hne, rfl, rfl⟩ := parse_status_line_ok h
  have hle₁ : t₁ ≤ (buffer.length : Int).toNat := h₁ ▸ scan_le _ _ _
  have hle₂ : t₂ ≤ ((buffer.length : Int) - t₁).toNat := h₂ ▸ scan_le _ _ _
  have hle₃ : t₃ ≤ ((buffer.length : Int) - t₁ - t₂).toNat := h₃ ▸ scan_le _ _ _
  have hle₄ : t₄ ≤ ((buffer.length : Int) - t₁ - t₂ - t₃).toNat := h₄ ▸ scan_le _ _ _
  rw [h₅] at hne
  obtain ⟨line, rest, hline⟩ := firstLine_of_parse_http_line (by omega) (by omega) hne
  have hlen := hline.length
  have hiff : (∃ line rest, FirstLine buffer line rest ∧ TwoWords line) ↔ TwoWords line := by
    constructor
    · rintro ⟨line', rest', hline', htwo⟩
      rwa [hline.unique hline']
    · intro htwo
      exact ⟨line, rest, hline, htwo⟩
  rw [hiff]
  have hspill : ∀ {p : Prop}, (StatusInLine buffer (t₁ + t₂ + t₃ + t₄ + t₅)
      ⟨⟨some 0, t₁⟩, ⟨some (t₁ + t₂), t₃⟩, ⟨some (t₁ + t₂ + t₃ + t₄), t₅ - 2⟩⟩ → t₁ ≤ line.length ∧
        t₁ + t₂ + t₃ ≤ line.length → p) → StatusInLine buffer (t₁ + t₂ + t₃ + t₄ + t₅)
      ⟨⟨some 0, t₁⟩, ⟨some (t₁ + t₂), t₃⟩, ⟨some (t₁ + t₂ + t₃ + t₄), t₅ - 2⟩⟩ → p := by
    intro p hp hin
    refine hp hin ?_
    obtain ⟨line', rest', hline', -, horder⟩ := hin
    rw [← hline.unique hline'] at horder
    obtain ⟨-, -, -, -, horder⟩ := horder
    have := horder.le
    omega
  -- the first word
  have hstart := hline.goesOn
  by_cases hone : line.dropWhile (!isLWS ·) = []
  · have hbeyond := hstart.beyond h₁ hone (by decide) (by decide) (by omega)
    refine iff_of_false (hspill fun _ hle ↦ ?_) ?_
    · omega
    · rw [TwoWords, hone]
      exact fun h ↦ h rfl
  have hword := hstart.scan h₁ (.inl hone) (by omega)
  rw [Nat.zero_add] at hword
  -- the white space behind it
  have hlen₁ := hword.length
  have hspace := hword.scan h₂ (.inr (by decide)) (by omega)
  -- the second word
  have hlen₂ := hspace.length
  by_cases htwo : TwoWords line
  · have hword' := hspace.scan h₃ (.inl htwo) (by omega)
    have hlen₃ := hword'.length
    have hspace' := hword'.scan h₄ (.inr (by decide)) (by omega)
    have hlen₄ := hspace'.length
    rw [hline.parse_http_line (by omega) (by omega)] at h₅
    refine iff_of_true ⟨line, rest, hline, by omega, ?_⟩ htwo
    refine ⟨Int.le_refl 0, Int.natCast_nonneg _, ?_, Int.natCast_nonneg _, ?_, ?_, ?_⟩
    · omega
    · omega
    · omega
    · change ((t₁ + t₂ + t₃ + t₄ : Nat) : Int) + ((t₅ : Int) - 2) ≤ line.length
      omega
  · refine iff_of_false (hspill fun _ hle ↦ ?_) htwo
    have hbeyond := hspace.beyond h₃ (not_not.mp htwo) (by decide) (by decide) (by omega)
    omega

/-! ## Request lines -/

/-- The tokens of a URI. -/
def uriTokens (u : Uri.URI) : List Token :=
  [⟨u.scheme.buff, u.scheme.size⟩, ⟨u.hostport.text.buff, u.hostport.text.size⟩,
    ⟨u.pathquery.buff, u.pathquery.size⟩, ⟨u.fragment.buff, u.fragment.size⟩]

/-- The URI of a request line is accepted, the tokens lie in the first line, in order, and the size is
that of the line with its CRLF. -/
def RequestInLine (buffer : CString) (size : Nat) (out : HttpRequest) : Prop :=
  ∃ line rest u, FirstLine buffer line rest ∧ size = line.length + 2 ∧ out.request_uri = .ok u ∧
    InOrder line.length 0 (out.method :: (uriTokens u ++ [out.http_version]))

/-- The line from the URI on. -/
def behindMethod (line : CString) : CString := (line.dropWhile isToken).dropWhile isLWS

/-- The line goes on with white space behind the URI, and `parse_uri` accepts that. -/
def UriAndVersion (env : Uri.Env) (buffer line : CString) : Prop :=
  (behindMethod line).dropWhile (!isLWS ·) ≠ [] ∧
    ∃ u, Uri.parse_uri env buffer (line.length - (behindMethod line).length)
      (buffer.length - (line.length - (behindMethod line).length)) = some (.ok u)

/-- What `parse_request_line` has done when it succeeds. -/
theorem parse_request_line_ok {env : Uri.Env} {max_size : Int} {size : Nat} {out : HttpRequest}
    (h : parse_request_line env max_size buffer = some (some (size, out))) :
    ∃ (temp₁ temp₂ temp₃ temp₄ temp₅ : Nat) (request_uri : Except Int Uri.URI),
      temp₁ = parse_token max_size buffer ∧
      temp₂ = parse_LWS (max_size - temp₁) (buffer.drop temp₁) ∧
      Uri.parse_uri env buffer (temp₁ + temp₂) (max_size - temp₁ - temp₂).toNat =
        some request_uri ∧
      temp₃ = parse_not_LWS (max_size - temp₁ - temp₂) (buffer.drop (temp₁ + temp₂)) ∧
      temp₄ = parse_LWS (max_size - temp₁ - temp₂ - temp₃) (buffer.drop (temp₁ + temp₂ + temp₃)) ∧
      temp₅ = parse_http_line (max_size - temp₁ - temp₂ - temp₃ - temp₄)
        (buffer.drop (temp₁ + temp₂ + temp₃ + temp₄)) ∧ temp₅ ≠ 0 ∧
      size = temp₁ + temp₂ + temp₃ + temp₄ + temp₅ ∧
      out = ⟨⟨some 0, temp₁⟩, request_uri, ⟨some (temp₁ + temp₂ + temp₃ + temp₄), temp₅ - 2⟩⟩ := by
  rw [parse_request_line] at h
  dsimp only at h
  split at h
  · cases h
  · obtain ⟨request_uri, huri, h⟩ := Option.map_eq_some_iff.mp h
    split at h
    · cases h
    · split at h
      · cases h
      · rename_i hne
        cases h
        exact ⟨_, _, _, _, _, request_uri, rfl, rfl, huri, rfl, rfl, rfl, hne, rfl, rfl⟩

/-- The tokens of a URI lie in its text. -/
theorem uriTokens_inOrder {u : Uri.URI} {memory : CString} {pos max n p' : Nat} {p : Int}
    {ts : List Token} (hslices : u.Slices memory pos max) (hp : p ≤ pos)
    (hend : pos + u.extent ≤ p') (hts : InOrder n p' ts) : InOrder n p (uriTokens u ++ ts) := by
  obtain ⟨hscheme, hhost, hpath, hfragment, -, -, -⟩ := hslices
  have hscheme : u.scheme = ⟨none, 0⟩ ∨ u.scheme.buff = some pos ∧
      u.scheme.size < u.schemeExtent := by
    rcases hscheme with ⟨-, hnone⟩ | ⟨htype, hbuff, -⟩
    · exact .inl hnone
    · refine .inr ⟨hbuff, ?_⟩
      rw [Uri.URI.schemeExtent, if_pos htype]
      exact Nat.lt_succ_self _
  have hhost : u.hostport.text = ⟨none, 0⟩ ∨
      u.hostport.text.buff = some (pos + u.schemeExtent + 2) ∧
        2 + u.hostport.text.size = u.hostport.extent := by
    rcases hhost with hnone | hbuff
    · exact .inl hnone
    · refine .inr ⟨hbuff, ?_⟩
      rw [Uri.HostPort.extent, hbuff, if_neg (Option.some_ne_none _)]
  have hfragment : u.fragment = ⟨none, 0⟩ ∧ u.fragmentExtent = 0 ∨
      u.fragment.buff = some (pos + u.begin_path + u.pathquery.size + 1) ∧
        u.fragmentExtent = u.fragment.size + 1 := by
    rw [Uri.URI.fragmentExtent]
    rcases hfragment with hnone | hbuff
    · rw [hnone]
      exact .inl ⟨rfl, rfl⟩
    · rw [hbuff, if_neg (Option.some_ne_none _)]
      exact .inr ⟨rfl, rfl⟩
  rw [Uri.URI.extent] at hend
  have hbegin : u.begin_path = u.schemeExtent + u.hostport.extent := rfl
  -- from the last token to the first
  have h₄ : InOrder n (pos + u.begin_path + u.pathquery.size : Nat)
      (⟨u.fragment.buff, u.fragment.size⟩ :: ts) := by
    rcases hfragment with ⟨hnone, -⟩ | ⟨hbuff, hsize⟩
    · rw [hnone]
      exact hts.mono (by omega)
    · rw [hbuff]
      exact ⟨by omega, Int.natCast_nonneg _, hts.mono (by omega)⟩
  have h₃ : InOrder n (pos + u.begin_path : Nat) (⟨u.pathquery.buff, u.pathquery.size⟩ ::
      ⟨u.fragment.buff, u.fragment.size⟩ :: ts) := by
    rw [hpath]
    exact ⟨Int.le_refl _, Int.natCast_nonneg _, h₄.mono (by omega)⟩
  have h₂ : InOrder n (pos + u.schemeExtent : Nat)
      (⟨u.hostport.text.buff, u.hostport.text.size⟩ :: ⟨u.pathquery.buff, u.pathquery.size⟩ ::
        ⟨u.fragment.buff, u.fragment.size⟩ :: ts) := by
    rcases hhost with hnone | ⟨hbuff, hsize⟩
    · rw [hnone]
      exact h₃.mono (by omega)
    · rw [hbuff]
      exact ⟨by omega, Int.natCast_nonneg _, h₃.mono (by omega)⟩
  change InOrder n p (⟨u.scheme.buff, u.scheme.size⟩ ::
    ⟨u.hostport.text.buff, u.hostport.text.size⟩ :: ⟨u.pathquery.buff, u.pathquery.size⟩ ::
      ⟨u.fragment.buff, u.fragment.size⟩ :: ts)
  rcases hscheme with hnone | ⟨hbuff, hsize⟩
  · rw [hnone]
    exact h₂.mono (by omega)
  · rw [hbuff]
    exact ⟨hp, Int.natCast_nonneg _, h₂.mono (by omega)⟩

/-- A URI in the line ends where the white space behind it begins. -/
theorem extent_le_of_gap {env : Uri.Env} {pos max : Nat} {u : Uri.URI} {a tail : CString}
    (h : Uri.parse_uri env buffer pos max = some (.ok u))
    (hdrop : buffer.drop pos = a ++ tail) (hne : a.dropWhile (!isLWS ·) ≠ []) :
    u.extent ≤ (a.takeWhile (!isLWS ·)).length := by
  by_contra hlt
  obtain ⟨d, v, hv⟩ := List.exists_cons_of_ne_nil hne
  have hd : isLWS d = true := by
    have hnot := List.head?_dropWhile_not (!isLWS ·) a
    rw [hv] at hnot
    simpa using hnot
  have hget : (buffer.drop pos)[(a.takeWhile (!isLWS ·)).length]? = some d := by
    have hsplit : a ++ tail = a.takeWhile (!isLWS ·) ++ (d :: v ++ tail) := by
      rw [← hv, ← List.append_assoc, List.takeWhile_append_dropWhile]
    rw [hdrop, hsplit, List.getElem?_append_right (Nat.le_refl _), Nat.sub_self]
    rfl
  have hmem : d ∈ (buffer.drop pos).take u.extent := by
    refine List.mem_of_getElem? (i := (a.takeWhile (!isLWS ·)).length) ?_
    rw [List.getElem?_take_of_lt (by omega)]
    exact hget
  have hgap := Uri.parse_uri_gap h d hmem
  rw [isLWS, Bool.or_eq_true, decide_eq_true_eq, decide_eq_true_eq] at hd
  rcases hd with rfl | rfl
  · revert hgap
    decide
  · revert hgap
    decide

/-- The tokens of a request line are as they should be if and only if the URI is accepted and there
is white space behind it. -/
theorem requestInLine_iff {env : Uri.Env} {size : Nat} {out : HttpRequest}
    (h : parse_request_line env buffer.length buffer = some (some (size, out))) :
    RequestInLine buffer size out ↔
      ∃ line rest, FirstLine buffer line rest ∧ UriAndVersion env buffer line := by
  obtain ⟨t₁, t₂, t₃, t₄, t₅, request_uri, h₁, h₂, huri, h₃, h₄, h₅, hne, rfl, rfl⟩ :=
    parse_request_line_ok h
  have hle₁ : t₁ ≤ (buffer.length : Int).toNat := h₁ ▸ scan_le _ _ _
  have hle₂ : t₂ ≤ ((buffer.length : Int) - t₁).toNat := h₂ ▸ scan_le _ _ _
  have hle₃ : t₃ ≤ ((buffer.length : Int) - t₁ - t₂).toNat := h₃ ▸ scan_le _ _ _
  have hle₄ : t₄ ≤ ((buffer.length : Int) - t₁ - t₂ - t₃).toNat := h₄ ▸ scan_le _ _ _
  rw [h₅] at hne
  obtain ⟨line, rest, hline⟩ := firstLine_of_parse_http_line (by omega) (by omega) hne
  have hlen := hline.length
  -- the method, and the white space behind it
  have hmethod := hline.goesOn.scan h₁ (.inr (by decide)) (by omega)
  rw [Nat.zero_add] at hmethod
  have hlen₁ := hmethod.length
  have huriAt : GoesOn buffer line rest (t₁ + t₂) (behindMethod line) :=
    hmethod.scan h₂ (.inr (by decide)) (by omega)
  have hlen₂ := huriAt.length
  have hstart : t₁ + t₂ = line.length - (behindMethod line).length := by omega
  have hroom : ((buffer.length : Int) - t₁ - t₂).toNat =
      buffer.length - (line.length - (behindMethod line).length) := by omega
  have hiff : (∃ line rest, FirstLine buffer line rest ∧ UriAndVersion env buffer line) ↔
      (behindMethod line).dropWhile (!isLWS ·) ≠ [] ∧ ∃ u, request_uri = .ok u := by
    have hthis : UriAndVersion env buffer line ↔
        (behindMethod line).dropWhile (!isLWS ·) ≠ [] ∧ ∃ u, request_uri = .ok u := by
      rw [UriAndVersion, ← hroom, ← hstart, huri]
      simp only [Option.some.injEq]
    rw [← hthis]
    constructor
    · rintro ⟨line', rest', hline', huv⟩
      rwa [hline.unique hline']
    · intro huv
      exact ⟨line, rest, hline, huv⟩
  rw [hiff]
  by_cases hversion : (behindMethod line).dropWhile (!isLWS ·) = []
  · refine iff_of_false ?_ fun hcond ↦ hcond.1 hversion
    rintro ⟨line', rest', u, hline', -, -, horder⟩
    have hbeyond := huriAt.beyond h₃ hversion (by decide) (by decide) (by omega)
    rw [← hline.unique hline'] at horder
    obtain ⟨p', hlast⟩ := @InOrder.of_append line.length 0
      (⟨some 0, t₁⟩ :: uriTokens u) [⟨some (t₁ + t₂ + t₃ + t₄), t₅ - 2⟩] horder
    obtain ⟨-, hnonneg, hend⟩ := hlast
    have := hend.le
    omega
  · have hspace := huriAt.scan h₃ (.inl hversion) (by omega)
    have hlen₃ := hspace.length
    have hversionAt := hspace.scan h₄ (.inr (by decide)) (by omega)
    have hlen₄ := hversionAt.length
    have hsum := length_takeWhile_add (!isLWS ·) (behindMethod line)
    rw [hline.parse_http_line (by omega) (by omega)] at h₅
    constructor
    · rintro ⟨-, -, u, -, -, hu, -⟩
      exact ⟨hversion, u, hu⟩
    · rintro ⟨-, u, rfl⟩
      have hslices := Uri.parse_uri_slices (by omega) huri
      have hextent := extent_le_of_gap huri huriAt.drop hversion
      refine ⟨line, rest, u, hline, by omega, rfl, Int.le_refl 0, Int.natCast_nonneg _, ?_⟩
      have hlast : InOrder line.length (t₁ + t₂ + t₃ : Nat)
          [⟨some (t₁ + t₂ + t₃ + t₄), t₅ - 2⟩] := by
        refine ⟨by omega, by omega, ?_⟩
        change ((t₁ + t₂ + t₃ + t₄ : Nat) : Int) + ((t₅ : Int) - 2) ≤ line.length
        omega
      exact uriTokens_inOrder hslices (by omega) (by omega) hlast

/-- Both kinds of start lines. -/
theorem startLine_iff {env : Uri.Env} {response request : CString} {size size' : Nat}
    {status : HttpStatus} {out : HttpRequest}
    (hstatus : parse_status_line response.length response = some (size, status))
    (hrequest : parse_request_line env request.length request = some (some (size', out))) :
    (StatusInLine response size status ↔
        ∃ line rest, FirstLine response line rest ∧ TwoWords line) ∧
      (RequestInLine request size' out ↔
        ∃ line rest, FirstLine request line rest ∧ UriAndVersion env request line) :=
  ⟨statusInLine_iff hstatus, requestInLine_iff hrequest⟩

/-- A status line and a request line with all their words. -/
theorem startLine_iff_words :
    (StatusInLine "HTTP/1.1 200 OK\r\n".toList 17 ⟨⟨some 0, 8⟩, ⟨some 9, 3⟩, ⟨some 13, 2⟩⟩ ↔
        ∃ line rest, FirstLine "HTTP/1.1 200 OK\r\n".toList line rest ∧ TwoWords line) ∧
      ∃ out, RequestInLine "GET /a HTTP/1.1\r\n".toList 17 out ↔
        ∃ line rest, FirstLine "GET /a HTTP/1.1\r\n".toList line rest ∧
          UriAndVersion ⟨true, fun _ ↦ none⟩ "GET /a HTTP/1.1\r\n".toList line := by
  have hrequest : ∃ out, parse_request_line ⟨true, fun _ ↦ none⟩ 17 "GET /a HTTP/1.1\r\n".toList =
      some (some (17, out)) := ⟨_, rfl⟩
  obtain ⟨out, hout⟩ := hrequest
  have hboth := @startLine_iff ⟨true, fun _ ↦ none⟩ "HTTP/1.1 200 OK\r\n".toList
    "GET /a HTTP/1.1\r\n".toList _ _ _ _ rfl hout
  exact ⟨hboth.1, out, hboth.2⟩

/-- A status line of one word takes its status code from the next line, and a request line keeps a
URI whose host is not found. -/
theorem startLine_taken :
    (¬ ∀ (buffer : CString) (size : Nat) (out : HttpStatus),
      parse_status_line buffer.length buffer = some (size, out) → StatusInLine buffer size out) ∧
    ¬ ∀ (env : Uri.Env) (buffer : CString) (size : Nat) (out : HttpRequest),
      parse_request_line env buffer.length buffer = some (some (size, out)) →
        RequestInLine buffer size out := by
  constructor
  · intro h
    have hin := h "HTTP/1.1\r\nA: b c\r\n".toList _ _ rfl
    obtain ⟨line, rest, hline, hsize, -⟩ := hin
    have hfirst : FirstLine "HTTP/1.1\r\nA: b c\r\n".toList "HTTP/1.1".toList
        "A: b c\r\n".toList := ⟨by decide, by decide⟩
    rw [← hfirst.unique hline] at hsize
    revert hsize
    decide
  · intro h
    have hrequest : ∃ out, parse_request_line ⟨true, fun _ ↦ none⟩ 23
        "GET http://h HTTP/1.1\r\n".toList = some (some (23, out)) ∧
          out.request_uri = .error Uri.UPNP_E_INVALID_URL := ⟨_, rfl, rfl⟩
    obtain ⟨out, hout, herror⟩ := hrequest
    obtain ⟨-, -, u, -, -, hu, -⟩ := h _ "GET http://h HTTP/1.1\r\n".toList _ _ hout
    rw [herror] at hu
    cases hu

end Upnp.HttpMessage
