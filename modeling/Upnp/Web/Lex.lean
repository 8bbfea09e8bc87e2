import Upnp.Web.Scanner

/-!
# The tokens of a text

What `readNextToken` reads, as a function of the text that a reader has left, and the scanner that a
`Tokenizer` over a text is.
-/

namespace Upnp.Web

open Upnp.Lib
open TokenType Exception

/-- The loop over a quoted string, which drops the backslash of an escape: its text, and what is
behind it. -/
def lexQuoted : CString → CString → Except Exception (CString × CString)
  | _, [] => .error TokenizerException
  | s, c :: rest =>
    if c = '"' then .ok (s ++ [c], rest)
    else if c = '\\' then
      match rest with
      | [] => .error TokenizerException
      | d :: rest =>
        if 1 ≤ d.toNat ∧ d.toNat < 127 then lexQuoted (s ++ [d]) rest else .error TokenizerException
    else if IsQdText c then lexQuoted (s ++ [c]) rest
    else .error TokenizerException

/-- The first token of a text that is not empty, and the text behind it. -/
def lexToken (c : Char) (rest : CString) : Except Exception (Token × CString) :=
  if IsIdentifierChar c then
    .ok (⟨IDENTIFIER, c :: rest.takeWhile IsIdentifierChar⟩, rest.dropWhile IsIdentifierChar)
  else if IsWhitespace c then
    .ok (⟨WHITESPACE, c :: rest.takeWhile IsWhitespace⟩, rest.dropWhile IsWhitespace)
  else if c = '\r' then
    if rest.head? = some '\n' then .ok (⟨CRLF, ['\r', '\n']⟩, rest.tail)
    else .error TokenizerException
  else if c = '\n' then .ok (⟨CRLF, ['\r', '\n']⟩, rest)
  else if c = '"' then
    match lexQuoted [c] rest with
    | .error e => .error e
    | .ok (s, rest) => .ok (⟨QUOTED_STRING, s⟩, rest)
  else if IsControlChar c then .ok (⟨CTRL, [c]⟩, rest)
  else if IsSeparator c then .ok (⟨SEPARATOR, [c]⟩, rest)
  else .error TokenizerException

theorem lexQuoted_le {s text s' rest : CString} (h : lexQuoted s text = .ok (s', rest)) :
    rest.length < text.length := by
  fun_induction lexQuoted s text with
  | case1 => cases h
  | case2 =>
    cases h
    exact Nat.lt_succ_self _
  | case3 => cases h
  | case4 s d rest' hd hq ih => exact (ih h).trans (Nat.lt_succ_of_lt (Nat.lt_succ_self _))
  | case5 => cases h
  | case6 s c rest' hq hc hqd ih => exact (ih h).trans (Nat.lt_succ_self _)
  | case7 => cases h

theorem lexToken_le {c : Char} {rest rest' : CString} {t : Token}
    (h : lexToken c rest = .ok (t, rest')) : rest'.length ≤ rest.length := by
  rw [lexToken] at h
  split at h
  · cases h
    exact (List.dropWhile_sublist _).length_le
  split at h
  · cases h
    exact (List.dropWhile_sublist _).length_le
  split at h
  · split at h
    · cases h
      exact (List.tail_sublist rest).length_le
    · cases h
  split at h
  · cases h
    exact Nat.le_refl _
  split at h
  · split at h
    · cases h
    · next hquoted =>
      cases h
      exact Nat.le_of_lt (lexQuoted_le hquoted)
  split at h
  · cases h
    exact Nat.le_refl _
  split at h
  · cases h
    exact Nat.le_refl _
  · cases h

/-- The tokens of a text, and the exception that ends them. -/
def lex : CString → List Token × Option Exception
  | [] => ([], none)
  | c :: rest =>
    match hlex : lexToken c rest with
    | .error e => ([], some e)
    | .ok (t, rest') => (t :: (lex rest').1, (lex rest').2)
termination_by text => text.length
decreasing_by all_goals exact Nat.lt_succ_of_le (lexToken_le hlex)

/-- A scanner over a text. -/
def scannerOf (text : CString) : Scanner := ⟨[], [], (lex text).1, (lex text).2⟩

theorem lex_nil : lex [] = ([], none) := by rw [lex]

theorem lex_cons {c : Char} {rest rest' : CString} {t : Token} (h : lexToken c rest = .ok (t, rest')) :
    lex (c :: rest) = (t :: (lex rest').1, (lex rest').2) := by
  rw [lex]
  split
  · next heq =>
    rw [h] at heq
    cases heq
  · next heq =>
    rw [h] at heq
    cases heq
    rfl

theorem lex_error {c : Char} {rest : CString} {e : Exception} (h : lexToken c rest = .error e) :
    lex (c :: rest) = ([], some e) := by
  rw [lex]
  split
  · next heq =>
    rw [h] at heq
    cases heq
    rfl
  · next heq =>
    rw [h] at heq
    cases heq

/-! ## The scanner of a reader -/

section Reader

variable {σ : Type} [CharReader σ] [LawfulReader σ]

open CharReader LawfulReader

omit [LawfulReader σ] in
theorem readQuoted_escape {r r₁ : σ} (s : CString) (heos : endOfStream r = false)
    (hget : getChar r = (.ok '\\', r₁)) : readQuoted r s =
      if endOfStream r₁ = true then (.error TokenizerException, r₁)
      else
        match getChar r₁ with
        | (.error e, reader) => (.error e, reader)
        | (.ok d, reader) =>
          if 1 ≤ d.toNat ∧ d.toNat < 127 then readQuoted reader (s ++ [d])
          else (.error TokenizerException, reader) := by
  rw [readQuoted.eq_def, dif_neg (by rw [heos]; decide)]
  split
  · rename_i heq
    rw [hget] at heq
    cases heq
  · rename_i heq
    rw [hget] at heq
    cases heq
    rw [if_neg (by decide), if_pos rfl]
    split
    · rfl
    · split <;> rename_i heq <;> rw [heq]

theorem readQuoted_nil {r : σ} (s : CString) (hready : Ready r) (hstarted : Started r)
    (hleft : left r = []) : ∃ r', readQuoted r s = (.error TokenizerException, r') := by
  by_cases heos : endOfStream r = true
  · exact ⟨r, by rw [readQuoted.eq_def, dif_pos heos]⟩
  · rw [Bool.not_eq_true] at heos
    obtain ⟨r₁, hget, -⟩ := getChar_nil hready heos hleft hstarted
    refine ⟨r₁, ?_⟩
    rw [readQuoted_step s heos hget (by decide), if_neg (by decide), if_neg (by decide)]

/-- A quoted string is read as it is lexed. -/
theorem readQuoted_lex {r : σ} {text : CString} (s : CString) (hready : Ready r) (hstarted : Started r)
    (hleft : left r = text) : match lexQuoted s text with
      | .error e => ∃ r', readQuoted r s = (.error e, r')
      | .ok (s', rest) => ∃ r', readQuoted r s = (.ok s', r') ∧ Ready r' ∧ left r' = rest := by
  fun_induction lexQuoted s text generalizing r with
  | case1 s => exact readQuoted_nil s hready hstarted hleft
  | case2 s rest =>
    have heos := endOfStream_of_left hleft
    obtain ⟨r₁, hget, hready₁, -, hleft₁, -⟩ := getChar_cons hready heos hleft
    refine ⟨r₁, ?_, hready₁, hleft₁⟩
    rw [readQuoted_step s heos hget (by decide), if_pos rfl]
  | case3 s hquote =>
    have heos := endOfStream_of_left hleft
    obtain ⟨r₁, hget, hready₁, hstarted₁, hleft₁, -⟩ := getChar_cons hready heos hleft
    dsimp only
    rw [readQuoted_escape s heos hget]
    by_cases heos₁ : endOfStream r₁ = true
    · exact ⟨r₁, if_pos heos₁⟩
    · rw [if_neg heos₁]
      rw [Bool.not_eq_true] at heos₁
      obtain ⟨r₂, hget₂, -⟩ := getChar_nil hready₁ heos₁ hleft₁ hstarted₁
      rw [hget₂]
      exact ⟨r₂, if_neg (by decide)⟩
  | case4 s d rest hd hquote ih =>
    have heos := endOfStream_of_left hleft
    obtain ⟨r₁, hget, hready₁, -, hleft₁, -⟩ := getChar_cons hready heos hleft
    have heos₁ := endOfStream_of_left hleft₁
    obtain ⟨r₂, hget₂, hready₂, hstarted₂, hleft₂, -⟩ := getChar_cons hready₁ heos₁ hleft₁
    rw [readQuoted_escape s heos hget, if_neg (by rw [heos₁]; decide), hget₂]
    dsimp only
    rw [if_pos hd]
    exact ih hready₂ hstarted₂ hleft₂
  | case5 s d rest hd hquote =>
    have heos := endOfStream_of_left hleft
    obtain ⟨r₁, hget, hready₁, -, hleft₁, -⟩ := getChar_cons hready heos hleft
    have heos₁ := endOfStream_of_left hleft₁
    obtain ⟨r₂, hget₂, -⟩ := getChar_cons hready₁ heos₁ hleft₁
    dsimp only
    rw [readQuoted_escape s heos hget, if_neg (by rw [heos₁]; decide), hget₂]
    exact ⟨r₂, if_neg hd⟩
  | case6 s c rest hquote hescape hqd ih =>
    have heos := endOfStream_of_left hleft
    obtain ⟨r₁, hget, hready₁, hstarted₁, hleft₁, -⟩ := getChar_cons hready heos hleft
    rw [readQuoted_step s heos hget hescape, if_neg hquote, if_pos hqd]
    exact ih hready₁ hstarted₁ hleft₁
  | case7 s c rest hquote hescape hqd =>
    have heos := endOfStream_of_left hleft
    obtain ⟨r₁, hget, -⟩ := getChar_cons hready heos hleft
    dsimp only
    rw [readQuoted_step s heos hget hescape, if_neg hquote, if_neg hqd]
    exact ⟨r₁, rfl⟩

/-- A token is read as it is lexed. -/
theorem readNextToken_lex {r : σ} {c : Char} {rest : CString} (hready : Ready r)
    (hleft : left r = c :: rest) : match lexToken c rest with
      | .error e => ∃ r', readNextToken r = (.error e, r')
      | .ok (t, rest') => ∃ r', readNextToken r = (.ok t, r') ∧ Ready r' ∧ left r' = rest' := by
  have heos := endOfStream_of_left hleft
  obtain ⟨r₁, hget, hready₁, hstarted₁, hleft₁, -⟩ := getChar_cons hready heos hleft
  have hread : readNextToken r = readNextToken r := rfl
  conv_rhs at hread => unfold readNextToken
  rw [heos, if_neg (by decide), hget] at hread
  dsimp only at hread
  rw [hread, lexToken]
  by_cases hident : IsIdentifierChar c
  · obtain ⟨r', hloop, hready', hleft'⟩ :=
      readWhile_spec (p := IsIdentifierChar) (by decide) [c] hready₁ hstarted₁ hleft₁
    rw [if_pos hident, if_pos hident, hloop]
    exact ⟨r', rfl, hready', hleft'⟩
  rw [if_neg hident, if_neg hident]
  by_cases hws : IsWhitespace c
  · obtain ⟨r', hloop, hready', hleft'⟩ :=
      readWhile_spec (p := IsWhitespace) (by decide) [c] hready₁ hstarted₁ hleft₁
    rw [if_pos hws, if_pos hws, hloop]
    exact ⟨r', rfl, hready', hleft'⟩
  rw [if_neg hws, if_neg hws]
  by_cases hcr : c = '\r'
  · rw [if_pos hcr, if_pos hcr]
    cases rest with
    | nil =>
      by_cases heos₁ : endOfStream r₁ = true
      · rw [if_pos heos₁]
        exact ⟨r₁, rfl⟩
      · rw [if_neg heos₁]
        rw [Bool.not_eq_true] at heos₁
        obtain ⟨r₂, hget₂, -⟩ := getChar_nil hready₁ heos₁ hleft₁ hstarted₁
        rw [hget₂]
        exact ⟨r₂, rfl⟩
    | cons d rest =>
      have heos₁ := endOfStream_of_left hleft₁
      obtain ⟨r₂, hget₂, hready₂, -, hleft₂, -⟩ := getChar_cons hready₁ heos₁ hleft₁
      rw [heos₁, hget₂]
      by_cases hlf : d = '\n'
      · subst hlf
        rw [List.head?_cons, if_pos rfl]
        exact ⟨r₂, rfl, hready₂, hleft₂⟩
      · have hne : ¬ (d :: rest).head? = some '\n' := fun heq ↦ hlf (Option.some.inj heq)
        rw [if_neg hne]
        refine ⟨r₂, ?_⟩
        show (if d = '\n' then _ else _) = _
        rw [if_neg hlf]
  rw [if_neg hcr, if_neg hcr]
  by_cases hlf : c = '\n'
  · rw [if_pos hlf, if_pos hlf]
    exact ⟨r₁, rfl, hready₁, hleft₁⟩
  rw [if_neg hlf, if_neg hlf]
  by_cases hquote : c = '"'
  · rw [if_pos hquote, if_pos hquote]
    have hquoted := readQuoted_lex [c] hready₁ hstarted₁ hleft₁
    cases hlex : lexQuoted [c] rest with
    | error e =>
      rw [hlex] at hquoted
      obtain ⟨r', hloop⟩ := hquoted
      rw [hloop]
      exact ⟨r', rfl⟩
    | ok p =>
      rw [hlex] at hquoted
      obtain ⟨r', hloop, hready', hleft'⟩ := hquoted
      rw [hloop]
      exact ⟨r', rfl, hready', hleft'⟩
  rw [if_neg hquote, if_neg hquote]
  by_cases hcontrol : IsControlChar c
  · rw [if_pos hcontrol, if_pos hcontrol]
    exact ⟨r₁, rfl, hready₁, hleft₁⟩
  rw [if_neg hcontrol, if_neg hcontrol]
  by_cases hsep : IsSeparator c
  · rw [if_pos hsep, if_pos hsep]
    exact ⟨r₁, rfl, hready₁, hleft₁⟩
  rw [if_neg hsep, if_neg hsep]
  exact ⟨r₁, rfl⟩

/-- A reader gives the tokens of a scanner's source. -/
inductive LexesTo : σ → List Token → Option Exception → Prop where
  | done {r : σ} (h : endOfStream r = true) : LexesTo r [] none
  | failed {r r' : σ} {e : Exception} (h : readNextToken r = (.error e, r')) : LexesTo r [] (some e)
  | token {r r' : σ} {t : Token} {ts : List Token} {failure : Option Exception}
      (h : readNextToken r = (.ok t, r')) (hmore : LexesTo r' ts failure) : LexesTo r (t :: ts) failure

/-- A text that a reader has left is lexed, if the reader knows where it ends. -/
theorem lexesTo_lex (hend : ∀ r : σ, Ready r → left r = [] → endOfStream r = true) {r : σ}
    (hready : Ready r) : LexesTo r (lex (left r)).1 (lex (left r)).2 := by
  induction hn : (left r).length using Nat.strong_induction_on generalizing r with
  | h n ih =>
    cases hleft : left r with
    | nil =>
      rw [lex_nil]
      exact .done (hend r hready hleft)
    | cons c rest =>
      have hread := readNextToken_lex hready hleft
      cases hlex : lexToken c rest with
      | error e =>
        rw [hlex] at hread
        obtain ⟨r', hread⟩ := hread
        rw [lex_error hlex]
        exact .failed hread
      | ok p =>
        obtain ⟨t, rest'⟩ := p
        rw [hlex] at hread
        obtain ⟨r', hread, hready', hleft'⟩ := hread
        rw [lex_cons hlex, ← hleft']
        have hlt : (left r').length < n := by
          rw [← hn, hleft, hleft']
          exact Nat.lt_succ_of_le (lexToken_le hlex)
        exact .token hread (ih _ hlt hready' rfl)

/-- A `Tokenizer` and the scanner that it is. -/
structure Reads (scanner : Tokenizer σ) (s : Scanner) : Prop where
  returned : scanner.returned = s.returned
  pending : scanner.pending = s.pending
  source : LexesTo scanner.reader s.source s.failure

omit [LawfulReader σ] in
/-- A token is got from both, or both throw the same exception. -/
theorem Reads.getToken {scanner : Tokenizer σ} {s : Scanner} (h : Reads scanner s) :
    match scanner.getToken, Upnp.Web.getToken s with
    | (.ok t, scanner'), (.ok t', s') => t = t' ∧ Reads scanner' s'
    | (.error e, _), (.error e', _) => e' = .ofScanner e
    | _, _ => False := by
  obtain ⟨returned, pending, reader⟩ := scanner
  obtain ⟨returned', pending', source, failure⟩ := s
  obtain ⟨rfl, rfl, hsource⟩ := h
  cases pending with
  | cons t pending => exact ⟨rfl, rfl, rfl, hsource⟩
  | nil =>
    dsimp only at hsource
    cases hsource with
    | done h =>
      have hread : readNextToken reader = (.ok ⟨END_OF_STREAM, []⟩, reader) := by
        unfold readNextToken
        rw [if_pos h]
      simp only [Tokenizer.getToken, Upnp.Web.getToken, hread]
      exact ⟨trivial, rfl, rfl, .done h⟩
    | failed h =>
      simp only [Tokenizer.getToken, Upnp.Web.getToken, h]
    | token h hmore =>
      simp only [Tokenizer.getToken, Upnp.Web.getToken, h]
      exact ⟨trivial, rfl, rfl, hmore⟩

omit [LawfulReader σ] in
/-- A token is put back into both. -/
theorem Reads.pushBack {scanner : Tokenizer σ} {s : Scanner} (h : Reads scanner s) :
    match scanner.pushBack, Upnp.Web.pushBack s with
    | (.ok (), scanner'), (.ok (), s') => Reads scanner' s'
    | (.error e, _), (.error e', _) => e' = .ofScanner e
    | _, _ => False := by
  obtain ⟨returned, pending, reader⟩ := scanner
  obtain ⟨returned', pending', source, failure⟩ := s
  obtain ⟨rfl, rfl, hsource⟩ := h
  cases returned with
  | nil => rfl
  | cons t returned => exact ⟨rfl, rfl, hsource⟩

end Reader

/-- A `Tokenizer` over a text in memory is the scanner over the text. -/
theorem reads_scannerOf (text : CString) :
    Reads (Tokenizer.new (⟨text, 0⟩ : MemReader)) (scannerOf text) := by
  refine ⟨rfl, rfl, ?_⟩
  refine lexesTo_lex (σ := MemReader) (fun r _ hleft ↦ decide_eq_true ?_) (r := ⟨text, 0⟩) trivial
  exact List.drop_eq_nil_iff.mp hleft

/-! ## Texts of given tokens -/

variable {name body rest : CString}

theorem lex_identifier (hne : name ≠ []) (hname : ∀ c ∈ name, IsIdentifierChar c)
    (hrest : ∀ c ∈ rest.head?, IsIdentifierChar c = false) :
    lex (name ++ rest) = (⟨IDENTIFIER, name⟩ :: (lex rest).1, (lex rest).2) := by
  obtain ⟨c, name, rfl⟩ := List.exists_cons_of_ne_nil hne
  have htail : ∀ d ∈ name, IsIdentifierChar d := fun d hd ↦ hname d (List.mem_cons_of_mem _ hd)
  have htake : (name ++ rest).takeWhile IsIdentifierChar = name ∧
      (name ++ rest).dropWhile IsIdentifierChar = rest := by
    rw [List.takeWhile_append_of_pos htail, List.dropWhile_append_of_pos htail]
    cases rest with
    | nil => exact ⟨List.append_nil _, rfl⟩
    | cons d rest =>
      have hd := hrest d rfl
      rw [List.takeWhile_cons_of_neg (by simp [hd]), List.dropWhile_cons_of_neg (by simp [hd])]
      exact ⟨List.append_nil _, rfl⟩
  refine lex_cons ?_
  show lexToken c (name ++ rest) = _
  rw [lexToken, if_pos (hname c (List.mem_cons_self ..)), htake.1, htake.2]

/-- A single blank. -/
theorem lex_blank (hrest : ∀ c ∈ rest.head?, IsWhitespace c = false) :
    lex (' ' :: rest) = (⟨WHITESPACE, [' ']⟩ :: (lex rest).1, (lex rest).2) := by
  have htake : rest.takeWhile IsWhitespace = [] ∧ rest.dropWhile IsWhitespace = rest := by
    cases rest with
    | nil => exact ⟨rfl, rfl⟩
    | cons d rest =>
      have hd := hrest d rfl
      rw [List.takeWhile_cons_of_neg (by simp [hd]), List.dropWhile_cons_of_neg (by simp [hd])]
      exact ⟨rfl, rfl⟩
  refine lex_cons ?_
  rw [lexToken, if_neg (by decide), if_pos (by decide), htake.1, htake.2]

theorem lex_separator {c : Char} (h : c ∈ ['=', ',', ';', '/', '(']) :
    lex (c :: rest) = (⟨SEPARATOR, [c]⟩ :: (lex rest).1, (lex rest).2) := by
  simp only [List.mem_cons, List.not_mem_nil, or_false] at h
  rcases h with rfl | rfl | rfl | rfl | rfl <;> exact lex_cons rfl

theorem lex_crlf : lex ('\r' :: '\n' :: rest) = (⟨CRLF, ['\r', '\n']⟩ :: (lex rest).1, (lex rest).2) :=
  lex_cons rfl

theorem lexQuoted_plain (s : CString) (hbody : ∀ c ∈ body, IsPlainQdText c) :
    lexQuoted s (body ++ '"' :: rest) = .ok (s ++ (body ++ ['"']), rest) := by
  induction body generalizing s with
  | nil =>
    rw [List.nil_append, lexQuoted.eq_def]
    exact if_pos rfl
  | cons c body ih =>
    have hc := hbody c (List.mem_cons_self ..)
    simp only [IsPlainQdText, Bool.and_eq_true, bne_iff_ne] at hc
    have hquote : c ≠ '"' := by
      rintro rfl
      exact absurd hc.1 (by decide)
    rw [List.cons_append, lexQuoted.eq_def]
    dsimp only
    rw [if_neg hquote, if_neg hc.2, if_pos hc.1,
      ih _ fun d hd ↦ hbody d (List.mem_cons_of_mem _ hd), List.append_assoc]
    rfl

/-- A quoted string without escapes. -/
theorem lex_quoted (hbody : ∀ c ∈ body, IsPlainQdText c) : lex ('"' :: (body ++ '"' :: rest)) =
    (⟨QUOTED_STRING, '"' :: (body ++ ['"'])⟩ :: (lex rest).1, (lex rest).2) := by
  refine lex_cons ?_
  rw [lexToken, if_neg (by decide), if_neg (by decide), if_neg (by decide), if_neg (by decide),
    if_pos rfl, lexQuoted_plain _ hbody]
  rfl

/-! ## Quoted strings that are read as they are -/

section Quoted

variable {text s s' rest' : CString} {c d : Char}

theorem lexQuoted_quote : lexQuoted s ('"' :: rest) = .ok (s ++ ['"'], rest) := by
  rw [lexQuoted.eq_def]
  exact if_pos rfl

theorem lexQuoted_escape : lexQuoted s ('\\' :: d :: rest) =
    if 1 ≤ d.toNat ∧ d.toNat < 127 then lexQuoted (s ++ [d]) rest else .error TokenizerException := by
  rw [lexQuoted.eq_def]
  exact (if_neg (by decide)).trans (if_pos rfl)

theorem lexQuoted_other (hquote : c ≠ '"') (hescape : c ≠ '\\') : lexQuoted s (c :: rest) =
    if IsQdText c then lexQuoted (s ++ [c]) rest else .error TokenizerException := by
  rw [lexQuoted.eq_def]
  exact (if_neg hquote).trans (if_neg hescape)

/-- What was read stays. -/
theorem lexQuoted_prefix (h : lexQuoted s text = .ok (s', rest')) : s <+: s' := by
  fun_induction lexQuoted s text with
  | case1 => cases h
  | case2 =>
    cases h
    exact List.prefix_append ..
  | case3 => cases h
  | case4 s d rest hd hq ih => exact (List.prefix_append ..).trans (ih h)
  | case5 => cases h
  | case6 s c rest hq hc hqd ih => exact (List.prefix_append ..).trans (ih h)
  | case7 => cases h

theorem eq_of_lexQuoted {u : CString} (h : lexQuoted (s ++ [d]) text = .ok (s ++ c :: u, rest')) :
    d = c := by
  have hprefix := lexQuoted_prefix h
  rw [List.prefix_append_right_inj, List.cons_prefix_cons] at hprefix
  exact hprefix.1

/-- Behind a backslash that was dropped, the text is never what was read: a backslash more is dropped
with each one. -/
theorem lexQuoted_ne (n : Nat) (body : CString) : lexQuoted s (body ++ '"' :: rest) ≠
    .ok (s ++ (List.replicate (n + 1) '\\' ++ (body ++ ['"'])), rest') := by
  induction hlen : body.length using Nat.strong_induction_on generalizing body n s with
  | h k ih =>
    intro h
    rw [List.replicate_succ, List.cons_append] at h
    cases body with
    | nil =>
      rw [List.nil_append, lexQuoted_quote] at h
      have hlength := congrArg List.length (Prod.mk.inj (Except.ok.inj h)).1
      simp only [List.length_append, List.length_cons, List.length_replicate,
        List.length_nil] at hlength
      omega
    | cons c body =>
      rw [List.cons_append] at h
      by_cases hquote : c = '"'
      · subst hquote
        rw [lexQuoted_quote] at h
        have hlength := congrArg List.length (Prod.mk.inj (Except.ok.inj h)).1
        simp only [List.length_append, List.length_cons, List.length_replicate,
          List.length_nil] at hlength
        omega
      by_cases hescape : c = '\\'
      · subst hescape
        cases body with
        | nil =>
          rw [List.nil_append, lexQuoted_escape] at h
          split at h
          · cases eq_of_lexQuoted h
          · cases h
        | cons d body =>
          rw [List.cons_append, lexQuoted_escape] at h
          split at h
          · have hd := eq_of_lexQuoted h
            subst hd
            have heq : s ++ '\\' :: (List.replicate n '\\' ++ ('\\' :: '\\' :: body ++ ['"'])) =
                (s ++ ['\\']) ++ (List.replicate (n + 1 + 1) '\\' ++ (body ++ ['"'])) := by
              rw [List.replicate_succ', List.replicate_succ']
              simp only [List.append_assoc, List.cons_append, List.nil_append]
            rw [heq] at h
            refine ih body.length ?_ _ body rfl h
            rw [← hlen]
            exact Nat.lt_succ_of_lt (Nat.lt_succ_self _)
          · cases h
      · rw [lexQuoted_other hquote hescape] at h
        split at h
        · exact hescape (eq_of_lexQuoted h)
        · cases h

/-- A quoted string that is read as it is has no escapes. -/
theorem plain_of_lexQuoted {body : CString}
    (h : lexQuoted s (body ++ '"' :: rest) = .ok (s ++ (body ++ ['"']), rest')) :
    ∀ c ∈ body, IsPlainQdText c := by
  induction body generalizing s with
  | nil => exact fun c hc ↦ absurd hc List.not_mem_nil
  | cons c body ih =>
    rw [List.cons_append, List.cons_append] at h
    by_cases hquote : c = '"'
    · subst hquote
      rw [lexQuoted_quote] at h
      have hlength := congrArg List.length (Prod.mk.inj (Except.ok.inj h)).1
      simp only [List.length_append, List.length_cons, List.length_nil] at hlength
      omega
    by_cases hescape : c = '\\'
    · subst hescape
      cases body with
      | nil =>
        rw [List.nil_append, lexQuoted_escape] at h
        split at h
        · cases eq_of_lexQuoted h
        · cases h
      | cons d body =>
        rw [List.cons_append, lexQuoted_escape] at h
        split at h
        · have hd := eq_of_lexQuoted h
          subst hd
          have heq : s ++ '\\' :: ('\\' :: body ++ ['"']) =
              (s ++ ['\\']) ++ (List.replicate (0 + 1) '\\' ++ (body ++ ['"'])) := by
            simp only [List.append_assoc, List.cons_append, List.nil_append]
            rfl
          rw [heq] at h
          exact absurd h (lexQuoted_ne 0 body)
        · cases h
    · rw [lexQuoted_other hquote hescape] at h
      split at h
      · next hqd =>
        have heq : s ++ c :: (body ++ ['"']) = (s ++ [c]) ++ (body ++ ['"']) := by
          rw [List.append_assoc]
          rfl
        rw [heq] at h
        refine List.forall_mem_cons.mpr ⟨?_, ih h⟩
        rw [IsPlainQdText, hqd, Bool.true_and, bne_iff_ne]
        exact hescape
      · cases h

end Quoted

/-! ## Words and separators -/

/-- A quoted string without escapes. -/
def IsQuoted (text : CString) : Prop :=
  ∃ body, text = '"' :: (body ++ ['"']) ∧ ∀ c ∈ body, IsPlainQdText c

def IsIdentifier (name : CString) : Prop := name ≠ [] ∧ ∀ c ∈ name, IsIdentifierChar c

theorem isIdentifierChar_of_isDigit {c : Char} (h : c.isDigit) : IsIdentifierChar c := by
  have hrange : '0' ≤ c ∧ c ≤ '9' := by
    simp only [Char.isDigit, Bool.and_eq_true, decide_eq_true_eq] at h
    exact h
  have hlow : 48 ≤ c.toNat := UInt32.le_iff_toNat_le.mp hrange.1
  have hhigh : c.toNat ≤ 57 := UInt32.le_iff_toNat_le.mp hrange.2
  have hall : (List.range' 48 10).all (fun n ↦ IsIdentifierChar (Char.ofNat n)) = true := rfl
  have hmem : c.toNat ∈ List.range' 48 10 := List.mem_range'_1.mpr ⟨hlow, Nat.lt_succ_of_le hhigh⟩
  rw [← Char.ofNat_toNat c]
  exact List.all_eq_true.mp hall _ hmem

/-- An identifier. -/
def word (name : CString) : Token := ⟨IDENTIFIER, name⟩

/-- A quoted string, with its quotes. -/
def quoted (text : CString) : Token := ⟨QUOTED_STRING, text⟩

def blank : Token := ⟨WHITESPACE, [' ']⟩

def separator (c : Char) : Token := ⟨SEPARATOR, [c]⟩

def lineEnd : Token := ⟨CRLF, ['\r', '\n']⟩

/-- Linear white space: white space, and ends of lines in front of some. -/
inductive IsSpace : List Token → Prop where
  | nil : IsSpace []
  | space {t : Token} {ts : List Token} (h : t.tokType = WHITESPACE) (hs : ∀ c ∈ t.s, IsWhitespace c)
      (hts : IsSpace ts) : IsSpace (t :: ts)
  | fold {t : Token} {ts : List Token} (h : t.tokType = WHITESPACE) (hs : ∀ c ∈ t.s, IsWhitespace c)
      (hts : IsSpace ts) : IsSpace (lineEnd :: t :: ts)

/-- The tokens behind an element: a comma, or the end of the line and no white space. -/
def EndsElement (ts : List Token) : Prop :=
  (∃ ts', ts = separator ',' :: ts') ∨ ∃ u ts', ts = lineEnd :: u :: ts' ∧ u.tokType ≠ WHITESPACE

section Tokens

variable {back ts : List Token} {t : Token}

/-- White space is skipped, and what may be skipped behind it. -/
theorem IsSpace.skip {sp ts' : List Token} (h : IsSpace sp)
    (hts : Yields [] SkipOptionalLWS ts (.ok ()) ts') :
    Yields back SkipOptionalLWS (sp ++ ts) (.ok ()) ts' := by
  induction h generalizing back with
  | nil => exact hts.weaken
  | space h _ _ ih => exact yields_SkipOptionalLWS_space h ih
  | fold h _ _ ih => exact yields_SkipOptionalLWS_fold rfl h ih

theorem IsSpace.skip_other {sp : List Token} (h : IsSpace sp)
    (ht : t.tokType ≠ CRLF ∧ t.tokType ≠ WHITESPACE) :
    Yields back SkipOptionalLWS (sp ++ t :: ts) (.ok ()) (t :: ts) :=
  h.skip (yields_SkipOptionalLWS_other ht.1 ht.2)

theorem separator_s (c : Char) : (separator c).s = [c] := rfl

theorem word_s (name : CString) : (word name).s = name := rfl

theorem not_word_ne (name : CString) : ¬ (word name).tokType ≠ IDENTIFIER := not_not.mpr rfl

theorem separator_ne (c : Char) :
    (separator c).tokType ≠ CRLF ∧ (separator c).tokType ≠ WHITESPACE := by
  constructor <;> intro h <;> cases h

theorem word_ne (name : CString) : (word name).tokType ≠ CRLF ∧ (word name).tokType ≠ WHITESPACE := by
  constructor <;> intro h <;> cases h

theorem quoted_ne (text : CString) :
    (quoted text).tokType ≠ CRLF ∧ (quoted text).tokType ≠ WHITESPACE := by
  constructor <;> intro h <;> cases h

theorem EndsElement.skip (h : EndsElement ts) : Yields back SkipOptionalLWS ts (.ok ()) ts := by
  rcases h with ⟨ts', rfl⟩ | ⟨u, ts', rfl, hu⟩
  · exact yields_SkipOptionalLWS_other (separator_ne ',').1 (separator_ne ',').2
  · exact yields_SkipOptionalLWS_crlf rfl hu

theorem EndsElement.exists_cons (h : EndsElement ts) :
    ∃ t ts', ts = t :: ts' ∧ t.s ≠ ['='] ∧ t.s ≠ [';'] := by
  rcases h with ⟨ts', rfl⟩ | ⟨u, ts', rfl, hu⟩
  · exact ⟨_, _, rfl, by decide, by decide⟩
  · exact ⟨_, _, rfl, by decide, by decide⟩

/-- A blank in front of what is neither white space nor the end of a line is skipped, if there is
one. -/
theorem yields_skip (b : Bool) (h : t.tokType ≠ CRLF ∧ t.tokType ≠ WHITESPACE) :
    Yields back SkipOptionalLWS ((if b then [blank] else []) ++ t :: ts) (.ok ()) (t :: ts) := by
  cases b with
  | false => exact yields_SkipOptionalLWS_other h.1 h.2
  | true => exact yields_SkipOptionalLWS_space rfl (yields_SkipOptionalLWS_other h.1 h.2)

/-- An equals sign, with or without blanks around it. -/
def equals (b : Bool) : List Token :=
  (if b then [blank] else []) ++ separator '=' :: (if b then [blank] else [])

theorem equals_append (b : Bool) : equals b ++ t :: ts =
    (if b then [blank] else []) ++ separator '=' :: ((if b then [blank] else []) ++ t :: ts) := by
  rw [equals, List.append_assoc, List.cons_append]

end Tokens

/-- A text whose first token is no white space begins with none. -/
theorem head_of_lex {t : Token} {ts : List Token} (h : (lex rest).1 = t :: ts)
    (ht : t.tokType ≠ WHITESPACE) :
    ∀ c ∈ rest.head?, IsWhitespace c = false := by
  cases rest with
  | nil => nofun
  | cons c rest =>
    rintro _ ⟨⟩
    rw [Bool.eq_false_iff]
    intro hws
    have hident : ¬ IsIdentifierChar c := by
      simp only [IsWhitespace, Bool.or_eq_true, decide_eq_true_eq] at hws
      rcases hws with rfl | rfl <;> decide
    have hlex : lexToken c rest =
        .ok (⟨WHITESPACE, c :: rest.takeWhile IsWhitespace⟩, rest.dropWhile IsWhitespace) := by
      rw [lexToken, if_neg hident, if_pos hws]
    rw [lex_cons hlex] at h
    obtain ⟨rfl, -⟩ := List.cons.inj h
    exact ht rfl

/-! ## Texts of lists of tokens -/

/-- In front of `rest`, a text is lexed as the tokens `ts`. -/
def LexesAs (text : CString) (ts : List Token) (rest : CString) : Prop :=
  lex (text ++ rest) = (ts ++ (lex rest).1, (lex rest).2)

section LexesAs

variable {text text' : CString} {ts ts' : List Token}

theorem LexesAs.append (h : LexesAs text ts (text' ++ rest)) (h' : LexesAs text' ts' rest) :
    LexesAs (text ++ text') (ts ++ ts') rest := by
  rw [LexesAs] at h h' ⊢
  rw [List.append_assoc, h, h', List.append_assoc]

theorem lexesAs_word (hname : IsIdentifier name)
    (hrest : ∀ c ∈ rest.head?, IsIdentifierChar c = false) :
    LexesAs name [word name] rest :=
  lex_identifier hname.1 hname.2 hrest

theorem lexesAs_quoted (htext : IsQuoted text) : LexesAs text [quoted text] rest := by
  obtain ⟨body, rfl, hbody⟩ := htext
  rw [LexesAs, List.cons_append, List.append_assoc]
  exact lex_quoted hbody

theorem lexesAs_comma (hrest : ∀ c ∈ rest.head?, IsWhitespace c = false) :
    LexesAs ", ".toList [separator ',', blank] rest := by
  show lex (',' :: ' ' :: rest) = _
  rw [lex_separator (by simp), lex_blank hrest]
  rfl

/-- An equals sign with blanks around it. -/
theorem lexesAs_equals (hrest : ∀ c ∈ rest.head?, IsWhitespace c = false) :
    LexesAs " = ".toList (equals true) rest := by
  show lex (' ' :: '=' :: ' ' :: rest) = _
  rw [lex_blank (by simp [IsWhitespace]), lex_separator (by simp), lex_blank hrest]
  rfl

end LexesAs

end Upnp.Web
