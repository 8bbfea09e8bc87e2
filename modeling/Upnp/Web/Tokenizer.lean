import Mathlib.Data.List.TakeWhile
import Upnp.Web.CharReader

/-!
# The scanner

`Tokenizer` of `tokenizer.cpp`.  Its list of tokens is cut at `current`: the
tokens up to it, which are those that were returned, and those behind it, which
were pushed back.  Line numbers, which only texts of exceptions use, are left
out, and so is `Token::c`, the character of a token of one character.
-/

namespace Upnp.Web

open Upnp.Lib

/-- `Token::TokenType`. -/
inductive TokenType where
  | IDENTIFIER
  | WHITESPACE
  | CRLF
  | CTRL
  | SEPARATOR
  | QUOTED_STRING
  | END_OF_STREAM
deriving DecidableEq, Repr

/-- `Token`. -/
structure Token where
  tokType : TokenType
  s : CString
deriving DecidableEq, Repr

open TokenType Exception

/-! ## Characters -/

/-- `IsSeparator`; `strchr` finds the NUL too. -/
def IsSeparator (c : Char) : Bool := " \t()<>@,;:\\\"/[]?={}".toList.contains c || c = '\x00'

/-- `IsControlChar`. -/
def IsControlChar (c : Char) : Bool := c.toNat ≤ 31 || c.toNat = 127

/-- `IsIdentifierChar`. -/
def IsIdentifierChar (c : Char) : Bool := (32 ≤ c.toNat && c.toNat ≤ 126) && !IsSeparator c

/-- `IsQdText`. -/
def IsQdText (c : Char) : Bool :=
  if c = '\r' ∨ c = '\n' ∨ c = '\t' then true else if c = '"' then false else !IsControlChar c

/-- A space or a tab. -/
def IsWhitespace (c : Char) : Bool := c = ' ' || c = '\t'

/-! ## Reading a token -/

section Reader

variable {σ : Type} [CharReader σ]

open CharReader

/-- The loops of `readNextToken` over the characters of an identifier or of white space: the first
other character is pushed back. -/
def readWhile (p : Char → Bool) (reader : σ) (s : CString) : Except Exception CString × σ :=
  if heos : endOfStream reader = true then (.ok s, reader)
  else
    match h : getChar reader with
    | (.error e, reader) => (.error e, reader)
    | (.ok c, reader') =>
      if p c then readWhile p reader' (s ++ [c])
      else
        match pushBack reader' with
        | (.error e, reader) => (.error e, reader)
        | (.ok (), reader) => (.ok s, reader)
termination_by size reader
decreasing_by exact size_getChar (Bool.eq_false_of_not_eq_true heos) h

/-- The loop of `readNextToken` over a quoted string.  Of an escape only the character behind the
backslash is kept. -/
def readQuoted (reader : σ) (s : CString) : Except Exception CString × σ :=
  if heos : endOfStream reader = true then (.error TokenizerException, reader)
  else
    match h : getChar reader with
    | (.error e, reader) => (.error e, reader)
    | (.ok c, reader₁) =>
      if c = '"' then (.ok (s ++ [c]), reader₁)
      else if c = '\\' then
        if heos₁ : endOfStream reader₁ = true then (.error TokenizerException, reader₁)
        else
          match h₁ : getChar reader₁ with
          | (.error e, reader) => (.error e, reader)
          | (.ok c, reader₂) =>
            if 1 ≤ c.toNat ∧ c.toNat < 127 then readQuoted reader₂ (s ++ [c])
            else (.error TokenizerException, reader₂)
      else if IsQdText c then readQuoted reader₁ (s ++ [c])
      else (.error TokenizerException, reader₁)
termination_by size reader
decreasing_by
  · exact (size_getChar (Bool.eq_false_of_not_eq_true heos₁) h₁).trans
      (size_getChar (Bool.eq_false_of_not_eq_true heos) h)
  · exact size_getChar (Bool.eq_false_of_not_eq_true heos) h

/-- A token of the type given, from its text. -/
def tokenOf (tokType : TokenType) : Except Exception CString × σ → Except Exception Token × σ
  | (.error e, reader) => (.error e, reader)
  | (.ok s, reader) => (.ok ⟨tokType, s⟩, reader)

/-- `readNextToken`. -/
def readNextToken (reader : σ) : Except Exception Token × σ :=
  if endOfStream reader then (.ok ⟨END_OF_STREAM, []⟩, reader)
  else
    match getChar reader with
    | (.error e, reader) => (.error e, reader)
    | (.ok c, reader) =>
      if IsIdentifierChar c then tokenOf IDENTIFIER (readWhile IsIdentifierChar reader [c])
      else if IsWhitespace c then tokenOf WHITESPACE (readWhile IsWhitespace reader [c])
      else if c = '\r' then
        if endOfStream reader then (.error TokenizerException, reader)
        else
          match getChar reader with
          | (.error e, reader) => (.error e, reader)
          | (.ok c, reader) =>
            if c = '\n' then (.ok ⟨CRLF, ['\r', '\n']⟩, reader)
            else (.error TokenizerException, reader)
      else if c = '\n' then (.ok ⟨CRLF, ['\r', '\n']⟩, reader)
      else if c = '"' then tokenOf QUOTED_STRING (readQuoted reader [c])
      else if IsControlChar c then (.ok ⟨CTRL, [c]⟩, reader)
      else if IsSeparator c then (.ok ⟨SEPARATOR, [c]⟩, reader)
      else (.error TokenizerException, reader)

end Reader

/-! ## The scanner's operations -/

/-- `Tokenizer`: `returned` are the tokens from `current` back to the head, `pending` those from
behind `current` to the tail. -/
structure Tokenizer (σ : Type) where
  returned : List Token
  pending : List Token
  reader : σ

namespace Tokenizer

variable {σ : Type} [CharReader σ]

def MAX_PUSHBACKS : Nat := 5

/-- `Tokenizer::Tokenizer`. -/
def new (reader : σ) : Tokenizer σ := ⟨[], [], reader⟩

/-- `getToken`. -/
def getToken (scanner : Tokenizer σ) : Except Exception Token × Tokenizer σ :=
  match scanner.pending with
  | t :: pending => (.ok t, { scanner with returned := t :: scanner.returned, pending })
  | [] =>
    match readNextToken scanner.reader with
    | (.error e, reader) => (.error e, { scanner with reader })
    | (.ok t, reader) =>
      (.ok t, { scanner with returned := (t :: scanner.returned).take MAX_PUSHBACKS, reader })

/-- `pushBack`. -/
def pushBack (scanner : Tokenizer σ) : Except Exception Unit × Tokenizer σ :=
  match scanner.returned with
  | [] => (.error TokenizerException, scanner)
  | t :: returned => (.ok (), { scanner with returned, pending := t :: scanner.pending })

/-- The text of `current`; the head of the list has none. -/
def currentText (returned : List Token) : CString := (returned.head?.map Token.s).getD []

/-- The loop of `read` over the tokens behind `current`, with the buffer as it is filled; the flag
says that the buffer had no room for the next one. -/
def drain (bufsize : Nat) (buf : CString) (returned : List Token) :
    List Token → CString × List Token × List Token × Bool
  | [] => (buf, returned, [], false)
  | t :: pending =>
    if bufsize < buf.length + (currentText returned).length then (buf, returned, t :: pending, true)
    else drain bufsize (buf ++ currentText returned) (t :: returned) pending

/-- `Tokenizer::read`.  The readers return no negative length. -/
def read (scanner : Tokenizer σ) (bufsize : Int) : Except Exception CString × Tokenizer σ :=
  if bufsize ≤ 0 then (.ok [], scanner)
  else
    match drain bufsize.toNat [] scanner.returned scanner.pending with
    | (buf, returned, pending, true) => (.ok buf, { scanner with returned, pending })
    | (buf, returned, pending, false) =>
      if buf.length < bufsize ∧ CharReader.endOfStream scanner.reader = false then
        match CharReader.read scanner.reader (bufsize.toNat - buf.length) with
        | (.error e, reader) => (.error e, ⟨returned, pending, reader⟩)
        | (.ok bytes, reader) => (.ok (buf ++ bytes), ⟨returned, pending, reader⟩)
      else (.ok buf, { scanner with returned, pending })

/-- `endOfData`. -/
def endOfData (scanner : Tokenizer σ) : Bool :=
  scanner.pending.isEmpty && CharReader.endOfStream scanner.reader

end Tokenizer

/-! ## The tokens of a text -/

section Lawful

variable {σ : Type} [CharReader σ] [LawfulReader σ]

open CharReader LawfulReader

theorem endOfStream_of_left {r : σ} {c : Char} {rest : CString} (h : left r = c :: rest) :
    endOfStream r = false := by
  by_contra heos
  rw [left_of_endOfStream (Bool.eq_true_of_not_eq_false heos)] at h
  cases h

omit [LawfulReader σ] in
theorem readWhile_step {p : Char → Bool} {r r' : σ} {c : Char} (s : CString)
    (heos : endOfStream r = false) (hget : getChar r = (.ok c, r')) :
    readWhile p r s =
      if p c then readWhile p r' (s ++ [c])
      else
        match CharReader.pushBack r' with
        | (.error e, reader) => (.error e, reader)
        | (.ok (), reader) => (.ok s, reader) := by
  rw [readWhile.eq_def, dif_neg (by rw [heos]; decide)]
  split <;>
    · rename_i heq
      rw [hget] at heq
      cases heq
      try rfl

/-- The characters of the kind that a token is read for, up to the end of the stream. -/
theorem readWhile_spec {p : Char → Bool} (hnul : p '\x00' = false) {r : σ} {text : CString}
    (s : CString) (hready : Ready r) (hstarted : Started r) (hleft : left r = text) :
    ∃ r', readWhile p r s = (.ok (s ++ text.takeWhile p), r') ∧ Ready r' ∧
      left r' = text.dropWhile p := by
  induction text generalizing r s with
  | nil =>
    by_cases heos : endOfStream r = true
    · refine ⟨r, ?_, hready, hleft⟩
      rw [readWhile.eq_def, dif_pos heos, List.takeWhile_nil, List.append_nil]
    · rw [Bool.not_eq_true] at heos
      obtain ⟨r₁, hget, r₂, hpush, hready₂, hleft₂⟩ := getChar_nil hready heos hleft hstarted
      refine ⟨r₂, ?_, hready₂, hleft₂⟩
      rw [readWhile_step s heos hget, if_neg (by rw [hnul]; decide), hpush, List.takeWhile_nil,
        List.append_nil]
  | cons c text ih =>
    have heos := endOfStream_of_left hleft
    obtain ⟨r₁, hget, hready₁, hstarted₁, hleft₁, r₂, hpush, hready₂, hleft₂⟩ :=
      getChar_cons hready heos hleft
    rw [readWhile_step s heos hget]
    by_cases hc : p c
    · obtain ⟨r', hloop, hready', hleft'⟩ := ih (s ++ [c]) hready₁ hstarted₁ hleft₁
      refine ⟨r', ?_, hready', ?_⟩
      · rw [if_pos hc, hloop, List.append_assoc, List.takeWhile_cons_of_pos hc]
        rfl
      · rw [hleft', List.dropWhile_cons_of_pos hc]
    · refine ⟨r₂, ?_, hready₂, ?_⟩
      · rw [if_neg hc, hpush, List.takeWhile_cons_of_neg hc, List.append_nil]
      · rw [hleft₂, List.dropWhile_cons_of_neg hc]

/-- A character of a quoted string that is kept as it is. -/
def IsPlainQdText (c : Char) : Bool := IsQdText c && c != '\\'

omit [LawfulReader σ] in
theorem readQuoted_step {r r' : σ} {c : Char} (s : CString) (heos : endOfStream r = false)
    (hget : getChar r = (.ok c, r')) (hc : c ≠ '\\') :
    readQuoted r s =
      if c = '"' then (.ok (s ++ [c]), r')
      else if IsQdText c then readQuoted r' (s ++ [c])
      else (.error TokenizerException, r') := by
  rw [readQuoted.eq_def, dif_neg (by rw [heos]; decide)]
  split
  · rename_i heq
    rw [hget] at heq
    cases heq
  · rename_i heq
    rw [hget] at heq
    cases heq
    rw [if_neg hc]

/-- A quoted string without escapes is read to its end. -/
theorem readQuoted_spec {r : σ} {body rest : CString} (s : CString) (hready : Ready r)
    (hleft : left r = body ++ '"' :: rest) (hbody : ∀ c ∈ body, IsPlainQdText c) :
    ∃ r', readQuoted r s = (.ok (s ++ (body ++ ['"'])), r') ∧ Ready r' ∧ left r' = rest := by
  induction body generalizing r s with
  | nil =>
    have heos := endOfStream_of_left hleft
    obtain ⟨r₁, hget, hready₁, -, hleft₁, -⟩ := getChar_cons hready heos hleft
    refine ⟨r₁, ?_, hready₁, hleft₁⟩
    rw [readQuoted_step s heos hget (by decide), if_pos rfl]
    rfl
  | cons c body ih =>
    have heos := endOfStream_of_left hleft
    obtain ⟨r₁, hget, hready₁, -, hleft₁, -⟩ := getChar_cons hready heos hleft
    have hc := hbody c List.mem_cons_self
    simp only [IsPlainQdText, Bool.and_eq_true, bne_iff_ne] at hc
    have hquote : c ≠ '"' := by
      rintro rfl
      exact absurd hc.1 (by decide)
    obtain ⟨r', hloop, hready', hleft'⟩ := ih (s ++ [c]) hready₁ hleft₁
      fun d hd ↦ hbody d (List.mem_cons_of_mem _ hd)
    refine ⟨r', ?_, hready', hleft'⟩
    rw [readQuoted_step s heos hget hc.2, if_neg hquote, if_pos hc.1, hloop, List.append_assoc]
    rfl

/-- A text that begins with a token which the scanner can form, and whose characters are those of
the text: no line feed alone, for which it returns `CR LF`, and no quoted string with an escape, of
which it drops the backslash. -/
def Spelled : CString → Prop
  | [] => False
  | c :: rest =>
    c ≠ '\n' ∧ (c = '\r' → rest.head? = some '\n') ∧
      (c = '"' → (rest.dropWhile IsPlainQdText).head? = some '"') ∧ c.toNat < 128

instance : DecidablePred Spelled
  | [] => inferInstanceAs (Decidable False)
  | _ :: _ => inferInstanceAs (Decidable (_ ∧ _))

/-- A token that is spelled in the text is read off it. -/
theorem readNextToken_spec {r : σ} (hready : Ready r) (h : Spelled (left r)) :
    ∃ t r', readNextToken r = (.ok t, r') ∧ Ready r' ∧ left r = t.s ++ left r' := by
  cases hleft : left r with
  | nil =>
    rw [hleft] at h
    exact h.elim
  | cons c rest =>
    rw [hleft] at h
    obtain ⟨hlf, hcr, hquote, hascii⟩ := h
    have heos := endOfStream_of_left hleft
    obtain ⟨r₁, hget, hready₁, hstarted₁, hleft₁, -⟩ := getChar_cons hready heos hleft
    unfold readNextToken
    rw [heos, if_neg (by decide), hget]
    dsimp only
    split
    · -- an identifier
      obtain ⟨r', hloop, hready', hleft'⟩ :=
        readWhile_spec (p := IsIdentifierChar) (by decide) [c] hready₁ hstarted₁ hleft₁
      refine ⟨⟨IDENTIFIER, c :: rest.takeWhile IsIdentifierChar⟩, r', by rw [hloop]; rfl, hready', ?_⟩
      rw [hleft']
      simp
    split
    · obtain ⟨r', hloop, hready', hleft'⟩ :=
        readWhile_spec (p := IsWhitespace) (by decide) [c] hready₁ hstarted₁ hleft₁
      refine ⟨⟨WHITESPACE, c :: rest.takeWhile IsWhitespace⟩, r', by rw [hloop]; rfl, hready', ?_⟩
      rw [hleft']
      simp
    split
    · rename_i hc
      subst hc
      obtain ⟨more, rfl⟩ := List.head?_eq_some_iff.mp (hcr rfl)
      have heos₁ := endOfStream_of_left hleft₁
      obtain ⟨r₂, hget₂, hready₂, -, hleft₂, -⟩ := getChar_cons hready₁ heos₁ hleft₁
      refine ⟨⟨CRLF, ['\r', '\n']⟩, r₂, ?_, hready₂, ?_⟩
      · rw [heos₁, if_neg (by decide), hget₂]
        rfl
      · rw [hleft₂]
        rfl
    split
    · rename_i hc
      subst hc
      have hmore := hquote rfl
      obtain ⟨more, hmore⟩ := List.head?_eq_some_iff.mp hmore
      have hrest : rest = rest.takeWhile IsPlainQdText ++ '"' :: more := by
        rw [← hmore, List.takeWhile_append_dropWhile]
      obtain ⟨r', hloop, hready', hleft'⟩ := readQuoted_spec ['"'] hready₁ (hleft₁.trans hrest)
        fun d hd ↦ List.mem_takeWhile_imp hd
      refine ⟨⟨QUOTED_STRING, '"' :: (rest.takeWhile IsPlainQdText ++ ['"'])⟩, r',
        by rw [hloop]; rfl, hready', ?_⟩
      rw [hleft', List.cons_append, List.append_assoc, List.singleton_append, ← hrest]
    split
    · refine ⟨⟨CTRL, [c]⟩, r₁, rfl, hready₁, ?_⟩
      rw [hleft₁]
      rfl
    split
    · refine ⟨⟨SEPARATOR, [c]⟩, r₁, rfl, hready₁, ?_⟩
      rw [hleft₁]
      rfl
    · rename_i hident _ _ _ hcontrol hsep
      simp only [IsIdentifierChar, IsControlChar, Bool.and_eq_true, Bool.or_eq_true,
        decide_eq_true_eq, Bool.not_eq_true', not_and, not_or] at hident hcontrol
      exact absurd (hident (by omega)) (by simpa using hsep)

end Lawful

end Upnp.Web
