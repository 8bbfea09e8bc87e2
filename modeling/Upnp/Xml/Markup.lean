import Upnp.Xml.Parser

/-!
# Tags and text

What the tokenizer and `getNextNode` do on well-formed markup: a start tag, an end tag, and the
content between two tags.
-/

namespace Upnp.Xml

open Upnp.Lib

/-! ## Single tokens -/

/-- A character of ASCII that stands for itself. -/
def plain (c : Char) : Bool := decide (c.toNat < 128) && isxmlch c.toNat && c != '&'

theorem unescapes_ascii {text : CString} (h : text.all plain = true) : Unescapes text text := by
  have hplain : ∀ c ∈ text, c.toNat < 128 ∧ isxmlch c.toNat = true ∧ c ≠ '&' := by
    intro c hc
    have hc' := List.all_eq_true.mp h c hc
    rw [plain, Bool.and_eq_true, Bool.and_eq_true, decide_eq_true_iff, bne_iff_ne] at hc'
    exact ⟨hc'.1.1, hc'.1.2, hc'.2⟩
  have htext : (text.map Char.toNat).flatMap toutf8 = text := by
    rw [List.flatMap_map]
    have hone : ∀ c ∈ text, toutf8 c.toNat = [c] := fun c hc ↦ by
      rw [toutf8_ascii (Nat.le_of_lt_succ (hplain c hc).1), Char.ofNat_toNat]
    rw [List.flatMap_congr hone, List.flatMap_singleton']
  have hchars : ∀ n ∈ text.map Char.toNat, isxmlch n = true ∧ n ≠ '&'.toNat := by
    intro n hn
    obtain ⟨c, hc, rfl⟩ := List.mem_map.mp hn
    exact ⟨(hplain c hc).2.1, fun heq ↦ (hplain c hc).2.2 (Char.toNat_inj.mp heq)⟩
  have hall := unescapes_chars hchars
  rwa [htext] at hall

theorem whitespace_delimiters : ∀ e ∈ WHITESPACE, e ∈ delimiters := forall_mem_of_all (by decide)

/-- A name does not begin with white space. -/
theorem IsName.head_not_white {name : CString} (h : IsName name) (rest : CString) :
    ∀ c ∈ (name ++ rest).head?, c ∉ WHITESPACE := by
  obtain ⟨b, bs, rfl, hb⟩ := h.head
  intro c hc hmem
  cases hc
  exact hb (whitespace_delimiters _ hmem)

namespace Parser

variable {s : Parser} {ws name text value rest : CString} {fuel : Nat}

theorem take_eq {token : CString} (hcurr : s.currPtr = text ++ rest) (h : Unescapes text token)
    (hne : text ≠ []) : s.take text.length = .ok { s with tokBuf := token, currPtr := rest } := by
  rw [take, hcurr, copyToken_eq h hne, List.drop_left]
  rfl

theorem take_ascii (hcurr : s.currPtr = text ++ rest)
    (h : text.all plain = true) (hne : text ≠ []) :
    s.take text.length = .ok { s with tokBuf := text, currPtr := rest } :=
  take_eq hcurr (unescapes_ascii h) hne

/-- Nothing is skipped before what begins no comment, instruction or declaration. -/
theorem skipMarkup_eq (h : '!' ∉ (rest.drop 1).head? ∧ '?' ∉ (rest.drop 1).head? ∨
    '<' ∉ rest.head?) (fuel : Nat) : skipMarkup (fuel + 1) rest = .ok (rest, false) := by
  have hno : (BEGIN_COMMENT.isPrefixOf rest || BEGIN_PROCESSING.isPrefixOf rest ||
      BEGIN_DOCTYPE.isPrefixOf rest) = false := by
    rw [Bool.or_eq_false_iff, Bool.or_eq_false_iff]
    cases rest with
    | nil => exact ⟨⟨rfl, rfl⟩, rfl⟩
    | cons c rest =>
      by_cases hc : '<' = c
      · subst hc
        cases rest with
        | nil => exact ⟨⟨rfl, rfl⟩, rfl⟩
        | cons d rest =>
          obtain ⟨hbang, hquery⟩ := h.resolve_right fun h ↦ h rfl
          have hb : ('!' == d) = false := beq_false_of_ne fun heq ↦ hbang (heq ▸ rfl)
          have hq : ('?' == d) = false := beq_false_of_ne fun heq ↦ hquery (heq ▸ rfl)
          have hlt : ('<' == '<') = true := rfl
          refine ⟨⟨?_, ?_⟩, ?_⟩
          · change (('<' == '<') && (('!' == d) && _)) = false
            rw [hb, hlt]
            rfl
          · change (('<' == '<') && (('?' == d) && _)) = false
            rw [hq, hlt]
            rfl
          · change (('<' == '<') && (('!' == d) && _)) = false
            rw [hb, hlt]
            rfl
      · have hlt : ('<' == c) = false := beq_false_of_ne hc
        refine ⟨⟨?_, ?_⟩, ?_⟩
        all_goals
          change (('<' == c) && _) = false
          rw [hlt, Bool.false_and]
  rw [skipMarkup, hno]
  rfl

/-- A token that is no white space, outside an attribute and after no comment. -/
theorem getNextToken_eq (hattr : s.inAttrib = false) {c : Char} (hcurr : s.currPtr = c :: rest)
    (hc : c ∉ WHITESPACE) (hskip : c ≠ '<' ∨ '!' ∉ rest.head? ∧ '?' ∉ rest.head?) :
    s.getNextToken = { s with tokBuf := [] }.tokenAt := by
  have hskip' : skipMarkup ((c :: rest).length + 1) (c :: rest) = .ok (c :: rest, false) := by
    apply skipMarkup_eq
    rcases hskip with h | h
    · exact Or.inr fun heq ↦ h (Option.some.inj heq)
    · exact Or.inl h
  have hnot : ¬(s.inAttrib = true ∧ c ≠ '"') := fun h ↦ by rw [hattr] at h; cases h.1
  rw [getNextToken]
  simp only [hcurr, if_neg hnot, if_neg hc, hskip']
  change tokenAt { s with tokBuf := [], currPtr := c :: rest, tagVal := s.tagVal && !false } = _
  rw [Bool.not_false, Bool.and_true, ← hcurr]

theorem getNextToken_lt (hattr : s.inAttrib = false) (hname : IsName name)
    (hcurr : s.currPtr = '<' :: (name ++ rest)) : s.getNextToken =
      .ok { s with tokBuf := "<".toList, currPtr := name ++ rest, tagVal := false } := by
  obtain ⟨b, bs, hhead, hb⟩ := hname.head
  have hskip : '!' ∉ (name ++ rest).head? ∧ '?' ∉ (name ++ rest).head? := by
    rw [hhead]
    exact ⟨fun h ↦ hb (by cases h; decide), fun h ↦ hb (by cases h; decide)⟩
  rw [getNextToken_eq hattr hcurr (by decide) (Or.inr hskip)]
  obtain ⟨c, cs, hc, hcs, rfl⟩ := hname
  have htoint : toint ((c :: cs).flatMap toutf8 ++ rest) = some (c, (toutf8 c).length) := by
    rw [List.flatMap_cons, List.append_assoc]
    exact toint_toutf8 (isnamech_isxmlch (isnamech_true hc)) _
  have hslash : c ≠ '/'.toNat := by
    rintro rfl
    exact absurd hc (by decide +kernel)
  rw [tokenAt]
  simp only [hcurr, if_true, htoint, if_neg hslash, hc]
  exact @take_ascii _ "<".toList _ rfl (by decide) (by decide)

theorem getNextToken_endTag (hattr : s.inAttrib = false) (hcurr : s.currPtr = '<' :: '/' :: rest) :
    s.getNextToken =
      .ok { s with tokBuf := "</".toList, currPtr := rest, tagVal := false } := by
  have hskip : '!' ∉ ('/' :: rest).head? ∧ '?' ∉ ('/' :: rest).head? :=
    ⟨(fun h ↦ by cases h), (fun h ↦ by cases h)⟩
  rw [getNextToken_eq hattr hcurr (by decide) (Or.inr hskip), tokenAt]
  have htoint : toint ('/' :: rest) = some ('/'.toNat, 1) := toint_one (by decide)
  simp only [hcurr, if_true, htoint]
  exact @take_ascii _ "</".toList _ rfl (by decide) (by decide)

theorem getNextToken_gt (hattr : s.inAttrib = false) (hcurr : s.currPtr = '>' :: rest) :
    s.getNextToken = .ok { s with
      tokBuf := ">".toList, currPtr := rest, savePtr := some ('>' :: rest), tagVal := true } := by
  rw [getNextToken_eq hattr hcurr (by decide) (Or.inl (by decide)), tokenAt]
  have hlt : '>' ≠ '<' := by decide
  have hslash : '>' ≠ '/' := by decide
  simp only [hcurr, if_neg hlt, if_neg hslash, if_true]
  exact @take_ascii _ ">".toList _ rfl (by decide) (by decide)

/-- `/>`. -/
theorem getNextToken_completeTag (hattr : s.inAttrib = false)
    (hcurr : s.currPtr = '/' :: '>' :: rest) : s.getNextToken =
      .ok { s with tokBuf := "/>".toList, currPtr := rest, tagVal := true } := by
  rw [getNextToken_eq hattr hcurr (by decide) (Or.inl (by decide)), tokenAt]
  have hlt : '/' ≠ '<' := by decide
  simp only [hcurr, List.head?_cons, if_neg hlt, if_true]
  exact @take_ascii _ "/>".toList _ rfl (by decide) (by decide)

/-- An `=` or a quote, inside a tag. -/
theorem getNextToken_sign (hattr : s.inAttrib = false) (htag : s.tagVal = false) {c : Char}
    (hsign : c = '"' ∨ c = '=') (hcurr : s.currPtr = c :: rest) :
    s.getNextToken = .ok { s with tokBuf := [c], currPtr := rest } := by
  have hc : c ∉ WHITESPACE ∧ c ≠ '<' ∧ c ≠ '/' ∧ c ≠ '>' ∧ [c].all plain = true := by
    rcases hsign with rfl | rfl <;> decide
  obtain ⟨hwhite, hlt, hslash, hgt, hascii⟩ := hc
  rw [getNextToken_eq hattr hcurr hwhite (Or.inl hlt), tokenAt]
  simp only [hcurr, if_neg hlt, if_neg hslash, if_neg hgt, htag, Bool.false_eq_true, if_false,
    if_pos hsign]
  exact @take_ascii _ [c] _ rfl hascii (by intro h; cases h)

/-- The value of an attribute, up to its quote. -/
theorem getNextToken_attribute (hattr : s.inAttrib = true) (hcurr : s.currPtr = text ++ '"' :: rest)
    (hquote : '"' ∉ text) (h : Unescapes text value) (hne : text ≠ []) :
    s.getNextToken = .ok { s with tokBuf := value, currPtr := '"' :: rest } := by
  obtain ⟨c, cs, rfl⟩ := List.exists_cons_of_ne_nil hne
  have hc : c ≠ '"' := fun heq ↦ hquote (heq ▸ List.mem_cons_self ..)
  have htake : (c :: cs ++ '"' :: rest).takeWhile (· ≠ '"') = c :: cs := by
    have hpos : ∀ d ∈ c :: cs, decide (d ≠ '"') = true := fun d hd ↦
      decide_eq_true fun heq ↦ hquote (heq ▸ hd)
    rw [List.takeWhile_append_of_pos hpos]
    exact List.append_nil _
  have hcurr' : s.currPtr = c :: (cs ++ '"' :: rest) := hcurr
  rw [getNextToken]
  simp only [hcurr', if_pos (And.intro hattr hc)]
  rw [← List.cons_append, htake]
  exact @take_eq _ _ _ _ rfl h hne

/-- A name ends before what is no character of a name. -/
theorem nameLength_eq {cs : List Nat} (hcs : ∀ c ∈ cs, isnamech c true = true) {d : Char}
    (hd : d.toNat ≤ 127) (hend : isnamech d.toNat true = false) (hfuel : cs.length < fuel) :
    nameLength fuel (cs.flatMap toutf8 ++ d :: rest) = (cs.flatMap toutf8).length := by
  induction cs generalizing fuel with
  | nil =>
    obtain ⟨fuel, rfl⟩ := Nat.exists_eq_add_one_of_ne_zero (Nat.ne_of_gt hfuel)
    have htoint : toint (d :: rest) = some (d.toNat, 1) := by
      have hone := @toint_one d.toNat rest hd
      rwa [Char.ofNat_toNat] at hone
    change nameLength (fuel + 1) (d :: rest) = 0
    rw [nameLength]
    simp only [htoint, hend]
    rfl
  | cons c cs ih =>
    obtain ⟨fuel, rfl⟩ := Nat.exists_eq_add_one_of_ne_zero (Nat.ne_zero_of_lt hfuel)
    have hc := hcs c (List.mem_cons_self ..)
    rw [List.flatMap_cons, List.append_assoc, nameLength,
      toint_toutf8 (isnamech_isxmlch hc)]
    simp only [hc, if_true, List.drop_left]
    rw [ih (fun e he ↦ hcs e (List.mem_cons_of_mem _ he)) (Nat.lt_of_succ_lt_succ hfuel),
      List.length_append]

theorem flatMap_length_ge (cs : List Nat) : cs.length ≤ (cs.flatMap toutf8).length := by
  induction cs with
  | nil => exact Nat.le_refl 0
  | cons c cs ih =>
    have hc := toutf8_length_pos c
    rw [List.flatMap_cons, List.length_append, List.length_cons]
    omega

/-- A name, up to what is no character of a name. -/
theorem getNextToken_name (hattr : s.inAttrib = false) (htag : s.tagVal = false)
    (hname : IsName name) {d : Char} (hd : d.toNat ≤ 127) (hend : isnamech d.toNat true = false)
    (hcurr : s.currPtr = name ++ d :: rest) :
    s.getNextToken = .ok { s with tokBuf := name, currPtr := d :: rest } := by
  obtain ⟨b, bs, hhead, hb⟩ := hname.head
  have hunescapes := hname.unescapes
  have hnot : ∀ e ∈ delimiters, b ≠ e := fun e he heq ↦ hb (heq ▸ he)
  have hwhite : b ∉ WHITESPACE := fun h ↦ hb (whitespace_delimiters b h)
  have hcurr' : s.currPtr = b :: (bs ++ d :: rest) := by rw [hcurr, hhead]; rfl
  have hlt := hnot '<' (by decide)
  have hslash := hnot '/' (by decide)
  have hgt := hnot '>' (by decide)
  have hsign : ¬(b = '"' ∨ b = '=') := not_or.mpr ⟨hnot '"' (by decide), hnot '=' (by decide)⟩
  rw [getNextToken_eq hattr hcurr' hwhite (Or.inl hlt), tokenAt]
  simp only [hcurr', if_neg hlt, if_neg hslash, if_neg hgt, htag, Bool.false_eq_true, if_false,
    if_neg hsign]
  rw [← List.cons_append, ← hhead]
  obtain ⟨c, cs, hc, hcs, hspell⟩ := hname
  have hxml := isnamech_isxmlch (isnamech_true hc)
  have htoint : toint (name ++ d :: rest) = some (c, (toutf8 c).length) := by
    rw [hspell, List.flatMap_cons, List.append_assoc]
    exact toint_toutf8 hxml _
  have hdrop : (name ++ d :: rest).drop (toutf8 c).length = cs.flatMap toutf8 ++ d :: rest := by
    rw [hspell, List.flatMap_cons, List.append_assoc, List.drop_left]
  have hfuel : cs.length < (name ++ d :: rest).length := by
    have hcs' := flatMap_length_ge (c :: cs)
    rw [List.length_append, hspell, List.length_cons]
    rw [List.length_cons] at hcs'
    omega
  have hlength : (toutf8 c).length + nameLength (name ++ d :: rest).length
      ((name ++ d :: rest).drop (toutf8 c).length) = name.length := by
    rw [hdrop, nameLength_eq hcs hd hend hfuel]
    rw [hspell, List.flatMap_cons, List.length_append]
  simp only [htoint, hc, if_true, hlength]
  exact @take_eq _ _ _ _ rfl hunescapes (by rw [hhead]; intro h; cases h)

/-! ## Content -/

/-- Content ends before a tag. -/
theorem endContent_eq (htext : '<' ∉ text) (hrest : rest.head? ≠ some '!') (fuel : Nat) :
    endContent (fuel + 1) (text ++ '<' :: rest) = .ok ('<' :: rest) := by
  have hpos : ∀ c ∈ text, decide (c ≠ '<') = true := fun c hc ↦
    decide_eq_true fun heq ↦ htext (heq ▸ hc)
  have hdrop : (text ++ '<' :: rest).dropWhile (· ≠ '<') = '<' :: rest := by
    rw [List.dropWhile_append_of_pos hpos]
    rfl
  have hno : BEGIN_COMMENT.isPrefixOf ('<' :: rest) = false := by
    cases rest with
    | nil => rfl
    | cons d rest =>
      have hb : ('!' == d) = false := beq_false_of_ne fun heq ↦ hrest (heq ▸ rfl)
      have hlt : ('<' == '<') = true := rfl
      change (('<' == '<') && (('!' == d) && _)) = false
      rw [hb, hlt]
      rfl
  rw [endContent]
  simp only [hdrop, hno]
  rfl

/-- Content is taken from behind the `>` on. -/
theorem takeContent_eq {token : CString} (hsave : s.savePtr = some ('>' :: (text ++ '<' :: rest)))
    (htext : '<' ∉ text) (hrest : rest.head? ≠ some '!') (h : Unescapes text token)
    (hne : text ≠ []) : s.takeContent =
      .ok { s with tokBuf := token, currPtr := '<' :: rest, tagVal := false } := by
  have hlength : (text ++ '<' :: rest).length - ('<' :: rest).length = text.length := by
    rw [List.length_append, Nat.add_sub_cancel]
  obtain ⟨n, hn⟩ := Nat.exists_eq_add_one_of_ne_zero fun h ↦ hne (List.length_eq_zero_iff.mp h)
  have hend := endContent_eq htext hrest (text ++ '<' :: rest).length
  rw [takeContent]
  simp only [hsave, List.drop_one, List.tail_cons, hend, bind, Except.bind, hlength, hn]
  rw [← hn]
  exact @take_eq _ _ _ _ rfl h hne

/-- Content that does not begin as a tag ends. -/
theorem getNextToken_content {token : CString} (hattr : s.inAttrib = false)
    (htag : s.tagVal = true) (hsave : s.savePtr = some ('>' :: (text ++ '<' :: rest)))
    {c : Char} {more : CString} (hcurr : s.currPtr = c :: more) (hc : c ∉ WHITESPACE)
    (hlt : c ≠ '<') (hgt : c ≠ '>') (hslash : c = '/' → more.head? ≠ some '>')
    (htext : '<' ∉ text) (hrest : rest.head? ≠ some '!') (h : Unescapes text token)
    (hne : text ≠ []) : s.getNextToken =
      .ok { s with tokBuf := token, currPtr := '<' :: rest, tagVal := false } := by
  have htake := @takeContent_eq { s with tokBuf := [] } _ _ _ hsave htext hrest h hne
  rw [getNextToken_eq hattr hcurr hc (Or.inl hlt), tokenAt]
  simp only [hcurr, if_neg hlt, if_neg hgt, htag, if_true]
  by_cases hs : c = '/'
  · rw [if_pos hs, if_neg (hslash hs)]
    rw [htag, hcurr] at htake
    exact htake
  · rw [if_neg hs]
    rw [htag, hcurr] at htake
    exact htake

/-! ## White space -/

theorem ignoreWhiteSpaces_eq (hattr : s.inAttrib = false) (hws : ∀ c ∈ ws, c ∈ WHITESPACE)
    (hrest : ∀ c ∈ rest.head?, c ∉ WHITESPACE) (hcurr : s.currPtr = ws ++ rest)
    (hfuel : ws.length < fuel) :
    ∃ token, s.ignoreWhiteSpaces fuel = .ok { s with tokBuf := token, currPtr := rest } := by
  induction ws generalizing s fuel with
  | nil =>
    obtain ⟨fuel, rfl⟩ := Nat.exists_eq_add_one_of_ne_zero (Nat.ne_of_gt hfuel)
    have hcurr' : s.currPtr = rest := hcurr
    refine ⟨s.tokBuf, ?_⟩
    rw [ignoreWhiteSpaces]
    cases rest with
    | nil =>
      simp only [hcurr']
      rw [← hcurr']
      rfl
    | cons c rest =>
      simp only [hcurr', if_neg (hrest c rfl)]
      rw [← hcurr']
      rfl
  | cons w ws ih =>
    obtain ⟨fuel, rfl⟩ := Nat.exists_eq_add_one_of_ne_zero (Nat.ne_zero_of_lt hfuel)
    have hw := hws w (List.mem_cons_self ..)
    have hcurr' : s.currPtr = w :: (ws ++ rest) := hcurr
    have hnot : ¬(s.inAttrib = true ∧ w ≠ '"') := fun h ↦ by rw [hattr] at h; cases h.1
    have htoken : s.getNextToken = .ok { s with tokBuf := " ".toList, currPtr := ws ++ rest } := by
      rw [getNextToken]
      simp only [hcurr', if_neg hnot, if_pos hw]
      rfl
    obtain ⟨token, htoken'⟩ := @ih { s with tokBuf := " ".toList, currPtr := ws ++ rest } fuel hattr
      (fun c hc ↦ hws c (List.mem_cons_of_mem _ hc)) rfl (Nat.lt_of_succ_lt_succ hfuel)
    refine ⟨token, ?_⟩
    rw [ignoreWhiteSpaces]
    simp only [hcurr', if_pos hw, htoken]
    exact htoken'

theorem nextToken_eq (hattr : s.inAttrib = false) (hws : ∀ c ∈ ws, c ∈ WHITESPACE)
    (hrest : ∀ c ∈ rest.head?, c ∉ WHITESPACE) (hcurr : s.currPtr = ws ++ rest) :
    s.nextToken = { s with currPtr := rest }.getNextToken := by
  have hfuel : ws.length < s.currPtr.length + 1 := by
    rw [hcurr, List.length_append]
    omega
  obtain ⟨token, htoken⟩ := ignoreWhiteSpaces_eq hattr hws hrest hcurr hfuel
  rw [nextToken, htoken]
  rfl

/-- Without white space in front, the next token is the first. -/
theorem nextToken_here (hattr : s.inAttrib = false) {c : Char} (hc : c ∉ WHITESPACE)
    (hcurr : s.currPtr = c :: rest) : s.nextToken = s.getNextToken := by
  have hhead : ∀ d ∈ (c :: rest).head?, d ∉ WHITESPACE := by
    intro d hd
    cases hd
    exact hc
  rw [@nextToken_eq s [] _ hattr (fun d hd ↦ by cases hd) hhead hcurr, ← hcurr]

/-! ## `getNextNode` -/

theorem IsName_ne_nil (hname : IsName name) : name ≠ [] := by
  obtain ⟨b, bs, rfl, -⟩ := hname.head
  exact List.cons_ne_nil b bs

variable {n : NextNode}

/-- A start tag, up to the end of its name. -/
theorem nodePass_startTag (hattr : s.inAttrib = false) (hws : ∀ c ∈ ws, c ∈ WHITESPACE)
    (hname : IsName name) {d : Char} (hd : d.toNat ≤ 127) (hend : isnamech d.toNat true = false)
    (hcurr : s.currPtr = ws ++ '<' :: (name ++ d :: rest)) (n : NextNode) :
    s.nodePass n = .ok ({ s with
      currPtr := d :: rest, tagVal := false, attrFound := true, atLeastOneAttrFound := false
      tokBuf := name, lastElem := name }, ⟨.ELEMENT_NODE, some name, none, false⟩, false) := by
  have hlt := @getNextToken_lt { s with currPtr := '<' :: (name ++ d :: rest) } name (d :: rest)
    hattr hname rfl
  have hfirst : s.nextToken = _ := nextToken_eq hattr hws
    (fun c hc ↦ by cases hc; decide) hcurr
  rw [hlt] at hfirst
  have hbws := hname.head_not_white (d :: rest)
  have hsecond := @nextToken_eq { s with
    tokBuf := "<".toList, currPtr := name ++ d :: rest, tagVal := false } [] _ hattr
    (fun c hc ↦ by cases hc) hbws rfl
  rw [@getNextToken_name { s with
    tokBuf := "<".toList, currPtr := name ++ d :: rest, tagVal := false } _ _ hattr rfl hname _
    hd hend rfl] at hsecond
  rw [nodePass]
  simp only [hfirst, hsecond, bind, Except.bind, if_true, if_neg (IsName_ne_nil hname)]
  rfl

/-- A token `>` ends the node, where there is one. -/
theorem nodePass_gt_token {s' : Parser} (htoken : s.nextToken = .ok s')
    (hbuf : s'.tokBuf = ">".toList) (hone : s'.atLeastOneAttrFound = false) (n : NextNode) :
    s.nodePass n = .ok ({ s' with attrFound := false }, n, true) := by
  have hlt : ">".toList ≠ "<".toList := by decide
  rw [nodePass]
  simp only [htoken, bind, Except.bind, hbuf, if_neg hlt, if_true, hone]
  rfl

/-- The end of a tag without attributes. -/
theorem nodePass_gt (hattr : s.inAttrib = false) (hone : s.atLeastOneAttrFound = false)
    (hcurr : s.currPtr = '>' :: rest) (n : NextNode) :
    s.nodePass n = .ok ({ s with
      currPtr := rest, savePtr := some ('>' :: rest), tagVal := true, attrFound := false
      tokBuf := ">".toList }, n, true) := by
  have htoken := (nextToken_here hattr (by decide) hcurr).trans (getNextToken_gt hattr hcurr)
  exact nodePass_gt_token htoken rfl hone n

/-- Behind attributes, a token `>` ends no node. -/
theorem nodePass_gt_found {s' : Parser} (htoken : s.nextToken = .ok s')
    (hbuf : s'.tokBuf = ">".toList) (hone : s'.atLeastOneAttrFound = true) (n : NextNode) :
    s.nodePass n =
      .ok ({ s' with attrFound := false, atLeastOneAttrFound := false }, n, false) := by
  have hlt : ">".toList ≠ "<".toList := by decide
  rw [nodePass]
  simp only [htoken, bind, Except.bind, hbuf, if_neg hlt, if_true, hone]
  rfl

/-- The end of a tag with attributes. -/
theorem nodePass_gt_attributes (hattr : s.inAttrib = false) (hone : s.atLeastOneAttrFound = true)
    (hcurr : s.currPtr = '>' :: rest) (n : NextNode) :
    s.nodePass n = .ok ({ s with
      currPtr := rest, savePtr := some ('>' :: rest), tagVal := true, attrFound := false
      atLeastOneAttrFound := false, tokBuf := ">".toList }, n, false) := by
  have htoken := (nextToken_here hattr (by decide) hcurr).trans (getNextToken_gt hattr hcurr)
  exact nodePass_gt_found htoken rfl hone n

/-- An end tag, up to the end of its name. -/
theorem nodePass_endTag (hattr : s.inAttrib = false) (hws : ∀ c ∈ ws, c ∈ WHITESPACE)
    (hname : IsName name) (hcurr : s.currPtr = ws ++ '<' :: '/' :: (name ++ '>' :: rest))
    (n : NextNode) :
    s.nodePass n = .ok ({ s with currPtr := '>' :: rest, tagVal := false, tokBuf := name },
      ⟨.ELEMENT_NODE, some name, none, true⟩, false) := by
  have hfirst : s.nextToken = _ := nextToken_eq hattr hws
    (fun c hc ↦ by cases hc; decide) hcurr
  rw [@getNextToken_endTag { s with currPtr := '<' :: '/' :: (name ++ '>' :: rest) } _ hattr
    rfl] at hfirst
  have hbws := hname.head_not_white ('>' :: rest)
  have hsecond := @nextToken_eq { s with
    tokBuf := "</".toList, currPtr := name ++ '>' :: rest, tagVal := false } [] _ hattr
    (fun c hc ↦ by cases hc) hbws rfl
  rw [@getNextToken_name { s with
    tokBuf := "</".toList, currPtr := name ++ '>' :: rest, tagVal := false } _ _ hattr rfl hname
    '>' (by decide) (by decide +kernel) rfl] at hsecond
  have hlt : "</".toList ≠ "<".toList := by decide
  have hgt : "</".toList ≠ ">".toList := by decide
  rw [nodePass]
  simp only [hfirst, hsecond, bind, Except.bind, if_neg hlt, if_neg hgt, if_true,
    if_neg (IsName_ne_nil hname)]
  rfl

theorem getNextNode_pass {s' : Parser} {n' : NextNode} (hcurr : s.currPtr ≠ [])
    (hpass : s.nodePass n = .ok (s', n', false)) :
    s.getNextNode (fuel + 1) n = s'.getNextNode fuel n' := by
  rw [getNextNode, if_neg hcurr]
  simp only [hpass, bind, Except.bind]
  rfl

theorem getNextNode_return {s' : Parser} {n' : NextNode} (hcurr : s.currPtr ≠ [])
    (hpass : s.nodePass n = .ok (s', n', true)) :
    s.getNextNode (fuel + 1) n = .ok (s', n') := by
  rw [getNextNode, if_neg hcurr]
  simp only [hpass, bind, Except.bind]
  rfl

/-- At the end of the buffer there is no node. -/
theorem getNextNode_nil (hcurr : s.currPtr = []) (n : NextNode) (fuel : Nat) :
    s.getNextNode fuel n = .ok (s, n) := by
  cases fuel with
  | zero => exact if_pos hcurr
  | succ fuel => exact if_pos hcurr

/-- A start tag without attributes. -/
theorem getNextNode_startTag (hattr : s.inAttrib = false) (hws : ∀ c ∈ ws, c ∈ WHITESPACE)
    (hname : IsName name) (hcurr : s.currPtr = ws ++ '<' :: (name ++ '>' :: rest))
    (n : NextNode) (fuel : Nat) :
    s.getNextNode (fuel + 2) n = .ok ({ s with
      currPtr := rest, savePtr := some ('>' :: rest), tagVal := true, attrFound := false
      atLeastOneAttrFound := false, tokBuf := ">".toList, lastElem := name },
      ⟨.ELEMENT_NODE, some name, none, false⟩) := by
  have hne : s.currPtr ≠ [] := by
    rw [hcurr]
    exact List.append_ne_nil_of_right_ne_nil _ (List.cons_ne_nil _ _)
  rw [getNextNode_pass hne (nodePass_startTag hattr hws hname (by decide) (by decide +kernel)
    hcurr n)]
  refine getNextNode_return ?_ (nodePass_gt ?_ rfl rfl _)
  · exact List.cons_ne_nil _ _
  · exact hattr

/-- An end tag, after a tag without attributes. -/
theorem getNextNode_endTag (hattr : s.inAttrib = false) (hone : s.atLeastOneAttrFound = false)
    (hws : ∀ c ∈ ws, c ∈ WHITESPACE) (hname : IsName name)
    (hcurr : s.currPtr = ws ++ '<' :: '/' :: (name ++ '>' :: rest)) (n : NextNode) (fuel : Nat) :
    s.getNextNode (fuel + 2) n = .ok ({ s with
      currPtr := rest, savePtr := some ('>' :: rest), tagVal := true, attrFound := false
      tokBuf := ">".toList }, ⟨.ELEMENT_NODE, some name, none, true⟩) := by
  have hne : s.currPtr ≠ [] := by
    rw [hcurr]
    exact List.append_ne_nil_of_right_ne_nil _ (List.cons_ne_nil _ _)
  rw [getNextNode_pass hne (nodePass_endTag hattr hws hname hcurr n)]
  refine getNextNode_return ?_ (nodePass_gt ?_ ?_ rfl _)
  · exact List.cons_ne_nil _ _
  · exact hattr
  · exact hone

/-! ## The content of an element -/

/-- Behind a start tag, in front of the content. -/
structure InContent (s : Parser) (content : CString) : Prop where
  inAttrib : s.inAttrib = false
  tagVal : s.tagVal = true
  attrFound : s.attrFound = false
  atLeastOneAttrFound : s.atLeastOneAttrFound = false
  savePtr : s.savePtr = some ('>' :: content)
  currPtr : s.currPtr = content

variable {c : Char} {more token : CString}

theorem InContent.nextToken_eq (h : s.InContent (ws ++ c :: more)) (hws : ∀ c ∈ ws, c ∈ WHITESPACE)
    (hc : c ∉ WHITESPACE) : s.nextToken = { s with currPtr := c :: more }.getNextToken := by
  have hhead : ∀ d ∈ (c :: more).head?, d ∉ WHITESPACE := by
    intro d hd
    cases hd
    exact hc
  exact Parser.nextToken_eq h.inAttrib hws hhead h.currPtr

/-- Content that begins with no `>` and no `/>` is one token. -/
theorem InContent.nextToken_content (h : s.InContent (ws ++ c :: (more ++ '<' :: '/' :: rest)))
    (hws : ∀ c ∈ ws, c ∈ WHITESPACE) (hc : c ∉ WHITESPACE) (hgt : c ≠ '>')
    (hslash : c = '/' → more.head? ≠ some '>') (hlt : '<' ∉ ws ++ c :: more)
    (hvalue : Unescapes (ws ++ c :: more) value) : s.nextToken =
      .ok { s with tokBuf := value, currPtr := '<' :: '/' :: rest, tagVal := false } := by
  have hsave : s.savePtr = some ('>' :: ((ws ++ c :: more) ++ '<' :: '/' :: rest)) := by
    rw [h.savePtr, List.append_assoc]
    rfl
  have hcne : c ≠ '<' := by
    rintro rfl
    exact hlt (List.mem_append_right _ (List.mem_cons_self ..))
  have hslash' : c = '/' → (more ++ '<' :: '/' :: rest).head? ≠ some '>' := by
    intro heq hhead
    cases more with
    | nil => cases hhead
    | cons d more => exact hslash heq hhead
  rw [h.nextToken_eq hws hc]
  exact @getNextToken_content { s with currPtr := c :: (more ++ '<' :: '/' :: rest) } _ _ _
    h.inAttrib h.tagVal hsave _ _ rfl hc hcne hgt hslash' hlt (fun h ↦ by cases h) hvalue
    (List.append_ne_nil_of_right_ne_nil _ (List.cons_ne_nil _ _))

/-- The texts that are markup. -/
def markup : List CString := ["<".toList, ">".toList, "</".toList, "/>".toList]

/-- Content that is no markup is the text of the element. -/
theorem nodePass_text {s' : Parser} (htoken : s.nextToken = .ok s') (hattr : s'.attrFound = false)
    (hne : s'.tokBuf ≠ []) (hmarkup : s'.tokBuf ∉ markup) (n : NextNode) :
    s.nodePass n = .ok (s', ⟨.TEXT_NODE, some "#text".toList, some s'.tokBuf, false⟩, true) := by
  have hall : ∀ m ∈ markup, s'.tokBuf ≠ m := fun m hm heq ↦ hmarkup (heq ▸ hm)
  rw [nodePass]
  simp only [htoken, bind, Except.bind, if_neg (hall "<".toList (by decide)),
    if_neg (hall ">".toList (by decide)), if_neg (hall "</".toList (by decide)),
    if_neg (hall "/>".toList (by decide)), if_neg hne, hattr]
  rfl

/-- A token `/>` in the content ends the element. -/
theorem nodePass_completeTag_token {s' : Parser} (htoken : s.nextToken = .ok s')
    (hbuf : s'.tokBuf = "/>".toList) :
    s.nodePass .reset = .ok ({ s' with attrFound := true, atLeastOneAttrFound := false },
      ⟨.ELEMENT_NODE, some s'.lastElem, none, true⟩, true) := by
  have hlt : "/>".toList ≠ "<".toList := by decide
  have hgt : "/>".toList ≠ ">".toList := by decide
  have hend : "/>".toList ≠ "</".toList := by decide
  have hnode : ¬(NextNode.reset.nodeType = .ELEMENT_NODE ∨
      NextNode.reset.nodeType = .ATTRIBUTE_NODE) := by decide
  rw [nodePass]
  simp only [htoken, bind, Except.bind, hbuf, if_neg hlt, if_neg hgt, if_neg hend, if_true,
    if_neg hnode]
  rfl

/-! ## Attributes -/

theorem IsName_not_markup (hname : IsName name) : name ∉ markup := by
  obtain ⟨b, bs, rfl, hb⟩ := hname.head
  have hall : ∀ m ∈ markup, ∃ d ds, m = d :: ds ∧ d ∈ delimiters := by
    intro m hm
    rcases List.mem_cons.mp hm with rfl | hm
    · exact ⟨'<', [], rfl, by decide⟩
    rcases List.mem_cons.mp hm with rfl | hm
    · exact ⟨'>', [], rfl, by decide⟩
    rcases List.mem_cons.mp hm with rfl | hm
    · exact ⟨'<', ['/'], rfl, by decide⟩
    · exact ⟨'/', ['>'], List.mem_singleton.mp hm, by decide⟩
  intro hmem
  obtain ⟨d, ds, heq, hd⟩ := hall _ hmem
  cases heq
  exact hb hd

theorem rewindCurrentPtr_eq (hsuffix : text ++ s.currPtr <:+ s.parseBuff) :
    s.rewindCurrentPtr text.length = .ok { s with currPtr := text ++ s.currPtr } := by
  obtain ⟨front, hfront⟩ := hsuffix
  have hlength : s.parseBuff.length = front.length + (s.currPtr.length + text.length) := by
    rw [← hfront, List.length_append, List.length_append, Nat.add_comm text.length]
  have hdrop : s.parseBuff.drop (s.parseBuff.length - (s.currPtr.length + text.length)) =
      text ++ s.currPtr := by
    rw [hlength, Nat.add_sub_cancel, ← hfront, List.drop_left]
  rw [rewindCurrentPtr, if_pos (by omega), hdrop]
  rfl

/-- A name behind an element that was just found is left for the next node. -/
theorem nodePass_rewind (hattr : s.inAttrib = false) (htag : s.tagVal = false)
    (hfound : s.attrFound = true) (hws : ∀ c ∈ ws, c ∈ WHITESPACE) (hname : IsName name) {d : Char}
    (hd : d.toNat ≤ 127) (hend : isnamech d.toNat true = false)
    (hcurr : s.currPtr = ws ++ (name ++ d :: rest))
    (hsuffix : c :: (name ++ d :: rest) <:+ s.parseBuff) (hnode : n.nodeType = .ELEMENT_NODE) :
    s.nodePass n =
      .ok ({ s with currPtr := c :: (name ++ d :: rest), tokBuf := name }, n, true) := by
  have hbws := hname.head_not_white (d :: rest)
  have hfirst := Parser.nextToken_eq hattr hws hbws hcurr
  rw [@getNextToken_name { s with currPtr := name ++ d :: rest } _ _ hattr htag hname d hd hend
    rfl] at hfirst
  have hnot : ∀ m ∈ markup, name ≠ m := fun m hm heq ↦ IsName_not_markup hname (heq ▸ hm)
  have hfound' : (!s.attrFound) = false := by rw [hfound]; rfl
  have hrewind := @rewindCurrentPtr_eq { s with tokBuf := name, currPtr := d :: rest } (c :: name)
    hsuffix
  rw [List.length_cons] at hrewind
  rw [nodePass]
  simp only [hfirst, bind, Except.bind, if_neg (hnot "<".toList (by decide)),
    if_neg (hnot ">".toList (by decide)), if_neg (hnot "</".toList (by decide)),
    if_neg (hnot "/>".toList (by decide)), if_neg (IsName_ne_nil hname), hfound',
    Bool.false_eq_true, if_false, if_pos hnode, hrewind]
  rfl

/-- What may stand behind a name in a tag. -/
def nameEnds : CString := "\n\t\r\x0c =>/".toList

theorem nameEnds_spec : ∀ d ∈ nameEnds, d.toNat ≤ 127 ∧ isnamech d.toNat true = false :=
  forall_mem_of_all (by decide +kernel)

theorem whitespace_nameEnds : ∀ e ∈ WHITESPACE, e ∈ nameEnds := forall_mem_of_all (by decide)

/-- A name ends before white space, too. -/
theorem exists_nameEnd (hws : ∀ c ∈ ws, c ∈ WHITESPACE) {d : Char} (hd : d ∈ nameEnds) :
    ∃ e more, ws ++ d :: rest = e :: more ∧ e ∈ nameEnds := by
  cases ws with
  | nil => exact ⟨d, rest, rfl, hd⟩
  | cons w ws => exact ⟨w, _, rfl, whitespace_nameEnds w (hws w (List.mem_cons_self ..))⟩

/-- A name, before what ends it. -/
theorem nextToken_name (hattr : s.inAttrib = false) (htag : s.tagVal = false)
    (hws : ∀ c ∈ ws, c ∈ WHITESPACE) (hname : IsName name) {d : Char} (hd : d ∈ nameEnds)
    (hcurr : s.currPtr = ws ++ (name ++ d :: rest)) :
    s.nextToken = .ok { s with tokBuf := name, currPtr := d :: rest } := by
  obtain ⟨hascii, hend⟩ := nameEnds_spec d hd
  rw [Parser.nextToken_eq hattr hws (hname.head_not_white (d :: rest)) hcurr]
  exact @getNextToken_name { s with currPtr := name ++ d :: rest } _ _ hattr htag hname d hascii hend
    rfl

/-- An `=` or a quote, behind white space. -/
theorem nextToken_sign (hattr : s.inAttrib = false) (htag : s.tagVal = false)
    (hws : ∀ c ∈ ws, c ∈ WHITESPACE) {d : Char} (hsign : d = '"' ∨ d = '=')
    (hcurr : s.currPtr = ws ++ d :: rest) :
    s.nextToken = .ok { s with tokBuf := [d], currPtr := rest } := by
  have hd : ∀ e ∈ (d :: rest).head?, e ∉ WHITESPACE := by
    intro e he
    cases he
    rcases hsign with rfl | rfl <;> decide
  rw [Parser.nextToken_eq hattr hws hd hcurr]
  exact @getNextToken_sign { s with currPtr := d :: rest } _ hattr htag d hsign rfl

/-- An attribute, with its value. -/
theorem nodePass_attribute {ws₁ ws₂ : CString} (hattr : s.inAttrib = false)
    (htag : s.tagVal = false) (hfound : s.attrFound = true) (hws : ∀ c ∈ ws, c ∈ WHITESPACE)
    (hname : IsName name) (hws₁ : ∀ c ∈ ws₁, c ∈ WHITESPACE) (hws₂ : ∀ c ∈ ws₂, c ∈ WHITESPACE)
    (hquote : '"' ∉ text) (hvalue : Unescapes text value) (hne : text ≠ []) (hne' : value ≠ [])
    (hcurr : s.currPtr = ws ++ (name ++ (ws₁ ++ '=' :: (ws₂ ++ '"' :: (text ++ '"' :: rest)))))
    (hnode : n.nodeType ≠ .ELEMENT_NODE) : s.nodePass n =
      .ok ({ s with currPtr := rest, tokBuf := ['"'], atLeastOneAttrFound := true },
        ⟨.ATTRIBUTE_NODE, some name, some value, false⟩, true) := by
  obtain ⟨d, more, hmore, hd⟩ :=
    @exists_nameEnd ws₁ (ws₂ ++ '"' :: (text ++ '"' :: rest)) hws₁ '=' (by decide)
  rw [hmore] at hcurr
  have hfirst := nextToken_name hattr htag hws hname hd hcurr
  have hequals := @nextToken_sign { s with tokBuf := name, currPtr := d :: more } ws₁ _ hattr htag
    hws₁ '=' (Or.inr rfl) hmore.symm
  have hopen := @nextToken_sign { s with
    tokBuf := ['='], currPtr := ws₂ ++ '"' :: (text ++ '"' :: rest) } ws₂ _ hattr htag hws₂ '"'
    (Or.inl rfl) rfl
  have hread := @getNextToken_attribute { s with
    tokBuf := ['"'], currPtr := text ++ '"' :: rest, inAttrib := true } text value rest rfl rfl
    hquote hvalue hne
  have hclose := @getNextToken_sign { s with
    tokBuf := value, currPtr := '"' :: rest, inAttrib := false } _ rfl htag '"' (Or.inl rfl) rfl
  have hnot : ∀ m ∈ markup, name ≠ m := fun m hm heq ↦ IsName_not_markup hname (heq ▸ hm)
  have hfound' : (!s.attrFound) = false := by rw [hfound]; rfl
  rw [nodePass]
  simp only [hfirst, bind, Except.bind, if_neg (hnot "<".toList (by decide)),
    if_neg (hnot ">".toList (by decide)), if_neg (hnot "</".toList (by decide)),
    if_neg (hnot "/>".toList (by decide)), if_neg (IsName_ne_nil hname), hfound',
    Bool.false_eq_true, if_false, if_neg hnode]
  rw [readAttribute]
  simp only [bind, Except.bind, hequals, hopen, hread, if_neg hne', hclose]
  rw [hattr]
  rfl

/-- A start tag, up to its first attribute. -/
theorem getNextNode_startTag_attributes (hattr : s.inAttrib = false)
    (hws : ∀ c ∈ ws, c ∈ WHITESPACE) (hname : IsName name) {key : CString}
    (hkey : IsName key)
    (hcurr : s.currPtr = ws ++ '<' :: (name ++ ' ' :: (key ++ '=' :: rest)))
    (hsuffix : s.currPtr <:+ s.parseBuff) (n : NextNode) (fuel : Nat) :
    s.getNextNode (fuel + 2) n = .ok ({ s with
      currPtr := ' ' :: (key ++ '=' :: rest), tagVal := false, attrFound := true
      atLeastOneAttrFound := false, tokBuf := key, lastElem := name },
      ⟨.ELEMENT_NODE, some name, none, false⟩) := by
  have hne : s.currPtr ≠ [] := by
    rw [hcurr]
    exact List.append_ne_nil_of_right_ne_nil _ (List.cons_ne_nil _ _)
  have hsuffix' : ' ' :: (key ++ '=' :: rest) <:+ s.parseBuff := by
    refine List.IsSuffix.trans ?_ hsuffix
    rw [hcurr]
    refine ⟨ws ++ '<' :: name, ?_⟩
    rw [List.append_assoc, List.cons_append]
  rw [getNextNode_pass hne (nodePass_startTag hattr hws hname (by decide) (by decide +kernel)
    hcurr n)]
  refine getNextNode_return (List.cons_ne_nil _ _) ?_
  refine @nodePass_rewind _ [' '] key rest _ ' ' ?_ rfl rfl (forall_mem_of_all (by decide)) hkey '='
    (by decide) (by decide +kernel) rfl ?_ rfl
  · exact hattr
  · exact hsuffix'

/-- The `>` behind attributes is passed over. -/
theorem getNextNode_gt_attributes (hattr : s.inAttrib = false)
    (hone : s.atLeastOneAttrFound = true) (hcurr : s.currPtr = '>' :: rest) (n : NextNode)
    (fuel : Nat) : s.getNextNode (fuel + 1) n = getNextNode fuel { s with
      currPtr := rest, savePtr := some ('>' :: rest), tagVal := true, attrFound := false
      atLeastOneAttrFound := false, tokBuf := ">".toList } n :=
  getNextNode_pass (hcurr ▸ List.cons_ne_nil _ _) (nodePass_gt_attributes hattr hone hcurr n)

/-- Inside a tag, a `/` that ends no tag is an error. -/
theorem getNextNode_slash (hattr : s.inAttrib = false) (htag : s.tagVal = false)
    (hrest : rest.head? ≠ some '>') (hcurr : s.currPtr = '/' :: rest) (n : NextNode) (fuel : Nat) :
    s.getNextNode (fuel + 1) n = .error .FATAL_ERROR_DURING_PARSING := by
  have hslash : '/' ≠ '<' := by decide
  have htoken : s.nextToken = .error .FATAL_ERROR_DURING_PARSING := by
    rw [nextToken_here hattr (by decide) hcurr,
      getNextToken_eq hattr hcurr (by decide) (Or.inl hslash), tokenAt]
    simp only [hcurr, if_neg hslash, if_true, if_neg hrest, htag, Bool.false_eq_true, if_false]
    rfl
  have hpass : s.nodePass n = .error .FATAL_ERROR_DURING_PARSING := by
    rw [nodePass, htoken]
    rfl
  rw [getNextNode, if_neg (hcurr ▸ List.cons_ne_nil _ _), hpass]
  rfl

/-- There is no node in what is only white space. -/
theorem getNextNode_blank (hattr : s.inAttrib = false) (hws : ∀ c ∈ ws, c ∈ WHITESPACE)
    (hne : ws ≠ []) (hcurr : s.currPtr = ws) (n : NextNode) :
    ∃ s', ∀ fuel, s.getNextNode (fuel + 1) n = .ok (s', { n with isEnd := false }) := by
  have htoken := @Parser.nextToken_eq s ws [] hattr hws (fun c hc ↦ by cases hc)
    (by rw [List.append_nil, hcurr])
  have hnone : getNextToken { s with currPtr := [] } =
      .ok { s with currPtr := [], tokBuf := [] } := rfl
  rw [hnone] at htoken
  have hpass : s.nodePass n =
      .ok ({ s with currPtr := [], tokBuf := [] }, { n with isEnd := false }, false) := by
    have hnot : ∀ m ∈ markup, [] ≠ m := by decide
    rw [nodePass]
    simp only [htoken, bind, Except.bind, if_neg (hnot "<".toList (by decide)),
      if_neg (hnot ">".toList (by decide)), if_neg (hnot "</".toList (by decide)),
      if_neg (hnot "/>".toList (by decide)), if_true]
    rfl
  refine ⟨{ s with currPtr := [], tokBuf := [] }, fun fuel ↦ ?_⟩
  rw [getNextNode_pass (hcurr ▸ hne) hpass]
  cases fuel <;> rfl

end Parser

/-! ## The loop over the nodes -/

variable {s s' : Parser} {n n' : NextNode} {current current' : Current} {fuel : Nat}

theorem readLoop_step (hnode : s.getNextNode fuel n = .ok (s', n'))
    (hadd : current.add n' = .ok current') (hne : n'.nodeType ≠ .INVALID_NODE) :
    readLoop (fuel + 1) s n current = readLoop fuel s' .reset current' := by
  rw [readLoop]
  simp only [hnode, hadd, bind, Except.bind, if_neg hne]

/-- The loop ends where no node is found. -/
theorem readLoop_end (hnode : s.getNextNode fuel n = .ok (s', .reset)) :
    readLoop (fuel + 1) s n current = .ok (current.1.root current.2) := by
  rw [readLoop]
  simp only [hnode, bind, Except.bind]
  rfl

theorem readLoop_error {fault : Fault} (hnode : s.getNextNode fuel n = .error fault) :
    readLoop (fuel + 1) s n current = .error fault := by
  rw [readLoop]
  simp only [hnode, bind, Except.bind]

theorem Parser.getNextNode_mono {r : Parser × NextNode} (h : s.getNextNode fuel n = .ok r) :
    s.getNextNode (fuel + 1) n = .ok r := by
  induction fuel generalizing s n with
  | zero =>
    by_cases hcurr : s.currPtr = []
    · rw [getNextNode, if_pos hcurr] at h
      rw [getNextNode, if_pos hcurr]
      exact h
    · rw [getNextNode, if_neg hcurr] at h
      cases h
  | succ fuel ih =>
    rw [getNextNode] at h ⊢
    split_ifs at h ⊢
    · exact h
    · cases hpass : s.nodePass n with
      | error fault =>
        rw [hpass] at h
        cases h
      | ok found =>
        obtain ⟨s', n', returns⟩ := found
        rw [hpass] at h
        cases returns with
        | true => exact h
        | false => exact ih h

/-- With more fuel the result is the same. -/
theorem readLoop_mono {doc : List Content} (h : readLoop fuel s n current = .ok doc) :
    readLoop (fuel + 1) s n current = .ok doc := by
  induction fuel generalizing s n current with
  | zero => cases h
  | succ fuel ih =>
    rw [readLoop] at h ⊢
    cases hnode : s.getNextNode fuel n with
    | error fault =>
      rw [hnode] at h
      cases h
    | ok found =>
      obtain ⟨s', n'⟩ := found
      rw [hnode] at h
      rw [Parser.getNextNode_mono hnode]
      simp only [bind, Except.bind] at h ⊢
      cases hadd : current.add n' with
      | error fault =>
        rw [hadd] at h
        cases h
      | ok current' =>
        rw [hadd] at h
        simp only at h ⊢
        split_ifs at h ⊢ with hnone
        · exact h
        · exact ih h

theorem readDocument_mono {doc : List Content} {xmlFile : CString}
    (h : readDocument fuel n xmlFile = .ok doc) (more : Nat) :
    readDocument (fuel + more) n xmlFile = .ok doc := by
  induction more with
  | zero => exact h
  | succ more ih =>
    rw [readDocument] at ih ⊢
    cases hnew : Parser.new xmlFile with
    | error fault =>
      rw [hnew] at ih
      cases ih
    | ok myparser =>
      rw [hnew] at ih
      exact readLoop_mono ih

/-- The `>` behind attributes does not count. -/
theorem readLoop_congr {result : Except Fault (Parser × NextNode)}
    (hnode : s.getNextNode fuel n = result) (hnode' : s'.getNextNode fuel n = result) :
    readLoop (fuel + 1) s n current = readLoop (fuel + 1) s' n current := by
  rw [readLoop, readLoop, hnode, hnode']

end Upnp.Xml
