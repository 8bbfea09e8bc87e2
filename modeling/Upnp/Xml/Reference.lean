import Mathlib.Data.List.TakeWhile
import Upnp.Xml.Characters

/-!
# Character references

What `get_char` does with an `&`: a reference is read with its value and its length, everything else
is rejected.  Names and the `x` in front of hexadecimal digits are compared without regard to case.
-/

namespace Upnp.Xml

open Upnp.Lib

/-- A reference and the number that it stands for; `same` is how a spelling is compared with the one
in the grammar. -/
inductive Reference (same : CString → CString → Prop) : CString → Nat → Prop
  | entity {name e : CString} {d : Nat} (h : (e, d) ∈ entities) (hname : same name e) :
      Reference same name d
  | hex {mark digits : CString} (hmark : same mark "&#x".toList) (hne : digits ≠ [])
      (hdigits : ∀ d ∈ digits, d ∈ HEX_NUMBERS) :
      Reference same (mark ++ digits ++ [';']) (number 16 digits)
  | dec {digits : CString} (hne : digits ≠ []) (hdigits : ∀ d ∈ digits, d ∈ DEC_NUMBERS) :
      Reference same ("&#".toList ++ digits ++ [';']) (number 10 digits)

/-- At a text, a reference to a number is read if and only if XML allows the number, with the length
of the reference; an `&` that starts no reference is rejected. -/
structure ReferencesRead (same : CString → CString → Prop) (fits : Nat → Prop) (src : CString) :
    Prop where
  read : ∀ e v, Reference same e v → e <+: src → fits v →
    getChar src = if isxmlch v = true then some ((v : Int), e.length) else none
  reject : src.head? = some '&' → (∀ e v, Reference same e v → ¬ e <+: src) → getChar src = none

/-- Without regard to case. -/
def SameLetters (s t : CString) : Prop := strcaseEq s t = true

variable {s t src e name digits rest : CString} {v : Nat}

theorem strncaseEq_eq (s t : CString) (n : Nat) :
    strncaseEq s t n = decide ((s.map Char.toLower).take n = (t.map Char.toLower).take n) := by
  rw [strncaseEq, strcaseEq, List.map_take, List.map_take]

theorem SameLetters.map_eq (h : SameLetters s t) : s.map Char.toLower = t.map Char.toLower :=
  of_decide_eq_true h

theorem SameLetters.length_eq (h : SameLetters s t) : s.length = t.length := by
  rw [← List.length_map Char.toLower, h.map_eq, List.length_map]

/-- A spelling of a text with `&` in front starts with it, too. -/
theorem SameLetters.head (h : SameLetters s ('&' :: t)) (rest : CString) :
    (s ++ rest).head? = some '&' := by
  cases s with
  | nil => cases h.map_eq
  | cons c s =>
    have hc : c.toLower = '&' := (List.cons.inj h.map_eq).1
    rw [eq_of_toLower_eq hc (by decide)]
    rfl

theorem SameLetters.map_append (h : SameLetters s t) (rest : CString) :
    (s ++ rest).map Char.toLower = t.map Char.toLower ++ rest.map Char.toLower := by
  rw [List.map_append, h.map_eq]

/-! ## References that are read -/

theorem getChar_name (h : (e, v) ∈ entities) (hname : SameLetters name e) :
    getChar (name ++ rest) = some ((v : Int), name.length) := by
  have hmap := hname.map_append rest
  have hlen := hname.length_eq
  have hhead : (name ++ rest).head? = some '&' := by
    have hall : ∀ e ∈ entities, ∃ t, e.1 = '&' :: t := by
      simp only [entities, List.forall_mem_cons]
      exact ⟨⟨_, rfl⟩, ⟨_, rfl⟩, ⟨_, rfl⟩, ⟨_, rfl⟩, ⟨_, rfl⟩, fun _ h ↦ absurd h List.not_mem_nil⟩
    obtain ⟨t, ht⟩ := hall _ h
    dsimp only at ht
    rw [ht] at hname
    exact hname.head rest
  rw [getChar_amp hhead]
  simp only [strncaseEq_eq, hmap, hlen]
  simp only [entities, List.mem_cons, Prod.mk.injEq, List.not_mem_nil, or_false] at h
  rcases h with ⟨rfl, rfl⟩ | ⟨rfl, rfl⟩ | ⟨rfl, rfl⟩ | ⟨rfl, rfl⟩ | ⟨rfl, rfl⟩ <;> rfl

theorem getChar_hex {mark : CString} (hmark : SameLetters mark "&#x".toList) (hne : digits ≠ [])
    (hdigits : ∀ d ∈ digits, d ∈ HEX_NUMBERS) (hle : number 16 digits ≤ 2147483647) :
    getChar (mark ++ digits ++ [';'] ++ rest) =
      if isxmlch (number 16 digits) = true then
        some ((number 16 digits : Int), (mark ++ digits ++ [';']).length)
      else none := by
  have heq := @numericChar_eq 3 16 (by decide) mark _ HEX_NUMBERS hmark.length_eq hne hdigits
    (forall_mem_of_all (by decide)) (by decide) hle rest
  have hhead := hmark.head (digits ++ [';'] ++ rest)
  have hmap := hmark.map_append (digits ++ [';'] ++ rest)
  rw [← List.append_assoc, ← List.append_assoc] at hhead hmap
  rw [← heq, getChar_amp hhead]
  simp only [strncaseEq_eq, hmap]
  rfl

theorem getChar_dec (hne : digits ≠ []) (hdigits : ∀ d ∈ digits, d ∈ DEC_NUMBERS)
    (hle : number 10 digits ≤ 2147483647) :
    getChar ("&#".toList ++ digits ++ [';'] ++ rest) =
      if isxmlch (number 10 digits) = true then
        some ((number 10 digits : Int), ("&#".toList ++ digits ++ [';']).length)
      else none := by
  have heq := @numericChar_eq 2 10 (by decide) "&#".toList _ DEC_NUMBERS rfl hne hdigits
    (forall_mem_of_all (by decide)) (by decide) hle rest
  obtain ⟨d, ds, rfl⟩ := List.exists_cons_of_ne_nil hne
  have hx : ∀ d ∈ DEC_NUMBERS, Char.toLower d ≠ 'x' := forall_mem_of_all (by decide)
  have hhex : strncaseEq ("&#".toList ++ (d :: ds) ++ [';'] ++ rest) "&#x".toList 3 = false := by
    rw [strncaseEq_eq, decide_eq_false_iff_not]
    intro h
    exact hx d (hdigits d (List.mem_cons_self ..)) (List.cons.inj (List.cons.inj (List.cons.inj h).2).2).1
  have hhead : ("&#".toList ++ (d :: ds) ++ [';'] ++ rest).head? = some '&' := rfl
  have hnone : (entities.find? fun e ↦ strncaseEq
      ("&#".toList ++ (d :: ds) ++ [';'] ++ rest) e.1 e.1.length) = none := rfl
  have hdec : strncaseEq ("&#".toList ++ (d :: ds) ++ [';'] ++ rest) "&#".toList 2 = true := rfl
  rw [← heq, getChar_amp hhead, hnone, Option.elim_none, hhex, hdec]
  rfl

/-! ## What is read is a reference -/

/-- What `numericChar` takes is a prefix with digits and a semicolon. -/
theorem numericChar_some {start n : Nat} {base c : Int} {set : CString}
    (h : numericChar src start base set = some (c, n)) (hstart : start ≤ src.length) :
    ∃ digits, digits ≠ [] ∧ (∀ d ∈ digits, d ∈ set) ∧
      src.take start ++ digits ++ [';'] <+: src := by
  unfold numericChar at h
  dsimp only at h
  split_ifs at h with hbad
  simp only [not_or, not_not] at hbad
  obtain ⟨hcount, hsemi, -⟩ := hbad
  set digits := (src.drop start).takeWhile (· ∈ set) with hdigits
  refine ⟨digits, fun heq ↦ hcount (by rw [heq]; rfl), fun d hd ↦ ?_, ?_⟩
  · have hmem := List.mem_takeWhile_imp hd
    exact of_decide_eq_true hmem
  · have hsplit : src = src.take start ++ (digits ++ (src.drop start).dropWhile (· ∈ set)) := by
      rw [hdigits, List.takeWhile_append_dropWhile, List.take_append_drop]
    have hlen : (src.take start ++ digits).length = start + digits.length := by
      rw [List.length_append, List.length_take_of_le hstart]
    rw [← List.append_assoc] at hsplit
    have hhead : ((src.drop start).dropWhile (· ∈ set)).head? = some ';' := by
      rw [hsplit, ← hlen, List.getElem?_append_right (Nat.le_refl _), Nat.sub_self] at hsemi
      rw [List.head?_eq_getElem?]
      exact hsemi
    obtain ⟨tail, htail⟩ := List.head?_eq_some_iff.mp hhead
    refine ⟨tail, ?_⟩
    rw [htail] at hsplit
    rw [List.append_assoc]
    exact hsplit.symm

theorem strncaseEq_length {src t : CString} (h : strncaseEq src t t.length = true) : t.length ≤ src.length := by
  have hmap : ((src.take t.length).map Char.toLower).length = _ :=
    congrArg List.length (of_decide_eq_true h)
  rw [List.length_map, List.length_map, List.take_length, List.length_take] at hmap
  omega

/-- The start of a text that is compared. -/
theorem sameLetters_take {src t : CString} (h : strncaseEq src t t.length = true) :
    SameLetters (src.take t.length) t := by
  rw [strncaseEq, List.take_length] at h
  exact h

theorem exists_reference {c : Int} {n : Nat} (hamp : src.head? = some '&')
    (h : getChar src = some (c, n)) : ∃ e v, Reference SameLetters e v ∧ e <+: src := by
  rw [getChar_amp hamp] at h
  cases hfind : entities.find? fun e ↦ strncaseEq src e.1 e.1.length with
  | some entity =>
    obtain ⟨e, d⟩ := entity
    have hfound := List.find?_some hfind
    have hsame := sameLetters_take hfound
    exact ⟨_, d, .entity (List.mem_of_find?_eq_some hfind) hsame, List.take_prefix _ _⟩
  | none =>
    rw [hfind, Option.elim_none] at h
    split_ifs at h with hhex hdec
    · obtain ⟨digits, hne, hdigits, hprefix⟩ :=
        numericChar_some h (@strncaseEq_length src "&#x".toList hhex)
      have hmark : SameLetters (src.take 3) "&#x".toList := sameLetters_take hhex
      exact ⟨_, _, .hex hmark hne hdigits, hprefix⟩
    · obtain ⟨digits, hne, hdigits, hprefix⟩ :=
        numericChar_some h (@strncaseEq_length src "&#".toList hdec)
      have hmark : SameLetters (src.take 2) "&#".toList := sameLetters_take hdec
      have htake : src.take 2 = "&#".toList := by
        have hlen := @strncaseEq_length src "&#".toList hdec
        match src, hlen, hmark.map_eq with
        | c :: d :: rest, _, hmap =>
          have hc : c.toLower = '&' := (List.cons.inj hmap).1
          have hd : d.toLower = '#' := (List.cons.inj (List.cons.inj hmap).2).1
          rw [eq_of_toLower_eq hc (by decide), eq_of_toLower_eq hd (by decide)]
          rfl
      rw [htake] at hprefix
      exact ⟨_, _, .dec hne hdigits, hprefix⟩

/-! ## References -/

end Upnp.Xml
