import Upnp.HttpMessage.Headers

/-!
# The value of a header

What one turn of `parse_headers` stores for a line that ends with CRLF: the white space in front
of the value is skipped, that behind it is kept.
-/

namespace Upnp.HttpMessage

open Upnp.Lib

/-- A header line: a name, a colon, and a text that holds no CRLF. -/
structure HeaderLine where
  name : CString
  value : CString
  name_ne_nil : name ≠ []
  name_token : ∀ c ∈ name, isToken c
  value_line : ∀ q, ¬ CrlfAt value q

/-- The characters of the line. -/
def HeaderLine.text (line : HeaderLine) : CString :=
  line.name ++ ':' :: (line.value ++ ['\r', '\n'])

/-- A text without the white space in front of it and behind it. -/
def trim (text : CString) : CString := (text.dropWhile isLWS).rdropWhile isLWS

theorem trim_eq_dropWhile_iff (text : CString) :
    text.dropWhile isLWS = trim text ↔
      ∀ c ∈ (text.dropWhile isLWS).getLast?, isLWS c = false := by
  rw [trim, eq_comm, List.rdropWhile_eq_self_iff]
  generalize text.dropWhile isLWS = value
  constructor
  · rintro h c hc
    have hne : value ≠ [] := by
      rintro rfl
      cases hc
    rw [List.getLast?_eq_some_getLast hne] at hc
    cases hc
    exact Bool.eq_false_iff.mpr (h hne)
  · intro h hne
    have := h (value.getLast hne) (List.getLast?_eq_some_getLast hne)
    exact Bool.eq_false_iff.mp this

/-- The CRLF behind a text that holds none is the first. -/
theorem not_crlfAt_append {text rest : CString} (h : ∀ q, ¬ CrlfAt text q) {q : Nat}
    (hq : q < text.length) : ¬ CrlfAt (text ++ '\r' :: '\n' :: rest) q := by
  rintro ⟨hcr, hlf⟩
  rw [List.getElem?_append_left hq] at hcr
  rcases Nat.lt_or_ge (q + 1) text.length with hlt | hge
  · rw [List.getElem?_append_left hlt] at hlf
    exact h q ⟨hcr, hlf⟩
  · have hlen : q + 1 - text.length = 0 := by omega
    rw [List.getElem?_append_right hge, hlen] at hlf
    exact absurd (Option.some.inj hlf) (by decide)

theorem crlfAt_append (text rest : CString) :
    CrlfAt (text ++ '\r' :: '\n' :: rest) text.length := by
  constructor
  · rw [List.getElem?_append_right (Nat.le_refl _), Nat.sub_self]
    rfl
  · rw [List.getElem?_append_right (Nat.le_add_right _ _), Nat.add_sub_cancel_left]
    rfl

/-- What is stored for the line. -/
theorem headerStep_line (front rest : CString) (line : HeaderLine) {max_len : Nat}
    (hline : line.text.length ≤ max_len)
    (hlen : front.length + max_len ≤ (front ++ (line.text ++ rest)).length) :
    ∃ h, headerStep (front ++ (line.text ++ rest)) front.length max_len =
        some (.ok (h, front.length + line.text.length, max_len - line.text.length)) ∧
      h.value.text (front ++ (line.text ++ rest)) = line.value.dropWhile isLWS := by
  obtain ⟨name, value, hname, htoken, hvalue⟩ := line
  -- the white space in front, and the value
  have hsplit : value.takeWhile isLWS ++ value.dropWhile isLWS = value :=
    List.takeWhile_append_dropWhile
  have hws : ∀ c ∈ value.takeWhile isLWS, isLWS c := fun c hc ↦ List.mem_takeWhile_imp hc
  have hhead : ∀ c ∈ (value.dropWhile isLWS).head?, isLWS c = false := by
    intro c hc
    have := List.head?_dropWhile_not isLWS value
    rw [Option.mem_def.mp hc] at this
    simpa using this
  generalize value.takeWhile isLWS = ws at hsplit hws
  generalize value.dropWhile isLWS = v at hsplit hhead
  subst hsplit
  have hnone : ∀ q, ¬ CrlfAt v q := by
    intro q hq
    refine hvalue (ws.length + q) (crlfAt_drop.mp ?_)
    rwa [List.drop_left]
  simp only [HeaderLine.text] at hline hlen ⊢
  generalize hmemory : front ++ (name ++ ':' :: (ws ++ v ++ ['\r', '\n']) ++ rest) = memory at hlen ⊢
  have hdrop : memory.drop front.length = name ++ ':' :: (ws ++ (v ++ '\r' :: '\n' :: rest)) := by
    rw [← hmemory, List.drop_left]
    simp only [List.append_assoc, List.cons_append, List.nil_append]
  have hdropValue : memory.drop (front.length + name.length + 1 + ws.length) =
      v ++ '\r' :: '\n' :: rest := by
    have hassoc : name ++ ':' :: (ws ++ (v ++ '\r' :: '\n' :: rest)) =
        name ++ [':'] ++ ws ++ (v ++ '\r' :: '\n' :: rest) := by
      simp only [List.append_assoc, List.cons_append, List.nil_append]
    have hsum : front.length + name.length + 1 + ws.length =
        front.length + (name ++ [':'] ++ ws).length := by
      simp only [List.length_append, List.length_singleton, Nat.add_assoc]
    rw [hsum, ← List.drop_drop, hdrop, hassoc, List.drop_left]
  have hsize : (name ++ ':' :: (ws ++ v ++ ['\r', '\n'])).length =
      name.length + 1 + ws.length + v.length + 2 := by
    simp only [List.length_append, List.length_cons, List.length_nil]
    omega
  rw [hsize] at hline ⊢
  have hmore : ∀ c ∈ (v ++ '\r' :: '\n' :: rest).head?, isLWS c = false := by
    cases v with
    | nil =>
      rintro c hc
      cases hc
      decide
    | cons d v => exact hhead
  obtain ⟨hok, hstart⟩ := @headerStep_front memory name ws _ front.length max_len hdrop hname htoken
    hws hmore (by omega)
  obtain ⟨⟨h, finger', left⟩, hstep⟩ := hok
  have hturn := @headerStep_turn memory (front.length + max_len) front.length finger' max_len left h
    hlen (by omega) (Int.natCast_add _ _).symm hstep
  rw [hstart] at hturn
  have hat : CrlfAt memory (front.length + name.length + 1 + ws.length + v.length) := by
    rw [← crlfAt_drop, hdropValue]
    exact crlfAt_append v rest
  have hposition := hturn.position
  rcases hturn.value with ⟨n, hcrlf, -, hbefore, hvalue', hfinger⟩ | ⟨hno, -⟩
  · have hn : n = v.length := by
      rcases Nat.lt_trichotomy n v.length with hlt | heq | hgt
      · rw [← crlfAt_drop, hdropValue] at hcrlf
        exact absurd hcrlf (not_crlfAt_append hnone hlt)
      · exact heq
      · exact absurd hat (hbefore _ (Nat.le_add_right _ _) (by omega))
    subst hn
    refine ⟨h, ?_, ?_⟩
    · have hfinger' : finger' = front.length + (name.length + 1 + ws.length + v.length + 2) := by
        omega
      have hleft : left = (max_len : Int) - (name.length + 1 + ws.length + v.length + 2 : Nat) := by
        omega
      rw [hstep, hfinger', hleft]
    · rw [hvalue']
      split
      · rename_i hzero
        exact (List.length_eq_zero_iff.mp hzero).symm
      · rw [Token.text]
        dsimp only
        rw [hdropValue, Int.toNat_natCast, List.take_left]
  · exact absurd hat (hno _ (Nat.le_add_right _ _) (by omega))

/-- The value that is stored for the line is its text behind the colon, trimmed; it is empty exactly
when there is nothing but white space. -/
def ValueTrimmed (front rest : CString) (line : HeaderLine) (max_len : Nat) : Prop :=
  ∃ h finger' left, headerStep (front ++ (line.text ++ rest)) front.length max_len =
      some (.ok (h, finger', left)) ∧
    h.value.text (front ++ (line.text ++ rest)) = trim line.value ∧
    (h.value.text (front ++ (line.text ++ rest)) = [] ↔ ∀ c ∈ line.value, isLWS c)

/-- The value is trimmed if and only if there is no white space behind it. -/
theorem valueTrimmed_iff (front rest : CString) (line : HeaderLine) {max_len : Nat}
    (hline : line.text.length ≤ max_len)
    (hlen : front.length + max_len ≤ (front ++ (line.text ++ rest)).length) :
    ValueTrimmed front rest line max_len ↔
      ∀ c ∈ (line.value.dropWhile isLWS).getLast?, isLWS c = false := by
  obtain ⟨h, hstep, htext⟩ := headerStep_line front rest line hline hlen
  rw [← trim_eq_dropWhile_iff]
  constructor
  · rintro ⟨h', finger', left, hstep', htrim, -⟩
    rw [hstep] at hstep'
    cases hstep'
    exact htext.symm.trans htrim
  · intro htrim
    refine ⟨h, _, _, hstep, htext.trans htrim, ?_⟩
    rw [htext]
    exact List.dropWhile_eq_nil_iff

/-- `A: b`. -/
def plainLine : HeaderLine where
  name := ['A']
  value := [' ', 'b']
  name_ne_nil := List.cons_ne_nil _ _
  name_token := forall_mem_of_all (by decide)
  value_line := by
    intro q h
    have hmem := List.mem_of_getElem? h.1
    revert hmem
    decide

theorem valueTrimmed_plainLine : ValueTrimmed [] [] plainLine 6 :=
  (valueTrimmed_iff [] [] plainLine (by decide) (by decide)).mpr (by
    rintro c hc
    cases hc
    decide)

/-- `A: b` with a blank behind it. -/
def blankLine : HeaderLine where
  name := ['A']
  value := [' ', 'b', ' ']
  name_ne_nil := List.cons_ne_nil _ _
  name_token := forall_mem_of_all (by decide)
  value_line := by
    intro q h
    have hmem := List.mem_of_getElem? h.1
    revert hmem
    decide

/-- The blank behind the value is kept. -/
theorem valueTrimmed_blankLine : ¬ ∀ (front rest : CString) (line : HeaderLine) (max_len : Nat),
    line.text.length ≤ max_len → front.length + max_len ≤ (front ++ (line.text ++ rest)).length →
      ValueTrimmed front rest line max_len := by
  intro hall
  obtain ⟨h', finger', left, hstep', htrim, -⟩ := hall [] [] blankLine 7 (by decide) (by decide)
  obtain ⟨h, hstep, htext⟩ := @headerStep_line [] [] blankLine 7 (by decide) (by decide)
  rw [hstep] at hstep'
  cases hstep'
  rw [htext] at htrim
  revert htrim
  decide +kernel

end Upnp.HttpMessage
