import Upnp.Lib.Numeral
import Upnp.MiniServer.ReadRequest

/-!
# Requests with a body

A request as the peer sends it: its lines, one of them the length of the body.
The loop over the headers passes each of them once, and gets the length it
states, unless a header before it is taken for it.
-/

namespace Upnp.MiniServer

open Upnp.Lib
open RCode HTTP_COMMAND_TYPE

/-! ## Upper case -/

/-- Only letters are changed to letters. -/
theorem eq_of_toUpper_eq {c d : Char} (h : c.toUpper = d) (hd : ¬ ('A' ≤ d ∧ d ≤ 'Z')) :
    c = d := by
  unfold Char.toUpper at h
  split at h
  · rename_i hc
    refine absurd ?_ hd
    have hval := congrArg Char.toNat h
    have h₁ : 97 ≤ c.toNat := UInt32.le_iff_toNat_le.mp hc.1
    have h₂ : c.toNat ≤ 122 := UInt32.le_iff_toNat_le.mp hc.2
    simp only [Char.toNat, UInt32.toNat_add] at hval h₁ h₂
    have hsub : ('A'.val - 'a'.val).toNat = 4294967264 := by decide
    rw [hsub] at hval
    constructor <;> refine UInt32.le_iff_toNat_le.mpr ?_
    · change 65 ≤ d.val.toNat
      omega
    · change d.val.toNat ≤ 90
      omega
  · exact h

theorem toUpper_eq_self {c : Char} (h : ¬ ('a' ≤ c ∧ c ≤ 'z')) : c.toUpper = c := by
  unfold Char.toUpper
  exact dif_neg h

theorem isBlank_toUpper (c : Char) : isBlank c.toUpper = isBlank c := by
  by_cases hc : 'a' ≤ c ∧ c ≤ 'z'
  · have h₁ : isBlank c = false := by
      by_contra h
      simp only [isBlank, Bool.not_eq_false, Bool.or_eq_true, decide_eq_true_eq] at h
      obtain rfl | rfl := h <;> revert hc <;> decide
    rw [h₁]
    by_contra h
    simp only [isBlank, Bool.not_eq_false, Bool.or_eq_true, decide_eq_true_eq] at h
    obtain h | h := h
    · cases eq_of_toUpper_eq h (by decide)
      revert hc
      decide
    · cases eq_of_toUpper_eq h (by decide)
      revert hc
      decide
  · rw [toUpper_eq_self hc]

/-! ## Lines -/

/-- A line of the request. -/
structure TextLine where
  text : CString
  eol : CString
  isEol : NetReader1.IsEol eol
  noCr : '\r' ∉ text
  noLf : '\n' ∉ text
  noNul : '\x00' ∉ text

/-- The characters of a line. -/
def TextLine.chars (line : TextLine) : CString := line.text ++ line.eol

/-- The name of the header that states the length, in any case, with blanks behind it. -/
def LengthName (name : CString) : Prop :=
  (name.take 14).map Char.toUpper = "CONTENT-LENGTH".toList ∧ ∀ c ∈ name.drop 14, isBlank c

/-- A header with this name. -/
def IsLengthHeader (text : CString) : Prop := ∃ name value, text = name ++ ':' :: value ∧ LengthName name

/-- A header that states the length `n`. -/
def StatesLength (text : CString) (n : Nat) : Prop :=
  ∃ name blanks digits blanks', text = name ++ ':' :: (blanks ++ (digits ++ blanks')) ∧
    LengthName name ∧ (∀ c ∈ blanks, isBlank c) ∧ (∀ c ∈ blanks', isBlank c) ∧ digits ≠ [] ∧
    IsDigits 10 digits ∧ numeral 10 digits = n

/-- A header of another name that `ParseContentLength` takes for the length, and finds malformed:
it only begins like it. -/
def Misread (text : CString) : Prop := (text.take 14).map Char.toUpper = "CONTENT-LENGTH".toList

instance (text : CString) : Decidable (Misread text) := inferInstanceAs (Decidable (_ = _))

/-- A request up to its body. -/
structure Request (n : Nat) where
  reqLine : TextLine
  before : List TextLine
  lengthLine : TextLine
  behind : List TextLine
  emptyLine : TextLine
  states : StatesLength lengthLine.text n
  other : ∀ line ∈ before ++ behind, line.text ≠ [] ∧ ¬ IsLengthHeader line.text
  isEmpty : emptyLine.text = []

/-- The header lines. -/
def Request.lines {n : Nat} (request : Request n) : List TextLine :=
  request.before ++ request.lengthLine :: request.behind

/-- The request line and the header block. -/
def Request.head {n : Nat} (request : Request n) : CString :=
  request.reqLine.chars ++ (request.lines.flatMap TextLine.chars ++ request.emptyLine.chars)

/-- What `ParseContentLength` does when the name fits. -/
theorem ParseContentLength_of_name {line rest : CString}
    (hname : (line.take 14).map Char.toUpper = "CONTENT-LENGTH".toList)
    (hrest : (line.drop 14).dropWhile isBlank = rest) :
    ParseContentLength line =
      match rest.map Char.toUpper with
      | ':' :: c :: rest =>
        if ((strtolEnd (c :: rest)).takeWhile (· ≠ '\x00')).all fun c ↦
            isBlank c || c = '\r' || c = '\n' then
          (wrap32 ((strtol 10 (c :: rest)).getD 0), false)
        else (-1, true)
      | _ => (-1, true) := by
  unfold ParseContentLength
  have hdrop : ((line.map Char.toUpper).drop 14).dropWhile isBlank = rest.map Char.toUpper := by
    rw [← hrest, ← List.map_drop, List.dropWhile_map]
    congr 2
    funext c
    exact isBlank_toUpper c
  have hmatch : strnEq (line.map Char.toUpper) "CONTENT-LENGTH".toList 14 := by
    unfold strnEq
    rw [decide_eq_true_eq, ← List.map_take, hname]
    rfl
  dsimp only
  rw [if_pos hmatch]
  generalize rest.map Char.toUpper = upper at hdrop ⊢
  subst hdrop
  rfl

/-- Where the name does not fit, there is no length. -/
theorem ParseContentLength_of_not_name {line : CString}
    (hname : (line.take 14).map Char.toUpper ≠ "CONTENT-LENGTH".toList) :
    ParseContentLength line = (-1, false) := by
  unfold ParseContentLength
  dsimp only
  rw [if_neg]
  unfold strnEq
  rw [decide_eq_true_eq, ← List.map_take]
  exact hname

theorem LengthName.take {name : CString} (h : LengthName name) (rest : CString) :
    (name ++ rest).take 14 = name.take 14 ∧ (name ++ rest).drop 14 = name.drop 14 ++ rest := by
  have hlen := congrArg List.length h.1
  rw [List.length_map, List.length_take] at hlen
  have hlength : 14 ≤ name.length := by
    have : ("CONTENT-LENGTH".toList).length = 14 := by decide
    omega
  exact ⟨List.take_append_of_le_length hlength, List.drop_append_of_le_length hlength⟩

/-- `strtol` stops behind the digits. -/
theorem strtolEnd_of_digits {ws ds q : CString} (hws : ∀ c ∈ ws, isSpace c) (hds : IsDigits 10 ds)
    (hq : EndsNumeral 10 q) (hne : ds ≠ []) : strtolEnd (ws ++ (ds ++ q)) = q := by
  unfold strtolEnd
  rw [strtol_of_digits ws hws hds hq hne]
  obtain ⟨d, ds', rfl⟩ := List.exists_cons_of_ne_nil hne
  have hd := ne_of_digitVal (hds d List.mem_cons_self)
  have hdrop : (ws ++ (d :: ds' ++ q)).dropWhile isSpace = d :: ds' ++ q := by
    rw [List.dropWhile_append_of_pos hws, List.cons_append,
      List.dropWhile_cons_of_neg (by simp [hd.2.2.2.2])]
  have hsign : signOf (d :: ds' ++ q) = (1, d :: ds' ++ q) := by
    unfold signOf
    split
    · rename_i heq
      exact absurd (List.cons.inj heq).1 hd.1
    · rename_i heq
      exact absurd (List.cons.inj heq).1 hd.2.1
    · rfl
  show List.dropWhile _ (signOf _).2 = q
  rw [hdrop, hsign]
  show (d :: ds' ++ q).dropWhile _ = q
  rw [List.dropWhile_append_of_pos (fun c hc ↦ hds c hc)]
  cases q with
  | nil => rfl
  | cons c q => exact List.dropWhile_cons_of_neg (by simp [(hq c rfl).1])

theorem isSpace_of_isBlank {c : Char} (h : isBlank c) : isSpace c := by
  simp only [isBlank, Bool.or_eq_true, decide_eq_true_eq] at h
  obtain rfl | rfl := h <;> decide

/-- Neither blanks and line ends, nor digits, are changed to upper case. -/
theorem map_toUpper_eq_self {s : CString} (h : ∀ c ∈ s, ¬ ('a' ≤ c ∧ c ≤ 'z')) :
    s.map Char.toUpper = s := by
  rw [List.map_congr_left fun c hc ↦ toUpper_eq_self (h c hc), List.map_id']

theorem not_lower_of_isBlank {c : Char} (h : isBlank c) : ¬ ('a' ≤ c ∧ c ≤ 'z') := by
  simp only [isBlank, Bool.or_eq_true, decide_eq_true_eq] at h
  obtain rfl | rfl := h <;> decide

theorem mem_eol {eol : CString} {c : Char} (h : NetReader1.IsEol eol) (hc : c ∈ eol) :
    c = '\r' ∨ c = '\n' := by
  obtain rfl | rfl := h
  · simpa using hc
  · exact .inr (by simpa using hc)

/-- A digit of base ten is no letter. -/
theorem not_lower_of_digit {c : Char} (h : (digitVal 10 c).isSome) : ¬ ('a' ≤ c ∧ c ≤ 'z') := by
  intro hc
  have hlow : 97 ≤ c.toNat := UInt32.le_iff_toNat_le.mp hc.1
  unfold digitVal at h
  dsimp only at h
  split at h
  · rename_i hdigit
    have hhigh : c.toNat ≤ 57 := UInt32.le_iff_toNat_le.mp hdigit.2
    omega
  split at h
  · simp at h
  split at h
  · rename_i hupper
    have hhigh : c.toNat ≤ 70 := UInt32.le_iff_toNat_le.mp hupper.2
    omega
  · cases h

/-- The header that states the length is read. -/
theorem ParseContentLength_length {line : TextLine} {n : Nat} (h : StatesLength line.text n) :
    ParseContentLength line.chars = (wrap32 (clampLong n), false) := by
  obtain ⟨name, blanks, digits, blanks', htext, hname, hblanks, hblanks', hne, hdigits, rfl⟩ := h
  have hchars : line.chars = name ++ ':' :: (blanks ++ (digits ++ (blanks' ++ line.eol))) := by
    rw [TextLine.chars, htext]
    simp only [List.append_assoc, List.cons_append]
  have hdrop : ((line.chars).drop 14).dropWhile isBlank =
      ':' :: (blanks ++ (digits ++ (blanks' ++ line.eol))) := by
    rw [hchars, (hname.take _).2, List.dropWhile_append_of_pos hname.2]
    exact List.dropWhile_cons_of_neg (by decide)
  have htake : ((line.chars).take 14).map Char.toUpper = "CONTENT-LENGTH".toList := by
    rw [hchars, (hname.take _).1]
    exact hname.1
  have hend : ∀ c ∈ blanks' ++ line.eol, isBlank c || c = '\r' || c = '\n' := by
    intro c hc
    obtain hc | hc := List.mem_append.mp hc
    · simp [hblanks' c hc]
    · obtain rfl | rfl := mem_eol line.isEol hc <;> decide
  have hlower : ∀ c ∈ blanks ++ (digits ++ (blanks' ++ line.eol)), ¬ ('a' ≤ c ∧ c ≤ 'z') := by
    intro c hc
    obtain hc | hc := List.mem_append.mp hc
    · exact not_lower_of_isBlank (hblanks c hc)
    obtain hc | hc := List.mem_append.mp hc
    · exact not_lower_of_digit (hdigits c hc)
    obtain hc | hc := List.mem_append.mp hc
    · exact not_lower_of_isBlank (hblanks' c hc)
    · obtain rfl | rfl := mem_eol line.isEol hc <;> decide
  have hq : EndsNumeral 10 (blanks' ++ line.eol) := by
    intro c hc
    have hmem := hend c (List.mem_of_mem_head? hc)
    simp only [isBlank, Bool.or_eq_true, decide_eq_true_eq] at hmem
    obtain ((rfl | rfl) | rfl) | rfl := hmem <;> decide
  have hspace : ∀ c ∈ blanks, isSpace c := fun c hc ↦ isSpace_of_isBlank (hblanks c hc)
  rw [ParseContentLength_of_name htake hdrop, List.map_cons, map_toUpper_eq_self hlower]
  obtain ⟨c, rest, hrest⟩ : ∃ c rest, blanks ++ (digits ++ (blanks' ++ line.eol)) = c :: rest :=
    List.exists_cons_of_ne_nil (by simp [hne])
  have hnum := strtol_of_digits blanks hspace hdigits hq hne
  have hstop := strtolEnd_of_digits hspace hdigits hq hne
  rw [hrest] at hnum hstop ⊢
  show (if ((strtolEnd (c :: rest)).takeWhile _).all _ then _ else _) = _
  have hall := List.all_eq_true.mpr fun c hc ↦
    hend c ((List.takeWhile_sublist (· ≠ '\x00')).subset hc)
  rw [hstop, if_pos hall, hnum]
  rfl

theorem isEol_head {eol : CString} (h : NetReader1.IsEol eol) :
    ∃ c rest, eol = c :: rest ∧ (c = '\r' ∨ c = '\n') := by
  obtain rfl | rfl := h
  · exact ⟨_, _, rfl, .inl rfl⟩
  · exact ⟨_, _, rfl, .inr rfl⟩

/-- The end of a line is not part of the name. -/
theorem misread_chars (line : TextLine) :
    (line.chars.take 14).map Char.toUpper = "CONTENT-LENGTH".toList ↔ Misread line.text := by
  unfold TextLine.chars Misread
  by_cases hlen : 14 ≤ line.text.length
  · rw [List.take_append_of_le_length hlen]
  · apply iff_of_false
    · intro h
      obtain ⟨c, rest, heol, hc⟩ := isEol_head line.isEol
      have hmem : c ∈ (line.text ++ line.eol).take 14 := by
        rw [heol, List.take_append, List.mem_append]
        right
        have hpos : 14 - line.text.length = (13 - line.text.length) + 1 := by omega
        rw [hpos]
        exact List.mem_cons_self
      have hup : c.toUpper ∈ "CONTENT-LENGTH".toList := h ▸ List.mem_map_of_mem hmem
      obtain rfl | rfl := hc <;> revert hup <;> decide
    · intro h
      have := congrArg List.length h
      rw [List.length_map, List.length_take] at this
      have h14 : ("CONTENT-LENGTH".toList).length = 14 := by decide
      omega

/-- Any other header states no length, or is found malformed. -/
theorem ParseContentLength_other {line : TextLine} (h : ¬ IsLengthHeader line.text) :
    ParseContentLength line.chars = (-1, decide (Misread line.text)) := by
  by_cases hmis : Misread line.text
  · rw [ParseContentLength_of_name ((misread_chars line).mpr hmis) rfl, decide_eq_true hmis]
    split
    · rename_i c rest heq
      exfalso
      have hlen : 14 ≤ line.text.length := by
        have := congrArg List.length hmis
        rw [List.length_map, List.length_take] at this
        have h14 : ("CONTENT-LENGTH".toList).length = 14 := by decide
        omega
      rw [TextLine.chars, List.drop_append_of_le_length hlen, List.dropWhile_append] at heq
      split at heq
      · obtain ⟨e, eol, heol, he⟩ := isEol_head line.isEol
        rw [heol] at heq
        obtain rfl | rfl := he <;> revert heq <;> simp [isBlank, List.dropWhile]
      · rename_i hne
        obtain ⟨d, value, hvalue⟩ : ∃ d value, (line.text.drop 14).dropWhile isBlank = d :: value :=
          List.exists_cons_of_ne_nil (by simpa using hne)
        rw [hvalue, List.cons_append, List.map_cons] at heq
        cases eq_of_toUpper_eq (List.cons.inj heq).1 (by decide)
        -- so there is a colon behind the name, and only blanks before it
        refine h ⟨line.text.take 14 ++ (line.text.drop 14).takeWhile isBlank, value, ?_, ?_, ?_⟩
        · rw [List.append_assoc, ← hvalue, List.takeWhile_append_dropWhile, List.take_append_drop]
        · rw [List.take_append_of_le_length (by rw [List.length_take]; omega), List.take_take]
          exact hmis
        · have hlength : (line.text.take 14).length = 14 := by
            rw [List.length_take]
            omega
          rw [List.drop_left' hlength]
          exact fun c hc ↦ List.mem_takeWhile_imp hc
    · rfl
  · rw [ParseContentLength_of_not_name (mt (misread_chars line).mp hmis), decide_eq_false hmis]

/-! ## The loop over the headers -/

/-- Lines as the stream has them. -/
def flatLines (lines : List TextLine) : CString := lines.flatMap TextLine.chars

/-- The first line is in front of the others. -/
theorem flatten_lines_cons {line : TextLine} {lines : List TextLine} {rest : CString}
    {ps : List CString} (hflat : ps.flatten = flatLines (line :: lines) ++ rest) :
    ps.flatten = line.chars ++ (flatLines lines ++ rest) ∧
      (dropBytes line.chars.length ps).flatten = flatLines lines ++ rest := by
  have hcons : ps.flatten = line.chars ++ (flatLines lines ++ rest) := by
    rw [hflat, ← List.append_assoc]
    rfl
  refine ⟨hcons, ?_⟩
  rw [flatten_dropBytes, hcons, List.drop_left]

theorem TextLine.getLine {line : TextLine} {rest : CString} {r : NetReader1} {ps : List CString}
    (h : r.Holds ps) (hflat : ps.flatten = line.chars ++ rest) :
    ∃ r' : NetReader1, r.getLine = (.got ⟨line.chars, false⟩, r') ∧
      r'.Holds (dropBytes line.chars.length ps) :=
  NetReader1.getLine_eq h hflat line.noCr line.noLf line.isEol

/-- One header of the loop. -/
theorem readHeaders_cons {line : TextLine} {rest : CString} {r : NetReader1} {ps : List CString}
    (document : CString) (contentLength : Int) (h : r.Holds ps)
    (hflat : ps.flatten = line.chars ++ rest) :
    ∃ r' : NetReader1, r'.Holds (dropBytes line.chars.length ps) ∧
      readHeaders r document contentLength =
        let (length, malformed) := if contentLength < 0 then ParseContentLength line.chars
          else (contentLength, false)
        if malformed then (.error RCODE_MALFORMED_LINE, r')
        else if line.chars = ['\n'] ∨ line.chars = ['\r', '\n'] then
          (.ok (document ++ line.chars, length), r')
        else readHeaders r' (document ++ line.chars) length := by
  obtain ⟨r', hline, hr'⟩ := line.getLine h hflat
  refine ⟨r', hr', ?_⟩
  rw [readHeaders.eq_def]
  split <;>
    · rename_i heq
      rw [hline] at heq
      cases heq
      try rfl

/-- Only the empty line ends the headers. -/
theorem TextLine.chars_empty_iff (line : TextLine) :
    (line.chars = ['\n'] ∨ line.chars = ['\r', '\n']) ↔ line.text = [] := by
  unfold TextLine.chars
  constructor
  · intro h
    obtain heol | heol := line.isEol <;> rw [heol] at h
    · obtain h | h := h
      · have := congrArg List.length h
        simp at this
      · simpa using h
    · obtain h | h := h
      · simpa using h
      · have hcr : line.text ++ ['\n'] = ['\r'] ++ ['\n'] := h
        exact absurd (List.append_cancel_right hcr ▸ List.mem_cons_self) line.noCr
  · intro h
    rw [h]
    exact line.isEol.symm

/-- A header of another name. -/
def Other (line : TextLine) : Prop := line.text ≠ [] ∧ ¬ IsLengthHeader line.text

/-- Headers of other names are passed; while no length is known they must not look like one. -/
theorem readHeaders_pass {lines : List TextLine} {rest : CString} {contentLength : Int}
    {r : NetReader1} {ps : List CString} (document : CString) (hother : ∀ line ∈ lines, Other line)
    (hok : contentLength < 0 → ∀ line ∈ lines, ¬ Misread line.text) (h : r.Holds ps)
    (hflat : ps.flatten = flatLines lines ++ rest) :
    ∃ (r' : NetReader1) (length : Int), r'.Holds (dropBytes (flatLines lines).length ps) ∧
      readHeaders r document contentLength = readHeaders r' (document ++ flatLines lines) length ∧
      (0 ≤ contentLength → length = contentLength) ∧ (contentLength < 0 → length < 0) := by
  induction lines generalizing r ps document contentLength with
  | nil =>
    refine ⟨r, contentLength, ?_, ?_, fun _ ↦ rfl, fun hneg ↦ hneg⟩
    · show r.Holds (dropBytes 0 ps)
      rw [dropBytes_zero h.ne_nil]
      exact h
    · show _ = readHeaders r (document ++ []) contentLength
      rw [List.append_nil]
  | cons line lines ih =>
    obtain ⟨hne, hname⟩ := hother line List.mem_cons_self
    obtain ⟨hflat', hrest⟩ := flatten_lines_cons hflat
    obtain ⟨r₁, hr₁, hstep⟩ := readHeaders_cons document contentLength h hflat'
    have hotherRest : ∀ line ∈ lines, Other line :=
      fun line hline ↦ hother line (List.mem_cons_of_mem _ hline)
    have hline : (if contentLength < 0 then ParseContentLength line.chars
        else (contentLength, false)) = (if contentLength < 0 then -1 else contentLength, false) := by
      split
      · rename_i hneg
        rw [ParseContentLength_other hname, decide_eq_false (hok hneg line List.mem_cons_self)]
      · rfl
    have hokRest : (if contentLength < 0 then -1 else contentLength) < 0 →
        ∀ line ∈ lines, ¬ Misread line.text := by
      intro hlt line' hline'
      exact hok (by split at hlt <;> assumption) line' (List.mem_cons_of_mem _ hline')
    obtain ⟨r', length, hr', hloop, hpos, hneg⟩ := ih (document ++ line.chars) hotherRest hokRest
      hr₁ hrest
    refine ⟨r', length, ?_, ?_, ?_, ?_⟩
    · rw [dropBytes_add] at hr'
      show r'.Holds (dropBytes (line.chars ++ flatLines lines).length ps)
      rwa [List.length_append]
    · rw [hstep, hline]
      show (if false then _ else if _ then _ else _) = _
      rw [if_neg (by decide), if_neg (mt line.chars_empty_iff.mp hne), hloop, List.append_assoc]
      rfl
    · intro hge
      rw [hpos (by rw [if_neg (not_lt.mpr hge)]; exact hge), if_neg (not_lt.mpr hge)]
    · intro hlt
      exact hneg (by rw [if_pos hlt]; decide)

/-- A header that looks like the length is malformed, while no length is known. -/
theorem readHeaders_misread {lines : List TextLine} {rest : CString} {contentLength : Int}
    {r : NetReader1} {ps : List CString} (document : CString) (hother : ∀ line ∈ lines, Other line)
    (hneg : contentLength < 0) (hmis : ∃ line ∈ lines, Misread line.text) (h : r.Holds ps)
    (hflat : ps.flatten = flatLines lines ++ rest) :
    (readHeaders r document contentLength).1 = .error RCODE_MALFORMED_LINE := by
  induction lines generalizing r ps document contentLength with
  | nil =>
    obtain ⟨line, hline, -⟩ := hmis
    cases hline
  | cons line lines ih =>
    obtain ⟨hne, hname⟩ := hother line List.mem_cons_self
    obtain ⟨hflat', hrest⟩ := flatten_lines_cons hflat
    obtain ⟨r₁, hr₁, hstep⟩ := readHeaders_cons document contentLength h hflat'
    rw [hstep, if_pos hneg, ParseContentLength_other hname]
    by_cases hm : Misread line.text
    · rw [decide_eq_true hm]
      rfl
    · rw [decide_eq_false hm]
      show (if false then _ else if _ then _ else _ : Except RCode _ × NetReader1).1 = _
      rw [if_neg (by decide), if_neg (mt line.chars_empty_iff.mp hne)]
      refine ih _ (fun line' hline' ↦ hother line' (List.mem_cons_of_mem _ hline')) (by decide) ?_
        hr₁ hrest
      obtain ⟨line', hline', hmis'⟩ := hmis
      obtain rfl | hline' := List.mem_cons.mp hline'
      · exact absurd hmis' hm
      · exact ⟨line', hline', hmis'⟩

/-- The empty line ends the headers. -/
theorem readHeaders_empty {line : TextLine} {rest : CString} {r : NetReader1} {ps : List CString}
    (document : CString) (contentLength : Int) (hempty : line.text = []) (h : r.Holds ps)
    (hflat : ps.flatten = line.chars ++ rest) :
    ∃ (r' : NetReader1) (length : Int), r'.Holds (dropBytes line.chars.length ps) ∧
      readHeaders r document contentLength = (.ok (document ++ line.chars, length), r') ∧
      (0 ≤ contentLength → length = contentLength) ∧ (contentLength < 0 → length < 0) := by
  obtain ⟨r', hr', hstep⟩ := readHeaders_cons document contentLength h hflat
  have hname : ¬ IsLengthHeader line.text := by
    rw [hempty]
    rintro ⟨name, value, heq, -⟩
    simp at heq
  have hline : (if contentLength < 0 then ParseContentLength line.chars
      else (contentLength, false)) = (if contentLength < 0 then -1 else contentLength, false) := by
    split
    · rw [ParseContentLength_other hname, hempty]
      rfl
    · rfl
  refine ⟨r', if contentLength < 0 then -1 else contentLength, hr', ?_, ?_, ?_⟩
  · rw [hstep, hline]
    show (if false then _ else if _ then _ else _) = _
    rw [if_neg (by decide), if_pos (line.chars_empty_iff.mpr hempty)]
  · intro hge
    rw [if_neg (not_lt.mpr hge)]
  · intro hlt
    rw [if_pos hlt]
    decide

end Upnp.MiniServer
