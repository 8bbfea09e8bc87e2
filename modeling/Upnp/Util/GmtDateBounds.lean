import Upnp.Util.GmtDate

/-!
# Dates are read in bounds

No string makes `ParseDateTime` read behind its terminator: each step of a pattern leaves the
pointer at the terminator or before it.
-/

namespace Upnp.Util

open Upnp.Lib

/-- The pointer is not behind the terminator. -/
def InBounds (s : Ptr) : Prop := '\x00' ∈ s

/-- No read is behind the terminator, and what is returned is as said. -/
def Safe {α : Type} (x : Option (Option α)) (P : α → Prop) : Prop :=
  ∃ r, x = some r ∧ ∀ a, r = some a → P a

variable {s s' : Ptr} {c : Char}

/-- Behind a character that is not the terminator there is another. -/
theorem InBounds.tail (h : InBounds (c :: s)) (hc : c ≠ '\x00') : InBounds s := by
  rcases List.mem_cons.mp h with heq | hmem
  · exact absurd heq.symm hc
  · exact hmem

theorem inBounds_terminated (text : CString) : InBounds (terminated text) :=
  List.mem_append_right _ (List.mem_singleton.mpr rfl)

theorem not_inBounds_nil : ¬ InBounds [] := List.not_mem_nil

/-! ## Safe steps -/

theorem safe_none {α : Type} {P : α → Prop} : Safe (some none) P :=
  ⟨none, rfl, fun _ h ↦ nomatch h⟩

theorem safe_some {α : Type} {P : α → Prop} {a : α} (ha : P a) : Safe (some (some a)) P :=
  ⟨some a, rfl, fun _ h ↦ Option.some.inj h ▸ ha⟩

/-- What follows a safe step is safe when it is for each result. -/
theorem Safe.bind {α β : Type} {x : Option (Option α)} {P : α → Prop} {Q : β → Prop}
    {f : Option α → Option (Option β)} (hx : Safe x P) (hnone : Safe (f none) Q)
    (hsome : ∀ a, P a → Safe (f (some a)) Q) : Safe (x >>= f) Q := by
  obtain ⟨r, rfl, hr⟩ := hx
  cases r with
  | none => exact hnone
  | some a => exact hsome a (hr a rfl)

/-- What is checked holds of what follows. -/
theorem Safe.guard {α : Type} {p : Prop} [Decidable p] {x : Option (Option α)} {P : α → Prop}
    (hx : ¬ p → Safe x P) : Safe (if p then some none else x) P := by
  by_cases hp : p
  · rw [if_pos hp]
    exact safe_none
  · rw [if_neg hp]
    exact hx hp

/-! ## Numbers and names -/

/-- A comparison stops at a difference, which the terminator is. -/
theorem strncasecmpIs0_safe {name : CString} (hs : InBounds s) (hname : ∀ d ∈ name, d ≠ '\x00') :
    ∃ b, strncasecmpIs0 s name = some b ∧ (b = true → InBounds (s.drop name.length)) := by
  induction name generalizing s with
  | nil => exact ⟨true, by rw [strncasecmpIs0], fun _ ↦ hs⟩
  | cons d name ih =>
    cases s with
    | nil => exact absurd hs not_inBounds_nil
    | cons c s =>
      obtain ⟨hd, hname⟩ := List.forall_mem_cons.mp hname
      rw [strncasecmpIs0]
      split
      · rename_i hlow
        have hc : c ≠ '\x00' := by
          rintro rfl
          exact hd (eq_of_toLower_eq hlow.symm (by decide))
        exact ih (hs.tail hc) hname
      · exact ⟨false, rfl, fun h ↦ absurd h Bool.false_ne_true⟩

/-- The characters of a name are read in bounds. -/
theorem SearchNameInfo_safe {nameTable : List CString} (hs : InBounds s)
    (hnames : ∀ name ∈ nameTable, '\x00' ∉ name)
    (hlong : ∀ name ∈ nameTable, 3 ≤ name.length) (i : Nat) :
    Safe (SearchNameInfo s i nameTable) fun r ↦ InBounds (s.drop r.2.1) := by
  induction nameTable generalizing i with
  | nil => exact ⟨none, rfl, fun _ h ↦ nomatch h⟩
  | cons name nameTable ih =>
    obtain ⟨hname, hnames⟩ := List.forall_mem_cons.mp hnames
    obtain ⟨hlen, hlong⟩ := List.forall_mem_cons.mp hlong
    obtain ⟨b, hb, hfull⟩ := strncasecmpIs0_safe hs fun d hd ↦ ne_of_mem_of_not_mem hd hname
    have htake : ∀ d ∈ name.take 3, d ≠ '\x00' :=
      fun d hd ↦ ne_of_mem_of_not_mem (List.mem_of_mem_take hd) hname
    obtain ⟨b', hb', hpart⟩ := strncasecmpIs0_safe hs htake
    rw [SearchNameInfo, hb, hb']
    cases b with
    | true => exact ⟨_, rfl, fun a ha ↦ Option.some.inj ha ▸ hfull rfl⟩
    | false =>
      cases b' with
      | true =>
        refine ⟨_, rfl, fun a ha ↦ Option.some.inj ha ▸ ?_⟩
        have hpart := hpart rfl
        rw [List.length_take_of_le hlen] at hpart
        exact hpart
      | false => exact ih hnames hlong (i + 1)

theorem ParseMonth_safe (hs : InBounds s) :
    Safe (ParseMonth s) fun r ↦ InBounds (s.drop r.2.1) :=
  SearchNameInfo_safe hs (by decide +kernel) (by decide +kernel) 0

theorem ParseDayOfWeek_safe (hs : InBounds s) :
    Safe (ParseDayOfWeek s) fun r ↦ InBounds (s.drop r.2.1) :=
  SearchNameInfo_safe hs (by decide +kernel) (by decide +kernel) 0

/-- White space ends at the terminator. -/
theorem skipIsSpace_safe (hs : InBounds s) :
    ∃ s', skipIsSpace s = some s' ∧ InBounds s' ∧ s' <:+ s := by
  induction s with
  | nil => exact absurd hs not_inBounds_nil
  | cons c s ih =>
    rw [skipIsSpace]
    split
    · rename_i hc
      have hne : c ≠ '\x00' := by
        rintro rfl
        exact absurd hc (by decide)
      obtain ⟨s', hs', hin, hsuf⟩ := ih (hs.tail hne)
      exact ⟨s', hs', hin, hsuf.trans (List.suffix_cons c s)⟩
    · exact ⟨_, rfl, hs, List.suffix_rfl⟩

/-- Spaces end at the terminator. -/
theorem skipSpaces_safe (hs : InBounds s) : ∃ s', skipSpaces s = some s' ∧ InBounds s' := by
  induction s with
  | nil => exact absurd hs not_inBounds_nil
  | cons c s ih =>
    rw [skipSpaces]
    split
    · rename_i hc
      exact ih (hs.tail (by rw [hc]; decide))
    · exact ⟨_, rfl, hs⟩

/-- Blanks end at the terminator. -/
theorem skipBlanks_safe (hs : InBounds s) : ∃ s', skipBlanks s = some s' ∧ InBounds s' := by
  induction s with
  | nil => exact absurd hs not_inBounds_nil
  | cons c s ih =>
    rw [skipBlanks]
    split
    · rename_i hc
      refine ih (hs.tail ?_)
      rcases hc with rfl | rfl <;> decide
    · exact ⟨_, rfl, hs⟩

/-- Digits end at the terminator. -/
theorem readDigits_safe (hs : InBounds s) (acc : Nat) :
    ∃ n s', readDigits acc s = some (n, s') ∧ InBounds s' ∧ s' <:+ s := by
  induction s generalizing acc with
  | nil => exact absurd hs not_inBounds_nil
  | cons c s ih =>
    rw [readDigits]
    cases hv : digitVal 10 c with
    | none => exact ⟨acc, _, rfl, hs, List.suffix_rfl⟩
    | some v =>
      have hne : c ≠ '\x00' := by
        rintro rfl
        cases hv
      obtain ⟨n, s', hs', hin, hsuf⟩ := ih (hs.tail hne) (acc * 10 + v)
      exact ⟨n, s', hs', hin, hsuf.trans (List.suffix_cons c s)⟩

theorem readSign_safe (hs : InBounds s) :
    ∃ sign s', readSign s = some (sign, s') ∧ InBounds s' ∧ s' <:+ s := by
  unfold readSign
  split
  · exact absurd hs not_inBounds_nil
  · exact ⟨_, _, rfl, hs.tail (by decide), List.suffix_cons _ _⟩
  · exact ⟨_, _, rfl, hs.tail (by decide), List.suffix_cons _ _⟩
  · exact ⟨_, _, rfl, hs, List.suffix_rfl⟩

/-- `strtol` stops in bounds. -/
theorem strtolPtr_safe (hs : InBounds s) :
    ∃ v n, strtolPtr s = some (v, n) ∧ InBounds (s.drop n) := by
  obtain ⟨s₁, h₁, hin₁, hsuf₁⟩ := skipIsSpace_safe hs
  obtain ⟨sign, s₂, h₂, hin₂, hsuf₂⟩ := readSign_safe hin₁
  obtain ⟨n, s₃, h₃, hin₃, hsuf₃⟩ := readDigits_safe hin₂ 0
  have heq : strtolPtr s = if s₃.length = s₂.length then some (0, 0)
      else some (clampLong (sign * n), s.length - s₃.length) := by
    unfold strtolPtr
    rw [h₁]
    change (readSign s₁).bind _ = _
    rw [h₂]
    change (readDigits 0 s₂).bind _ = _
    rw [h₃]
    rfl
  rw [heq]
  split
  · exact ⟨0, 0, rfl, hs⟩
  · refine ⟨_, _, rfl, ?_⟩
    rw [← List.suffix_iff_eq_drop.mp (hsuf₃.trans (hsuf₂.trans hsuf₁))]
    exact hin₃

/-- `ReadStrNum` stops in bounds. -/
theorem ReadStrNum_safe (hs : InBounds s) :
    Safe (ReadStrNum s) fun r ↦ InBounds (s.drop r.2) := by
  obtain ⟨v, n, hv, hin⟩ := strtolPtr_safe hs
  have heq : ReadStrNum s = if wrap32 v < 0 ∨ wrap32 v = intMax then some none
      else if n = 0 then some none else some (some (wrap32 v, n)) := by
    unfold ReadStrNum
    rw [hv]
    rfl
  rw [heq]
  exact .guard fun _ ↦ .guard fun _ ↦ safe_some hin

/-- The first character is in bounds. -/
theorem InBounds.exists_head (hs : InBounds s) :
    ∃ c, s[0]? = some c ∧ (c ≠ '\x00' → InBounds (s.drop 1)) := by
  cases s with
  | nil => exact absurd hs not_inBounds_nil
  | cons c s => exact ⟨c, rfl, hs.tail⟩

theorem ne_terminator_of_isDigit (hc : c.isDigit = true) : c ≠ '\x00' := by
  rintro rfl
  cases hc

/-- Two digits are read in bounds. -/
theorem ParseTwoDigits_safe (hs : InBounds s) :
    ∃ v, ParseTwoDigits s = some v ∧ (0 ≤ v → InBounds (s.drop 2)) := by
  obtain ⟨c, hc, htail⟩ := hs.exists_head
  unfold ParseTwoDigits
  rw [hc]
  by_cases hd : c.isDigit = true
  · have hs₁ := htail (ne_terminator_of_isDigit hd)
    obtain ⟨d, hd', htail'⟩ := hs₁.exists_head
    have hget : s[1]? = some d := by rw [← hd', List.getElem?_drop]
    obtain ⟨v, n, hv, -⟩ := strtolPtr_safe hs
    by_cases hdd : d.isDigit = true
    · refine ⟨wrap32 v, ?_, fun _ ↦ ?_⟩
      · simp [hd, hget, hdd, hv]
      · have hs₂ := htail' (ne_terminator_of_isDigit hdd)
        rw [List.drop_drop] at hs₂
        exact hs₂
    · exact ⟨-1, by simp [hget, hdd], fun h ↦ absurd h (by decide)⟩
  · exact ⟨-1, by simp [hd], fun h ↦ absurd h (by decide)⟩

/-- A character behind so many others. -/
theorem InBounds.exists_getElem (n : Nat) (hs : InBounds (s.drop n)) :
    ∃ c, s[n]? = some c ∧ (c ≠ '\x00' → InBounds (s.drop (n + 1))) := by
  obtain ⟨c, hc, htail⟩ := hs.exists_head
  rw [List.getElem?_drop] at hc
  rw [List.drop_drop] at htail
  exact ⟨c, hc, htail⟩

/-- A time of day is read in bounds. -/
theorem ParseTime_safe (hs : InBounds s) : Safe (ParseTime s) fun _ ↦ InBounds (s.drop 8) := by
  obtain ⟨h, hh, hin⟩ := ParseTwoDigits_safe hs
  unfold ParseTime
  rw [hh]
  refine .guard fun hhour ↦ ?_
  obtain ⟨c, hc, hin⟩ := (hin (not_not.mp hhour).1).exists_getElem 2
  rw [hc]
  refine .guard fun hcolon ↦ ?_
  have hs₃ := hin (by rw [not_not.mp hcolon]; decide)
  obtain ⟨m, hm, hin⟩ := ParseTwoDigits_safe hs₃
  rw [hm]
  refine .guard fun hmin ↦ ?_
  have hs₅ := hin (not_not.mp hmin).1
  rw [List.drop_drop] at hs₅
  obtain ⟨c, hc, hin⟩ := hs₅.exists_getElem 5
  rw [hc]
  refine .guard fun hcolon ↦ ?_
  have hs₆ := hin (by rw [not_not.mp hcolon]; decide)
  obtain ⟨sec, hsec, hin⟩ := ParseTwoDigits_safe hs₆
  rw [hsec]
  refine .guard fun hsecond ↦ ?_
  have hs₈ := hin (not_not.mp hsecond).1
  rw [List.drop_drop] at hs₈
  exact safe_some hs₈

/-- A character is looked for in bounds. -/
theorem expectChar_safe {d : Char} (hd : d ≠ '\x00') (hs : InBounds s) :
    Safe (expectChar d s) InBounds := by
  cases s with
  | nil => exact absurd hs not_inBounds_nil
  | cons c s =>
    rw [expectChar]
    split
    · rename_i hc
      exact safe_some (hs.tail (hc ▸ hd))
    · exact safe_none

/-- Each step of a pattern reads in bounds and leaves the pointer there. -/
theorem parseItem_safe (hs : InBounds s) (dateTime : Tm) (item : Datime) :
    Safe (parseItem s dateTime item) fun r ↦ InBounds r.1 := by
  cases item with
  | SPACE =>
    obtain ⟨s', hs', hin⟩ := skipSpaces_safe hs
    rw [parseItem, hs']
    change Safe (some (if s'.length = s.length then none else some (s', dateTime))) _
    rw [apply_ite some]
    exact .guard fun _ ↦ safe_some hin
  | COMMA =>
    refine (expectChar_safe (by decide) hs).bind safe_none fun s' hs' ↦ ?_
    exact safe_some hs'
  | DASH =>
    refine (expectChar_safe (by decide) hs).bind safe_none fun s' hs' ↦ ?_
    exact safe_some hs'
  | WDAY =>
    refine (ParseDayOfWeek_safe hs).bind safe_none ?_
    rintro ⟨tm_wday, charsParsed, fullNameMatch⟩ hin
    cases fullNameMatch with
    | true => exact safe_none
    | false => exact safe_some hin
  | FULLWDAY =>
    refine (ParseDayOfWeek_safe hs).bind safe_none ?_
    rintro ⟨tm_wday, charsParsed, fullNameMatch⟩ hin
    cases fullNameMatch with
    | true => exact safe_some hin
    | false => exact safe_none
  | DAY =>
    refine (ReadStrNum_safe hs).bind safe_none ?_
    rintro ⟨mday, charsParsed⟩ hin
    exact .guard fun _ ↦ safe_some hin
  | MONTH =>
    refine (ParseMonth_safe hs).bind safe_none ?_
    rintro ⟨mon, charsParsed, fullNameMatch⟩ hin
    exact .guard fun _ ↦ safe_some hin
  | YEAR =>
    refine (ReadStrNum_safe hs).bind safe_none ?_
    rintro ⟨year, charsParsed⟩ hin
    exact .guard fun _ ↦ safe_some hin
  | YEAR2DIGIT =>
    refine (ReadStrNum_safe hs).bind safe_none ?_
    rintro ⟨year, charsParsed⟩ hin
    exact .guard fun _ ↦ safe_some hin
  | TIME =>
    refine (ParseTime_safe hs).bind safe_none ?_
    rintro ⟨tm_hour, tm_min, tm_sec⟩ hin
    exact safe_some hin
  | GMT =>
    refine (expectChar_safe (by decide) hs).bind safe_none fun s₁ hs₁ ↦ ?_
    refine (expectChar_safe (by decide) hs₁).bind safe_none fun s₂ hs₂ ↦ ?_
    refine (expectChar_safe (by decide) hs₂).bind safe_none fun s₃ hs₃ ↦ ?_
    exact safe_some hs₃

/-- A pattern reads in bounds. -/
theorem parseItems_safe (hs : InBounds s) (dateTime : Tm) (pattern : List Datime) :
    Safe (parseItems s dateTime pattern) fun r ↦ InBounds r.1 := by
  induction pattern generalizing s dateTime with
  | nil => exact safe_some hs
  | cons item pattern ih =>
    refine (parseItem_safe hs dateTime item).bind safe_none ?_
    rintro ⟨s', dateTime'⟩ hin
    exact ih hin dateTime'

/-- `ParseDatePattern` reads in bounds. -/
theorem ParseDatePattern_safe (hs : InBounds s) (pattern : List Datime) (dateTime : Tm) :
    Safe (ParseDatePattern pattern s dateTime) fun _ ↦ True := by
  obtain ⟨s', hs', hin⟩ := skipBlanks_safe hs
  unfold ParseDatePattern
  rw [hs']
  refine (parseItems_safe hin dateTime pattern).bind safe_none fun r _ ↦ ?_
  exact safe_some trivial

/-- `ParseDateTime` reads no string behind its terminator. -/
theorem ParseDateTime_safe (text : CString) (dateTime : Tm) :
    ParseDateTime (terminated text) dateTime ≠ none := by
  suffices hsafe : Safe (ParseDateTime (terminated text) dateTime) fun _ ↦ True by
    obtain ⟨r, hr, -⟩ := hsafe
    rw [hr]
    exact Option.some_ne_none r
  have hs := inBounds_terminated text
  refine (ParseDayOfWeek_safe hs).bind safe_none ?_
  rintro ⟨wday, charsParsed, fullNameMatch⟩ hin
  cases fullNameMatch with
  | true => exact ParseDatePattern_safe hs _ _
  | false =>
    obtain ⟨c, hc, -⟩ := InBounds.exists_head hin
    dsimp only
    rw [hc]
    change Safe (if c = ',' then _ else if c = ' ' then _ else some none) _
    split
    · exact ParseDatePattern_safe hs _ _
    split
    · exact ParseDatePattern_safe hs _ _
    · exact safe_none

end Upnp.Util
