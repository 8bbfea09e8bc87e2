import Mathlib.Tactic.IntervalCases
import Upnp.Util.GmtDateBounds

/-!
# Dates read back

What `DateToString` writes is read back, and so are the two other forms of the date, but for the
century, which the form of RFC 850 does not have.
-/

namespace Upnp.Util

open Upnp.Lib
open Upnp.Web.CacheDirective (numeral_toDigits digitVal_of_isDigit)

/-! ## Dates and their other forms -/

/-- A date of four digits with a time of day. -/
structure Tm.Valid (date : Tm) : Prop where
  wday : 0 ≤ date.tm_wday ∧ date.tm_wday ≤ 6
  mday : 1 ≤ date.tm_mday ∧ date.tm_mday ≤ 31
  mon : 0 ≤ date.tm_mon ∧ date.tm_mon ≤ 11
  year : 1900 ≤ date.tm_year + 1900 ∧ date.tm_year + 1900 ≤ 9999
  hour : 0 ≤ date.tm_hour ∧ date.tm_hour ≤ 23
  min : 0 ≤ date.tm_min ∧ date.tm_min ≤ 59
  sec : 0 ≤ date.tm_sec ∧ date.tm_sec ≤ 60

instance (date : Tm) : Decidable date.Valid :=
  decidable_of_iff ((0 ≤ date.tm_wday ∧ date.tm_wday ≤ 6) ∧ (1 ≤ date.tm_mday ∧ date.tm_mday ≤ 31) ∧
    (0 ≤ date.tm_mon ∧ date.tm_mon ≤ 11) ∧
    (1900 ≤ date.tm_year + 1900 ∧ date.tm_year + 1900 ≤ 9999) ∧
    (0 ≤ date.tm_hour ∧ date.tm_hour ≤ 23) ∧ (0 ≤ date.tm_min ∧ date.tm_min ≤ 59) ∧
    (0 ≤ date.tm_sec ∧ date.tm_sec ≤ 60))
    ⟨fun ⟨h₁, h₂, h₃, h₄, h₅, h₆, h₇⟩ ↦ ⟨h₁, h₂, h₃, h₄, h₅, h₆, h₇⟩,
      fun ⟨h₁, h₂, h₃, h₄, h₅, h₆, h₇⟩ ↦ ⟨h₁, h₂, h₃, h₄, h₅, h₆, h₇⟩⟩

/-- `%2d`, as `asctime` pads the day. -/
def padSpace (n : Int) : CString :=
  if (decimal n).length < 2 then ' ' :: decimal n else decimal n

/-- A date in the form of RFC 850, such as `Sunday, 06-Nov-94 08:49:37 GMT`. -/
def rfc850Text (date : Tm) : CString :=
  (DayOfWeekTable[date.tm_wday.toNat]?).getD g_Invalid ++ ", ".toList ++ padTwo date.tm_mday ++
    '-' :: (GetMonthStr date.tm_mon ++ '-' :: (padTwo ((date.tm_year + 1900) % 100) ++ ' ' ::
      (timeText date ++ " GMT".toList)))

/-- A date in the form of `asctime`, such as `Sun Nov  6 08:49:37 1994`. -/
def asctimeText (date : Tm) : CString :=
  GetDayOfWeekStr date.tm_wday ++ ' ' :: (GetMonthStr date.tm_mon ++ ' ' ::
    (padSpace date.tm_mday ++ ' ' :: (timeText date ++ ' ' :: decimal (date.tm_year + 1900))))

/-! ## Numbers -/

variable {ds : CString} {c : Char} {rest : Ptr}

/-- `strtol` reads digits up to what is none. -/
theorem readDigits_append (hds : IsDigits 10 ds) (hc : digitVal 10 c = none) (acc : Nat)
    (rest : Ptr) : readDigits acc (ds ++ c :: rest) =
      some (ds.foldl (fun n c ↦ n * 10 + (digitVal 10 c).getD 0) acc, c :: rest) := by
  induction ds generalizing acc with
  | nil =>
    rw [List.nil_append, readDigits, hc]
    rfl
  | cons d ds ih =>
    obtain ⟨hd, hds⟩ := List.forall_mem_cons.mp hds
    obtain ⟨v, hv⟩ := Option.isSome_iff_exists.mp hd
    rw [List.cons_append, readDigits, hv]
    dsimp only
    rw [ih hds, List.foldl_cons, hv, Option.getD_some]

/-- `strtol` reads a number. -/
theorem strtolPtr_digits (hds : IsDigits 10 ds) (hne : ds ≠ []) (hc : digitVal 10 c = none)
    (rest : Ptr) :
    strtolPtr (ds ++ c :: rest) = some (clampLong (numeral 10 ds), ds.length) := by
  obtain ⟨d, ds, rfl⟩ := List.exists_cons_of_ne_nil hne
  obtain ⟨hminus, hplus, -, -, hspace⟩ := ne_of_digitVal (hds d List.mem_cons_self)
  have hskip : skipIsSpace (d :: ds ++ c :: rest) = some (d :: ds ++ c :: rest) := by
    rw [List.cons_append, skipIsSpace, hspace]
    rfl
  have hsign : readSign (d :: ds ++ c :: rest) = some (1, d :: ds ++ c :: rest) := by
    rw [List.cons_append]
    unfold readSign
    split <;> simp_all
  have hread := readDigits_append hds hc 0 rest
  unfold strtolPtr
  rw [hskip]
  change (readSign _).bind _ = _
  rw [hsign]
  change (readDigits 0 _).bind _ = _
  rw [hread, Option.bind_some]
  have hlonger : (c :: rest).length ≠ (d :: ds ++ c :: rest).length := by
    rw [List.length_append, List.length_cons, List.length_cons]
    omega
  have hlength : (d :: ds ++ c :: rest).length - (c :: rest).length = (d :: ds).length := by
    rw [List.length_append, Nat.add_sub_cancel]
  dsimp only
  rw [if_neg hlonger, hlength, one_mul]
  rfl

/-- A small number does not saturate. -/
theorem clampLong_of_le {n : Nat} (h : n < 2147483647) : wrap32 (clampLong n) = n := by
  unfold clampLong
  rw [min_eq_right (by omega), max_eq_right (by omega), wrap32_of_range (by omega) (by omega)]

/-- `ReadStrNum` reads a number. -/
theorem ReadStrNum_digits (hds : IsDigits 10 ds) (hne : ds ≠ []) (hc : digitVal 10 c = none)
    (hsmall : numeral 10 ds < 2147483647) (rest : Ptr) :
    ReadStrNum (ds ++ c :: rest) = some (some (((numeral 10 ds : Nat) : Int), ds.length)) := by
  have hval := clampLong_of_le hsmall
  have hrange : ¬ ((numeral 10 ds : Int) < 0 ∨ (numeral 10 ds : Int) = intMax) := by
    unfold intMax
    omega
  have hlength : ds.length ≠ 0 := fun h ↦ hne (List.length_eq_zero_iff.mp h)
  unfold ReadStrNum
  rw [strtolPtr_digits hds hne hc rest]
  change (if wrap32 (clampLong (numeral 10 ds)) < 0 ∨ _ = intMax then some none
    else if ds.length = 0 then some none else some (some (_, ds.length))) = _
  rw [hval, if_neg hrange, if_neg hlength]

/-- A number of one digit or two is written in two. -/
theorem padTwo_spec : ∀ n < 100, ∃ d₁ d₂ : Char, padTwo (n : Nat) = [d₁, d₂] ∧
    d₁.isDigit = true ∧ d₂.isDigit = true ∧ numeral 10 [d₁, d₂] = n := by
  have hall : ∀ n < 100, (padTwo (n : Nat)).length = 2 ∧
      (padTwo (n : Nat)).all Char.isDigit = true ∧ numeral 10 (padTwo (n : Nat)) = n := by
    decide +kernel
  intro n hn
  obtain ⟨hlength, hdigits, hvalue⟩ := hall n hn
  obtain ⟨d₁, d₂, heq⟩ := List.length_eq_two.mp hlength
  rw [heq] at hdigits hvalue
  have hd := List.all_eq_true.mp hdigits
  exact ⟨d₁, d₂, heq, hd d₁ (by simp), hd d₂ (by simp), hvalue⟩

theorem isDigits_of_isDigit (h : ∀ d ∈ ds, d.isDigit = true) : IsDigits 10 ds := by
  intro d hd
  rw [digitVal_of_isDigit (h d hd)]
  rfl

/-! ## Steps of a pattern -/

variable {dateTime : Tm} {d : Char} {s s' : Ptr}

/-- A number below a hundred takes two characters. -/
theorem exists_padTwo {n : Int} (hn : 0 ≤ n ∧ n < 100) : ∃ d₁ d₂, padTwo n = [d₁, d₂] := by
  obtain ⟨n, rfl⟩ := Int.eq_ofNat_of_zero_le hn.1
  obtain ⟨d₁, d₂, heq, -⟩ := padTwo_spec n (by omega)
  exact ⟨d₁, d₂, heq⟩

/-- Two digits are a number, where no third follows. -/
theorem ParseTwoDigits_padTwo {n : Int} (hn : 0 ≤ n ∧ n < 100) (hc : digitVal 10 c = none)
    (rest : Ptr) : ParseTwoDigits (padTwo n ++ c :: rest) = some n := by
  obtain ⟨n, rfl⟩ := Int.eq_ofNat_of_zero_le hn.1
  obtain ⟨d₁, d₂, heq, h₁, h₂, hvalue⟩ := padTwo_spec n (by omega)
  have hds : IsDigits 10 [d₁, d₂] := isDigits_of_isDigit (by simp [h₁, h₂])
  have hstrtol := strtolPtr_digits hds (List.cons_ne_nil _ _) hc rest
  rw [heq]
  unfold ParseTwoDigits
  rw [hstrtol, hvalue]
  simp [h₁, h₂, clampLong_of_le (show n < 2147483647 by omega)]

/-- A time of day is read, in eight characters. -/
theorem ParseTime_timeText {date : Tm} (h : date.Valid) (hc : digitVal 10 c = none) (rest : Ptr) :
    ParseTime (timeText date ++ c :: rest) =
      some (some (date.tm_hour, date.tm_min, date.tm_sec)) ∧ (timeText date).length = 8 := by
  obtain ⟨hl, hu⟩ := h.hour
  obtain ⟨ml, mu⟩ := h.min
  obtain ⟨sl, su⟩ := h.sec
  have hhour := ParseTwoDigits_padTwo (c := ':') ⟨hl, by omega⟩ (by decide)
    (padTwo date.tm_min ++ ':' :: (padTwo date.tm_sec ++ c :: rest))
  have hmin := ParseTwoDigits_padTwo (c := ':') ⟨ml, by omega⟩ (by decide)
    (padTwo date.tm_sec ++ c :: rest)
  have hsec := ParseTwoDigits_padTwo ⟨sl, by omega⟩ hc rest
  obtain ⟨a₁, a₂, ha⟩ := exists_padTwo ⟨hl, by omega⟩
  obtain ⟨b₁, b₂, hb⟩ := exists_padTwo ⟨ml, by omega⟩
  obtain ⟨e₁, e₂, he⟩ := exists_padTwo ⟨sl, by omega⟩
  unfold timeText
  rw [ha, hb, he] at hhour ⊢
  rw [hb, he] at hmin
  rw [he] at hsec
  refine ⟨?_, rfl⟩
  change ParseTime (a₁ :: a₂ :: ':' :: b₁ :: b₂ :: ':' :: e₁ :: e₂ :: c :: rest) = _
  change ParseTwoDigits (a₁ :: a₂ :: ':' :: b₁ :: b₂ :: ':' :: e₁ :: e₂ :: c :: rest) = _ at hhour
  change ParseTwoDigits (b₁ :: b₂ :: ':' :: e₁ :: e₂ :: c :: rest) = _ at hmin
  change ParseTwoDigits (e₁ :: e₂ :: c :: rest) = _ at hsec
  unfold ParseTime
  rw [hhour]
  change (if ¬ (0 ≤ date.tm_hour ∧ date.tm_hour ≤ 23) then some none
    else if ':' ≠ ':' then some none
    else (ParseTwoDigits (b₁ :: b₂ :: ':' :: e₁ :: e₂ :: c :: rest)).bind _) = _
  rw [if_neg (not_not.mpr h.hour), if_neg (not_not.mpr rfl), hmin]
  change (if ¬ (0 ≤ date.tm_min ∧ date.tm_min ≤ 59) then some none
    else if ':' ≠ ':' then some none
    else (ParseTwoDigits (e₁ :: e₂ :: c :: rest)).bind _) = _
  rw [if_neg (not_not.mpr h.min), if_neg (not_not.mpr rfl), hsec]
  change (if ¬ (0 ≤ date.tm_sec ∧ date.tm_sec ≤ 60) then some none else _) = _
  rw [if_neg (not_not.mpr h.sec)]
  rfl

/-- A step of a pattern that is met. -/
theorem parseItems_step {dateTime' : Tm} {item : Datime} {pattern : List Datime}
    (h : parseItem s dateTime item = some (some (s', dateTime'))) :
    parseItems s dateTime (item :: pattern) = parseItems s' dateTime' pattern := by
  rw [parseItems, h]
  rfl

theorem parseItem_COMMA (s : Ptr) (dateTime : Tm) :
    parseItem (',' :: s) dateTime .COMMA = some (some (s, dateTime)) := rfl

theorem parseItem_DASH (s : Ptr) (dateTime : Tm) :
    parseItem ('-' :: s) dateTime .DASH = some (some (s, dateTime)) := rfl

theorem parseItem_GMT (s : Ptr) (dateTime : Tm) :
    parseItem ('G' :: 'M' :: 'T' :: s) dateTime .GMT = some (some (s, dateTime)) := rfl

/-- A space before what is none. -/
theorem parseItem_SPACE (hc : c ≠ ' ') (s : Ptr) (dateTime : Tm) :
    parseItem (' ' :: c :: s) dateTime .SPACE = some (some (c :: s, dateTime)) := by
  have hskip : skipSpaces (' ' :: c :: s) = some (c :: s) := by
    rw [skipSpaces, if_pos rfl, skipSpaces, if_neg hc]
  rw [parseItem, hskip]
  change some (if (c :: s).length = (' ' :: c :: s).length then none else _) = _
  rw [if_neg (by simp)]

/-- Two spaces before what is none. -/
theorem parseItem_SPACE_two (hc : c ≠ ' ') (s : Ptr) (dateTime : Tm) :
    parseItem (' ' :: ' ' :: c :: s) dateTime .SPACE = some (some (c :: s, dateTime)) := by
  have hskip : skipSpaces (' ' :: ' ' :: c :: s) = some (c :: s) := by
    rw [skipSpaces, if_pos rfl, skipSpaces, if_pos rfl, skipSpaces, if_neg hc]
  rw [parseItem, hskip]
  change some (if (c :: s).length = (' ' :: ' ' :: c :: s).length then none else _) = _
  rw [if_neg (by simp)]

/-- The short name of a day, before a comma or a space. -/
theorem ParseDayOfWeek_short {w : Int} (hw : 0 ≤ w ∧ w ≤ 6) (hd : d = ',' ∨ d = ' ') (s : Ptr) :
    ParseDayOfWeek (GetDayOfWeekStr w ++ d :: s) = some (some (w, 3, false)) := by
  obtain ⟨hl, hu⟩ := hw
  rcases hd with rfl | rfl <;> interval_cases w <;> rfl

/-- The full name of a day. -/
theorem ParseDayOfWeek_full {w : Int} (hw : 0 ≤ w ∧ w ≤ 6) (s : Ptr) :
    ParseDayOfWeek ((DayOfWeekTable[w.toNat]?).getD g_Invalid ++ s) =
      some (some (w, ((DayOfWeekTable[w.toNat]?).getD g_Invalid).length, true)) := by
  obtain ⟨hl, hu⟩ := hw
  interval_cases w <;> rfl

/-- The short name of a month, before a space or a dash. -/
theorem parseItem_MONTH {m : Int} (hm : 0 ≤ m ∧ m ≤ 11) (hd : d = '-' ∨ d = ' ') (s : Ptr)
    (dateTime : Tm) : parseItem (GetMonthStr m ++ d :: s) dateTime .MONTH =
      some (some (d :: s, { dateTime with tm_mon := m })) := by
  obtain ⟨hl, hu⟩ := hm
  rcases hd with rfl | rfl <;> interval_cases m <;> rfl

/-- A short name has three letters, none of them blank. -/
theorem GetDayOfWeekStr_spec {w : Int} (hw : 0 ≤ w ∧ w ≤ 6) (s : Ptr) :
    (GetDayOfWeekStr w ++ s).drop 3 = s ∧
      skipBlanks (GetDayOfWeekStr w ++ s) = some (GetDayOfWeekStr w ++ s) := by
  obtain ⟨hl, hu⟩ := hw
  interval_cases w <;> exact ⟨rfl, rfl⟩

/-- A full name does not start with a blank. -/
theorem skipBlanks_full {w : Int} (hw : 0 ≤ w ∧ w ≤ 6) (s : Ptr) :
    skipBlanks ((DayOfWeekTable[w.toNat]?).getD g_Invalid ++ s) =
      some ((DayOfWeekTable[w.toNat]?).getD g_Invalid ++ s) := by
  obtain ⟨hl, hu⟩ := hw
  interval_cases w <;> rfl

theorem parseItem_WDAY {w : Int} (hw : 0 ≤ w ∧ w ≤ 6) (hd : d = ',' ∨ d = ' ') (s : Ptr)
    (dateTime : Tm) : parseItem (GetDayOfWeekStr w ++ d :: s) dateTime .WDAY =
      some (some (d :: s, { dateTime with tm_wday := w })) := by
  rw [parseItem, ParseDayOfWeek_short hw hd]
  change some (some ((GetDayOfWeekStr w ++ d :: s).drop 3, _)) = _
  rw [(GetDayOfWeekStr_spec hw (d :: s)).1]

theorem parseItem_FULLWDAY {w : Int} (hw : 0 ≤ w ∧ w ≤ 6) (s : Ptr) (dateTime : Tm) :
    parseItem ((DayOfWeekTable[w.toNat]?).getD g_Invalid ++ s) dateTime .FULLWDAY =
      some (some (s, { dateTime with tm_wday := w })) := by
  rw [parseItem, ParseDayOfWeek_full hw]
  change some (some (List.drop _ _, _)) = _
  rw [List.drop_left]

/-- A day of the month, in two digits or as it is. -/
theorem parseItem_DAY (hds : IsDigits 10 ds) (hne : ds ≠ []) (hc : digitVal 10 c = none)
    (hday : 1 ≤ numeral 10 ds ∧ numeral 10 ds ≤ 31) (s : Ptr) (dateTime : Tm) :
    parseItem (ds ++ c :: s) dateTime .DAY =
      some (some (c :: s, { dateTime with tm_mday := (numeral 10 ds : Nat) })) := by
  rw [parseItem, ReadStrNum_digits hds hne hc (by omega)]
  change (if ((numeral 10 ds : Nat) : Int) ≤ 0 ∨ ((numeral 10 ds : Nat) : Int) > 31 then some none
    else some (some (List.drop ds.length _, _))) = _
  rw [if_neg (by omega), List.drop_left]

theorem parseItem_YEAR (hds : IsDigits 10 ds) (hne : ds ≠ []) (hc : digitVal 10 c = none)
    (hyear : 1900 ≤ numeral 10 ds ∧ numeral 10 ds ≤ 9999) (s : Ptr) (dateTime : Tm) :
    parseItem (ds ++ c :: s) dateTime .YEAR =
      some (some (c :: s, { dateTime with tm_year := ((numeral 10 ds : Nat) : Int) - 1900 })) := by
  rw [parseItem, ReadStrNum_digits hds hne hc (by omega)]
  change (if ((numeral 10 ds : Nat) : Int) - 1900 < 0 then some none
    else some (some (List.drop ds.length _, _))) = _
  rw [if_neg (by omega), List.drop_left]

theorem parseItem_YEAR2DIGIT (hds : IsDigits 10 ds) (hne : ds ≠ []) (hc : digitVal 10 c = none)
    (hyear : numeral 10 ds ≤ 99) (s : Ptr) (dateTime : Tm) :
    parseItem (ds ++ c :: s) dateTime .YEAR2DIGIT =
      some (some (c :: s, { dateTime with tm_year := (numeral 10 ds : Nat) })) := by
  rw [parseItem, ReadStrNum_digits hds hne hc (by omega)]
  change (if ((numeral 10 ds : Nat) : Int) < 0 ∨ ((numeral 10 ds : Nat) : Int) > 99 then some none
    else some (some (List.drop ds.length _, _))) = _
  rw [if_neg (by omega), List.drop_left]

theorem parseItem_TIME {date : Tm} (h : date.Valid) (hc : digitVal 10 c = none) (s : Ptr)
    (dateTime : Tm) : parseItem (timeText date ++ c :: s) dateTime .TIME =
      some (some (c :: s, { dateTime with
        tm_hour := date.tm_hour, tm_min := date.tm_min, tm_sec := date.tm_sec })) := by
  obtain ⟨htime, hlength⟩ := ParseTime_timeText h hc s
  rw [parseItem, htime]
  change some (some (List.drop 8 _, _)) = _
  rw [← hlength, List.drop_left]

/-- A text that does not start with a space. -/
def StartsDark (ds : CString) : Prop := ∃ c ds', ds = c :: ds' ∧ c ≠ ' '

/-- A space before a text that does not start with one. -/
theorem parseItem_SPACE_append (h : StartsDark ds) (s : Ptr) (dateTime : Tm) :
    parseItem (' ' :: (ds ++ s)) dateTime .SPACE = some (some (ds ++ s, dateTime)) := by
  obtain ⟨c, ds', rfl, hc⟩ := h
  exact parseItem_SPACE hc (ds' ++ s) dateTime

/-! ## Numbers of a date -/

/-- A text is the number. -/
structure Shows (ds : CString) (n : Int) : Prop where
  ne_nil : ds ≠ []
  digits : IsDigits 10 ds
  value : ((numeral 10 ds : Nat) : Int) = n

theorem Shows.startsDark {n : Int} (h : Shows ds n) : StartsDark ds := by
  obtain ⟨d, ds, rfl⟩ := List.exists_cons_of_ne_nil h.ne_nil
  refine ⟨d, ds, rfl, ?_⟩
  rintro rfl
  cases h.digits ' ' List.mem_cons_self

theorem shows_padTwo {n : Int} (hn : 0 ≤ n ∧ n < 100) : Shows (padTwo n) n := by
  obtain ⟨n, rfl⟩ := Int.eq_ofNat_of_zero_le hn.1
  obtain ⟨d₁, d₂, heq, h₁, h₂, hvalue⟩ := padTwo_spec n (by omega)
  rw [heq]
  exact ⟨List.cons_ne_nil _ _, isDigits_of_isDigit (by simp [h₁, h₂]), congrArg Int.ofNat hvalue⟩

theorem shows_decimal {n : Int} (hn : 0 ≤ n) : Shows (decimal n) n := by
  obtain ⟨n, rfl⟩ := Int.eq_ofNat_of_zero_le hn
  exact ⟨Nat.toDigits_ne_nil, isDigits_of_isDigit fun d hd ↦
    Nat.isDigit_of_mem_toDigits (by decide) (by decide) hd, congrArg Int.ofNat (numeral_toDigits n)⟩

/-- `strtol` on a numeral behind a minus. -/
theorem strtol_neg (hds : IsDigits 10 ds) (hne : ds ≠ []) :
    strtol 10 ('-' :: ds) = some (clampLong (-(numeral 10 ds : Nat))) := by
  have hends : EndsNumeral 10 [] := fun c hc ↦ by cases hc
  have hskip := skipHexPrefix_of_digits hds hends hne
  have hrun := @digitRun_append 10 ds [] hds hends 0
  rw [List.append_nil] at hskip hrun
  have hdrop : ('-' :: ds).dropWhile isSpace = '-' :: ds := List.dropWhile_cons_of_neg (by decide)
  have hsign : signOf ('-' :: ds) = (-1, ds) := rfl
  unfold strtol
  rw [hdrop, hsign]
  simp only [hskip]
  obtain ⟨d, ds, rfl⟩ := List.exists_cons_of_ne_nil hne
  simp only [hds d List.mem_cons_self, if_true, hrun, neg_one_mul]
  rfl

/-- An `int` is read back. -/
theorem atoi_decimal {n : Int} (hl : -2147483648 ≤ n) (hu : n ≤ 2147483647) :
    atoi (decimal n) = n := by
  have hclamp : clampLong n = n := by
    rw [clampLong, min_eq_right (by omega), max_eq_right (by omega)]
  have hread : strtol 10 (decimal n) = some n := by
    cases n with
    | ofNat n =>
      obtain ⟨hne, hdigits, hvalue⟩ := shows_decimal (Int.natCast_nonneg n)
      have hstrtol := strtol_of_digits [] (fun _ h ↦ absurd h List.not_mem_nil) hdigits
        (show EndsNumeral 10 [] from fun c hc ↦ by cases hc) hne
      rw [List.nil_append, List.append_nil, hvalue] at hstrtol
      exact hstrtol.trans (congrArg some hclamp)
    | negSucc n =>
      obtain ⟨hne, hdigits, hvalue⟩ := shows_decimal (Int.natCast_nonneg (n + 1))
      have hstrtol := strtol_neg hdigits hne
      rw [hvalue] at hstrtol
      exact hstrtol.trans (congrArg some hclamp)
  rw [atoi, hread, Option.getD_some, wrap32_of_range hl (by omega)]

theorem startsDark_timeText {date : Tm} (h : date.Valid) : StartsDark (timeText date) := by
  obtain ⟨c, ds, heq, hc⟩ := (shows_padTwo ⟨h.hour.1, by have := h.hour.2; omega⟩).startsDark
  unfold timeText
  rw [heq]
  exact ⟨c, _, rfl, hc⟩

theorem startsDark_GetMonthStr {m : Int} (hm : 0 ≤ m ∧ m ≤ 11) : StartsDark (GetMonthStr m) := by
  obtain ⟨hl, hu⟩ := hm
  interval_cases m <;> exact ⟨_, _, rfl, by decide⟩

/-- The spaces before a day of the month that is padded with one. -/
theorem parseItem_SPACE_padSpace {n : Int} (h : Shows (decimal n) n) (s : Ptr) (dateTime : Tm) :
    parseItem (' ' :: (padSpace n ++ s)) dateTime .SPACE =
      some (some (decimal n ++ s, dateTime)) := by
  unfold padSpace
  split
  · obtain ⟨c, ds', heq, hc⟩ := h.startsDark
    rw [heq]
    exact parseItem_SPACE_two hc (ds' ++ s) dateTime
  · exact parseItem_SPACE_append h.startsDark s dateTime

/-- The form is told by what follows the short name of the day. -/
theorem ParseDateTime_short {w : Int} (hw : 0 ≤ w ∧ w ≤ 6) (hd : d = ',' ∨ d = ' ') (s : Ptr)
    (dateTime : Tm) : ParseDateTime (GetDayOfWeekStr w ++ d :: s) dateTime =
      if d = ',' then ParseDatePattern patternRFC1123 (GetDayOfWeekStr w ++ d :: s) dateTime
      else ParseDatePattern patternAsctime (GetDayOfWeekStr w ++ d :: s) dateTime := by
  unfold ParseDateTime
  rw [ParseDayOfWeek_short hw hd]
  change (((GetDayOfWeekStr w ++ d :: s).drop 3)[0]?).bind _ = _
  rw [(GetDayOfWeekStr_spec hw (d :: s)).1]
  rcases hd with rfl | rfl <;> rfl

/-! ## The three forms -/

variable {date : Tm}

/-- What comes out of a pattern that is met up to the terminator. -/
theorem ParseDatePattern_eq {pattern : List Datime} {text : CString} {dateTime' : Tm}
    (hblank : skipBlanks (terminated text) = some (terminated text))
    (hitems : parseItems (terminated text) dateTime pattern = some (some (['\x00'], dateTime'))) :
    ParseDatePattern pattern (terminated text) dateTime = some (some (dateTime', text.length)) := by
  have hlength : (terminated text).length - ['\x00'].length = text.length := by
    rw [terminated, List.length_append, Nat.add_sub_cancel]
  unfold ParseDatePattern
  rw [hblank]
  change ((parseItems (terminated text) dateTime pattern).bind _) = _
  rw [hitems]
  change some (some (dateTime', (terminated text).length - ['\x00'].length)) = _
  rw [hlength]

/-- The form of RFC 1123 is read back. -/
theorem ParseDateTime_DateToString (h : date.Valid) (dateTime : Tm) :
    ParseDateTime (terminated (DateToString date)) dateTime =
      some (some (date, (DateToString date).length)) := by
  obtain ⟨hmday, hmday'⟩ := h.mday
  obtain ⟨htmyear, htmyear'⟩ := h.year
  have hday := shows_padTwo (n := date.tm_mday) ⟨by omega, by omega⟩
  have hyear := shows_decimal (show 0 ≤ date.tm_year + 1900 by omega)
  have htext : terminated (DateToString date) = GetDayOfWeekStr date.tm_wday ++ ',' :: ' ' ::
      (padTwo date.tm_mday ++ ' ' :: (GetMonthStr date.tm_mon ++ ' ' ::
        (decimal (date.tm_year + 1900) ++ ' ' ::
          (timeText date ++ ' ' :: 'G' :: 'M' :: 'T' :: ['\x00'])))) := by
    unfold terminated DateToString
    simp only [List.append_assoc, List.cons_append]
    rfl
  have hpattern : ParseDatePattern patternRFC1123 (terminated (DateToString date)) dateTime =
      some (some (date, (DateToString date).length)) := by
    apply ParseDatePattern_eq
    · rw [htext]
      exact (GetDayOfWeekStr_spec h.wday _).2
    · rw [htext, patternRFC1123, parseItems_step (parseItem_WDAY h.wday (.inl rfl) _ _),
        parseItems_step (parseItem_COMMA _ _),
        parseItems_step (parseItem_SPACE_append hday.startsDark _ _),
        parseItems_step (parseItem_DAY hday.digits hday.ne_nil (by decide)
          (by have := hday.value; omega) _ _),
        parseItems_step (parseItem_SPACE_append (startsDark_GetMonthStr h.mon) _ _),
        parseItems_step (parseItem_MONTH h.mon (.inr rfl) _ _),
        parseItems_step (parseItem_SPACE_append hyear.startsDark _ _),
        parseItems_step (parseItem_YEAR hyear.digits hyear.ne_nil (by decide)
          (by have := hyear.value; omega) _ _),
        parseItems_step (parseItem_SPACE_append (startsDark_timeText h) _ _),
        parseItems_step (parseItem_TIME h (by decide) _ _),
        parseItems_step (parseItem_SPACE (by decide) _ _), parseItems_step (parseItem_GMT _ _)]
      rw [parseItems, hday.value, hyear.value, Int.add_sub_cancel]
  rw [htext] at hpattern ⊢
  rw [ParseDateTime_short h.wday (.inl rfl), if_pos rfl]
  exact hpattern

/-- The form of `asctime` is read back. -/
theorem ParseDateTime_asctimeText (h : date.Valid) (dateTime : Tm) :
    ParseDateTime (terminated (asctimeText date)) dateTime =
      some (some (date, (asctimeText date).length)) := by
  obtain ⟨hmday, hmday'⟩ := h.mday
  obtain ⟨htmyear, htmyear'⟩ := h.year
  have hday := shows_decimal (show 0 ≤ date.tm_mday by omega)
  have hyear := shows_decimal (show 0 ≤ date.tm_year + 1900 by omega)
  have htext : terminated (asctimeText date) = GetDayOfWeekStr date.tm_wday ++ ' ' ::
      (GetMonthStr date.tm_mon ++ ' ' :: (padSpace date.tm_mday ++ ' ' ::
        (timeText date ++ ' ' :: (decimal (date.tm_year + 1900) ++ '\x00' :: [])))) := by
    unfold terminated asctimeText
    simp only [List.append_assoc, List.cons_append]
  have hpattern : ParseDatePattern patternAsctime (terminated (asctimeText date)) dateTime =
      some (some (date, (asctimeText date).length)) := by
    apply ParseDatePattern_eq
    · rw [htext]
      exact (GetDayOfWeekStr_spec h.wday _).2
    · rw [htext, patternAsctime, parseItems_step (parseItem_WDAY h.wday (.inr rfl) _ _),
        parseItems_step (parseItem_SPACE_append (startsDark_GetMonthStr h.mon) _ _),
        parseItems_step (parseItem_MONTH h.mon (.inr rfl) _ _),
        parseItems_step (parseItem_SPACE_padSpace hday _ _),
        parseItems_step (parseItem_DAY hday.digits hday.ne_nil (by decide)
          (by have := hday.value; omega) _ _),
        parseItems_step (parseItem_SPACE_append (startsDark_timeText h) _ _),
        parseItems_step (parseItem_TIME h (by decide) _ _),
        parseItems_step (parseItem_SPACE_append hyear.startsDark _ _),
        parseItems_step (parseItem_YEAR hyear.digits hyear.ne_nil (by decide)
          (by have := hyear.value; omega) _ _)]
      rw [parseItems, hday.value, hyear.value, Int.add_sub_cancel]
  rw [htext] at hpattern ⊢
  rw [ParseDateTime_short h.wday (.inr rfl), if_neg (by decide)]
  exact hpattern

/-- The form of RFC 850 is read back, as a date of the twentieth century. -/
theorem ParseDateTime_rfc850Text (h : date.Valid) (dateTime : Tm) :
    ParseDateTime (terminated (rfc850Text date)) dateTime =
      some (some ({ date with tm_year := date.tm_year % 100 }, (rfc850Text date).length)) := by
  obtain ⟨hmday, hmday'⟩ := h.mday
  obtain ⟨htmyear, htmyear'⟩ := h.year
  have hcentury : (date.tm_year + 1900) % 100 = date.tm_year % 100 := by omega
  have hday := shows_padTwo (n := date.tm_mday) ⟨by omega, by omega⟩
  have hyear := shows_padTwo (n := date.tm_year % 100) ⟨by omega, by omega⟩
  have htext : terminated (rfc850Text date) =
      (DayOfWeekTable[date.tm_wday.toNat]?).getD g_Invalid ++ ',' :: ' ' ::
        (padTwo date.tm_mday ++ '-' :: (GetMonthStr date.tm_mon ++ '-' ::
          (padTwo (date.tm_year % 100) ++ ' ' ::
            (timeText date ++ ' ' :: 'G' :: 'M' :: 'T' :: ['\x00'])))) := by
    unfold terminated rfc850Text
    rw [hcentury]
    simp only [List.append_assoc, List.cons_append]
    rfl
  have hpattern : ParseDatePattern patternRFC850 (terminated (rfc850Text date)) dateTime =
      some (some ({ date with tm_year := date.tm_year % 100 }, (rfc850Text date).length)) := by
    apply ParseDatePattern_eq
    · rw [htext]
      exact skipBlanks_full h.wday _
    · rw [htext, patternRFC850, parseItems_step (parseItem_FULLWDAY h.wday _ _),
        parseItems_step (parseItem_COMMA _ _),
        parseItems_step (parseItem_SPACE_append hday.startsDark _ _),
        parseItems_step (parseItem_DAY hday.digits hday.ne_nil (by decide)
          (by have := hday.value; omega) _ _),
        parseItems_step (parseItem_DASH _ _),
        parseItems_step (parseItem_MONTH h.mon (.inl rfl) _ _),
        parseItems_step (parseItem_DASH _ _),
        parseItems_step (parseItem_YEAR2DIGIT hyear.digits hyear.ne_nil (by decide)
          (by have := hyear.value; omega) _ _),
        parseItems_step (parseItem_SPACE_append (startsDark_timeText h) _ _),
        parseItems_step (parseItem_TIME h (by decide) _ _),
        parseItems_step (parseItem_SPACE (by decide) _ _), parseItems_step (parseItem_GMT _ _)]
      rw [parseItems, hday.value, hyear.value]
  rw [htext] at hpattern ⊢
  unfold ParseDateTime
  rw [ParseDayOfWeek_full h.wday]
  exact hpattern

/-- **The three forms of a date are read back, and no string is read behind its terminator.**  The
form of RFC 850 says the last two digits of the year only, and these are taken for a year of the
twentieth century. -/
theorem dates_read_back (h : date.Valid) (dateTime : Tm) (text : CString) :
    ParseDateTime (terminated (DateToString date)) dateTime =
        some (some (date, (DateToString date).length)) ∧
      ParseDateTime (terminated (asctimeText date)) dateTime =
        some (some (date, (asctimeText date).length)) ∧
      ParseDateTime (terminated (rfc850Text date)) dateTime =
        some (some ({ date with tm_year := date.tm_year % 100 }, (rfc850Text date).length)) ∧
      ParseDateTime (terminated text) dateTime ≠ none :=
  ⟨ParseDateTime_DateToString h dateTime, ParseDateTime_asctimeText h dateTime,
    ParseDateTime_rfc850Text h dateTime, ParseDateTime_safe text dateTime⟩

/-- Eight in the morning on the sixth of November 1994, and a string that is cut short. -/
theorem dates_read_back_1994 :
    ParseDateTime (terminated (DateToString ⟨37, 49, 8, 6, 10, 94, 0⟩)) default =
        some (some (⟨37, 49, 8, 6, 10, 94, 0⟩, 29)) ∧
      ParseDateTime (terminated (asctimeText ⟨37, 49, 8, 6, 10, 94, 0⟩)) default =
        some (some (⟨37, 49, 8, 6, 10, 94, 0⟩, 24)) ∧
      ParseDateTime (terminated (rfc850Text ⟨37, 49, 8, 6, 10, 94, 0⟩)) default =
        some (some (⟨37, 49, 8, 6, 10, 94, 0⟩, 30)) ∧
      ParseDateTime (terminated "Sun, 06".toList) default ≠ none :=
  have hvalid : Tm.Valid ⟨37, 49, 8, 6, 10, 94, 0⟩ := by decide
  dates_read_back hvalid default "Sun, 06".toList

/-- A Monday of the year 2001 is read back from the form of RFC 850 as one of 1901. -/
theorem rfc850_2001 : ¬ ∀ date : Tm, date.Valid → ∀ dateTime,
    (ParseDateTime (terminated (rfc850Text date)) dateTime).map (·.map Prod.fst) =
      some (some date) := by
  intro h
  have hvalid : Tm.Valid ⟨0, 0, 0, 1, 0, 101, 1⟩ := by decide
  have hyear := h _ hvalid default
  rw [ParseDateTime_rfc850Text hvalid] at hyear
  cases hyear

end Upnp.Util
