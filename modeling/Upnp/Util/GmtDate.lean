import Upnp.Web.CacheDirective

/-!
# Dates

`gmtdate.cpp`: what `DateToString` writes, and `ParseDateTime`, which tells three forms of a date
apart.  A pointer into a string is what is left of its memory, the terminator last; a read behind
the terminator faults, that is, gives `none`.
-/

namespace Upnp.Util

open Upnp.Lib

/-- What is left of a string's memory at a pointer. -/
abbrev Ptr := List Char

/-- The memory of a string. -/
def terminated (text : CString) : Ptr := text ++ ['\x00']

/-- The fields of `struct tm` that a date has. -/
structure Tm where
  tm_sec : Int
  tm_min : Int
  tm_hour : Int
  tm_mday : Int
  tm_mon : Int
  tm_year : Int
  tm_wday : Int
deriving DecidableEq, Inhabited, Repr

def g_Days : List CString :=
  ["Sun".toList, "Mon".toList, "Tue".toList, "Wed".toList, "Thu".toList, "Fri".toList, "Sat".toList]

def g_Invalid : CString := "INV".toList

def g_Months : List CString :=
  ["Jan".toList, "Feb".toList, "Mar".toList, "Apr".toList, "May".toList, "Jun".toList,
    "Jul".toList, "Aug".toList, "Sep".toList, "Oct".toList, "Nov".toList, "Dec".toList]

def MonthTable : List CString :=
  ["January".toList, "February".toList, "March".toList, "April".toList, "May".toList,
    "June".toList, "July".toList, "August".toList, "September".toList, "October".toList,
    "November".toList, "December".toList]

def DayOfWeekTable : List CString :=
  ["Sunday".toList, "Monday".toList, "Tuesday".toList, "Wednesday".toList, "Thursday".toList,
    "Friday".toList, "Saturday".toList]

/-! ## Writing -/

/-- `GetDayOfWeekStr`. -/
def GetDayOfWeekStr (day : Int) : CString :=
  if 0 ≤ day ∧ day ≤ 6 then (g_Days[day.toNat]?).getD g_Invalid else g_Invalid

/-- `GetMonthStr`; the argument is `unsigned`. -/
def GetMonthStr (month : Int) : CString :=
  if 0 ≤ month ∧ month ≤ 11 then (g_Months[month.toNat]?).getD g_Invalid else g_Invalid

/-- `%02d`. -/
def padTwo (n : Int) : CString :=
  if (decimal n).length < 2 then '0' :: decimal n else decimal n

/-- `%02d:%02d:%02d`. -/
def timeText (date : Tm) : CString :=
  padTwo date.tm_hour ++ ':' :: (padTwo date.tm_min ++ ':' :: padTwo date.tm_sec)

/-- `DateToString`. -/
def DateToString (date : Tm) : CString :=
  GetDayOfWeekStr date.tm_wday ++ ", ".toList ++ padTwo date.tm_mday ++ ' ' ::
    (GetMonthStr date.tm_mon ++ ' ' :: (decimal (date.tm_year + 1900) ++ ' ' ::
      (timeText date ++ " GMT".toList)))

/-! ## Reading -/

/-- `strncasecmp( s, name, name's length ) == 0`; the name has no NUL. -/
def strncasecmpIs0 (s : Ptr) (name : CString) : Option Bool :=
  match name, s with
  | [], _ => some true
  | _ :: _, [] => none
  | d :: name, c :: s => if c.toLower = d.toLower then strncasecmpIs0 s name else some false
termination_by structural name

/-- `SearchNameInfo` from an index on: the index, `charsRead` and `fullLengthMatch`. -/
def SearchNameInfo (name : Ptr) : Nat → List CString → Option (Option (Int × Nat × Bool))
  | _, [] => some none
  | i, info :: nameTable => do
    if ← strncasecmpIs0 name info then return some (i, info.length, true)
    else if ← strncasecmpIs0 name (info.take 3) then return some (i, 3, false)
    else SearchNameInfo name (i + 1) nameTable

/-- `ParseMonth`. -/
def ParseMonth (monthStr : Ptr) : Option (Option (Int × Nat × Bool)) :=
  SearchNameInfo monthStr 0 MonthTable

/-- `ParseDayOfWeek`. -/
def ParseDayOfWeek (dayOfWeek : Ptr) : Option (Option (Int × Nat × Bool)) :=
  SearchNameInfo dayOfWeek 0 DayOfWeekTable

/-- The white space that `strtol` skips. -/
def skipIsSpace : Ptr → Option Ptr
  | [] => none
  | c :: s => if isSpace c then skipIsSpace s else some (c :: s)

/-- The digits that `strtol` reads. -/
def readDigits : Nat → Ptr → Option (Nat × Ptr)
  | _, [] => none
  | acc, c :: s =>
    match digitVal 10 c with
    | some v => readDigits (acc * 10 + v) s
    | none => some (acc, c :: s)

/-- The sign that `strtol` reads. -/
def readSign : Ptr → Option (Int × Ptr)
  | [] => none
  | '-' :: s => some (-1, s)
  | '+' :: s => some (1, s)
  | c :: s => some (1, c :: s)

/-- `strtol( s, &endptr, 10 )` and `endptr - s`. -/
def strtolPtr (s : Ptr) : Option (Int × Nat) := do
  let t ← skipIsSpace s
  let (sign, t) ← readSign t
  let (n, endptr) ← readDigits 0 t
  if endptr.length = t.length then return (0, 0)
  else return (clampLong (sign * n), s.length - endptr.length)

/-- `ReadStrNum`: the number and `numCharsRead`; `none` for -1. -/
def ReadStrNum (str : Ptr) : Option (Option (Int × Nat)) := do
  let (v, numCharsRead) ← strtolPtr str
  let val := wrap32 v
  if val < 0 ∨ val = intMax then return none
  else if numCharsRead = 0 then return none
  else return some (val, numCharsRead)

/-- `ParseTwoDigits`. -/
def ParseTwoDigits (s : Ptr) : Option Int := do
  if !(← s[0]?).isDigit then return -1
  else if !(← s[1]?).isDigit then return -1
  else
    let (v, _) ← strtolPtr s
    return wrap32 v

/-- `ParseTime`: the hour, the minute and the second; `none` for -1. -/
def ParseTime (s : Ptr) : Option (Option (Int × Int × Int)) := do
  let h ← ParseTwoDigits s
  if ¬ (0 ≤ h ∧ h ≤ 23) then return none
  else if (← s[2]?) ≠ ':' then return none
  else
    let m ← ParseTwoDigits (s.drop 3)
    if ¬ (0 ≤ m ∧ m ≤ 59) then return none
    else if (← s[5]?) ≠ ':' then return none
    else
      let sec ← ParseTwoDigits (s.drop 6)
      if ¬ (0 ≤ sec ∧ sec ≤ 60) then return none
      else return some (h, m, sec)

/-- What a pattern is made of. -/
inductive Datime where
  | SPACE
  | COMMA
  | DASH
  | WDAY
  | FULLWDAY
  | DAY
  | MONTH
  | YEAR
  | YEAR2DIGIT
  | TIME
  | GMT
deriving DecidableEq, Repr

/-- `*s++` compared with a character. -/
def expectChar (d : Char) : Ptr → Option (Option Ptr)
  | [] => none
  | c :: s => some (if c = d then some s else none)

/-- `while ( *s == ' ' ) s++`. -/
def skipSpaces : Ptr → Option Ptr
  | [] => none
  | c :: s => if c = ' ' then skipSpaces s else some (c :: s)

/-- `while ( *s == ' ' || *s == '\t' ) s++`. -/
def skipBlanks : Ptr → Option Ptr
  | [] => none
  | c :: s => if c = ' ' ∨ c = '\t' then skipBlanks s else some (c :: s)

/-- One step of `ParseDatePattern`: the pointer and the fields after it, `none` for -1. -/
def parseItem (s : Ptr) (dateTime : Tm) : Datime → Option (Option (Ptr × Tm))
  | .SPACE => do
    let s' ← skipSpaces s
    return if s'.length = s.length then none else some (s', dateTime)
  | .COMMA => do return (← expectChar ',' s).map (·, dateTime)
  | .DASH => do return (← expectChar '-' s).map (·, dateTime)
  | .WDAY => do
    match ← ParseDayOfWeek s with
    | none => return none
    | some (tm_wday, charsParsed, fullNameMatch) =>
      if fullNameMatch then return none
      else return some (s.drop charsParsed, { dateTime with tm_wday := tm_wday })
  | .FULLWDAY => do
    match ← ParseDayOfWeek s with
    | none => return none
    | some (tm_wday, charsParsed, fullNameMatch) =>
      if !fullNameMatch then return none
      else return some (s.drop charsParsed, { dateTime with tm_wday := tm_wday })
  | .DAY => do
    match ← ReadStrNum s with
    | none => return none
    | some (mday, charsParsed) =>
      if mday ≤ 0 ∨ mday > 31 then return none
      else return some (s.drop charsParsed, { dateTime with tm_mday := mday })
  | .MONTH => do
    match ← ParseMonth s with
    | none => return none
    | some (mon, charsParsed, fullNameMatch) =>
      -- The fifth month is its own abbreviation.
      if fullNameMatch ∧ mon ≠ 4 then return none
      else return some (s.drop charsParsed, { dateTime with tm_mon := mon })
  | .YEAR => do
    match ← ReadStrNum s with
    | none => return none
    | some (year, charsParsed) =>
      if year - 1900 < 0 then return none
      else return some (s.drop charsParsed, { dateTime with tm_year := year - 1900 })
  | .YEAR2DIGIT => do
    match ← ReadStrNum s with
    | none => return none
    | some (year, charsParsed) =>
      if year < 0 ∨ year > 99 then return none
      else return some (s.drop charsParsed, { dateTime with tm_year := year })
  | .TIME => do
    match ← ParseTime s with
    | none => return none
    | some (tm_hour, tm_min, tm_sec) =>
      return some (s.drop 8,
        { dateTime with tm_hour := tm_hour, tm_min := tm_min, tm_sec := tm_sec })
  | .GMT => do
    match ← expectChar 'G' s with
    | none => return none
    | some s =>
      match ← expectChar 'M' s with
      | none => return none
      | some s => return (← expectChar 'T' s).map (·, dateTime)

/-- The loop of `ParseDatePattern`. -/
def parseItems (s : Ptr) (dateTime : Tm) : List Datime → Option (Option (Ptr × Tm))
  | [] => some (some (s, dateTime))
  | item :: pattern => do
    match ← parseItem s dateTime item with
    | none => return none
    | some (s, dateTime) => parseItems s dateTime pattern

/-- `ParseDatePattern`: the fields and `numCharsParsed`; `none` for -1. -/
def ParseDatePattern (pattern : List Datime) (s : Ptr) (dateTime : Tm) :
    Option (Option (Tm × Nat)) := do
  let saveS := s
  let s ← skipBlanks s
  match ← parseItems s dateTime pattern with
  | none => return none
  | some (s, dateTime) => return some (dateTime, saveS.length - s.length)

/-- The pattern of `ParseRFC850DateTime`. -/
def patternRFC850 : List Datime :=
  [.FULLWDAY, .COMMA, .SPACE, .DAY, .DASH, .MONTH, .DASH, .YEAR2DIGIT, .SPACE, .TIME, .SPACE, .GMT]

/-- The pattern of `ParseRFC1123DateTime`. -/
def patternRFC1123 : List Datime :=
  [.WDAY, .COMMA, .SPACE, .DAY, .SPACE, .MONTH, .SPACE, .YEAR, .SPACE, .TIME, .SPACE, .GMT]

/-- The pattern of `ParseAsctimeFmt`. -/
def patternAsctime : List Datime :=
  [.WDAY, .SPACE, .MONTH, .SPACE, .DAY, .SPACE, .TIME, .SPACE, .YEAR]

/-- `ParseDateTime`. -/
def ParseDateTime (str : Ptr) (dateTime : Tm) : Option (Option (Tm × Nat)) := do
  match ← ParseDayOfWeek str with
  | none => return none
  | some (_, charsParsed, fullNameMatch) =>
    if fullNameMatch then ParseDatePattern patternRFC850 str dateTime
    else
      let c ← (str.drop charsParsed)[0]?
      if c = ',' then ParseDatePattern patternRFC1123 str dateTime
      else if c = ' ' then ParseDatePattern patternAsctime str dateTime
      else return none

end Upnp.Util
