import AtmMonitor.EventPatterns

namespace AtmMonitor.NcrDatetime

open Library.Regex PyText ParserModels EventPatterns

def isLeap (year : Nat) : Bool := year % 4 == 0 && (year % 100 != 0 || year % 400 == 0)

def daysInMonth (year month : Nat) : Nat :=
  if month == 2 then (if isLeap year then 29 else 28)
  else if month == 4 || month == 6 || month == 9 || month == 11 then 30
  else 31

def daysBeforeYear (year : Nat) : Nat :=
  let y := year - 1
  y * 365 + y / 4 - y / 100 + y / 400

def daysBeforeMonth (year month : Nat) : Nat :=
  ((List.range' 1 (month - 1)).map (daysInMonth year)).sum

/-- `date(year, month, day).toordinal()`, when the three are a calendar date. -/
def toOrdinal (year month day : Nat) : Option Nat :=
  if 1 ≤ year ∧ year ≤ 9999 ∧ 1 ≤ month ∧ month ≤ 12 ∧ 1 ≤ day ∧ day ≤ daysInMonth year month then
    some (daysBeforeYear year + daysBeforeMonth year month + day)
  else none

def microseconds (ordinal hour minute : Nat) : Timestamp :=
  ((ordinal * 24 + hour) * 60 + minute) * 60 * 1000000

def range (lo hi : Char) : Regex := .cls (fun c => lo ≤ c && c ≤ hi)

def dayDirective : Regex :=
  .group "d" (alts [.seq (chr '3') (range '0' '1'), .seq (range '1' '2') (digits 1),
    .seq (chr '0') (range '1' '9'), range '1' '9', .seq (chr ' ') (range '1' '9')])

def monthDirective : Regex :=
  .group "m" (alts [.seq (chr '1') (range '0' '2'), .seq (chr '0') (range '1' '9'), range '1' '9'])

def hourDirective : Regex :=
  .group "H" (alts [.seq (chr '2') (range '0' '3'), .seq (range '0' '1') (digits 1), digits 1])

def minuteDirective : Regex := .group "M" (alts [.seq (range '0' '5') (digits 1), digits 1])

/-- The four formats tried by `parse_ncr_datetime`: the separator and `%Y` or `%y`. -/
inductive Format where
  | slashLong | dashLong | slashShort | dashShort

def formats : List Format := [.slashLong, .dashLong, .slashShort, .dashShort]

def Format.separator : Format → Char
  | .slashLong | .slashShort => '/'
  | .dashLong | .dashShort => '-'

def Format.long : Format → Bool
  | .slashLong | .dashLong => true
  | .slashShort | .dashShort => false

def Format.pattern (f : Format) : Regex :=
  seqs [dayDirective, chr f.separator, monthDirective, chr f.separator,
    .group "y" (digits (if f.long then 4 else 2)), many1 isSpace, hourDirective, chr ':',
    minuteDirective]

def Format.year (f : Format) (y : Nat) : Nat :=
  if f.long then y else if y ≤ 68 then 2000 + y else 1900 + y

/-- `datetime.strptime`: no result where the original raises `ValueError`. -/
def strptime (s : Str) (f : Format) : Option Timestamp := do
  let m ← matchStart f.pattern s
  if m.right.isEmpty then
    let day ← m.group "d"
    let month ← m.group "m"
    let year ← m.group "y"
    let hour ← m.group "H"
    let minute ← m.group "M"
    let ordinal ← toOrdinal (f.year (int year)) (int month) (int day)
    some (microseconds ordinal (int hour) (int minute))
  else none

/-- The time that a header names, if one of the formats accepts it. -/
def headerTime (dateStr timeStr : Str) : Option Timestamp :=
  formats.findSome? (strptime (dateStr ++ ' ' :: timeStr))

/-- `parse_ncr_datetime`, with the reading `now` of the clock for the fallback. -/
def parseNcrDatetime (now : Timestamp) (dateStr timeStr : Str) : Timestamp :=
  (headerTime dateStr timeStr).getD now

end AtmMonitor.NcrDatetime
