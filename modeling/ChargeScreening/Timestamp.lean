import ChargeScreening.Json.Record
import ChargeScreening.Text.Blank
import ChargeScreening.Decimal.Reader

/-!
# Points in time

Seconds since the start of 1970 in universal time, written and read as RFC 3339. Reading is
lenient about blanks between the parts, about the letter between date and time, and about how an
offset is punctuated; writing always uses the letter `Z` and as many places of the second as it
needs, in threes.

## Main definitions

* `Timestamp`: the point in time
* `Timestamp.render`: its text
* `Timestamp.parse?`: the point in time a text names
-/

namespace ChargeScreening

/-- A point in universal time. A leap second is the second before it with a billion or more
nanoseconds. -/
structure Timestamp where
  /-- Whole seconds since the start of 1970. -/
  seconds : Int
  nanos : Nat := 0
deriving DecidableEq, Repr, Inhabited

namespace Timestamp

/-- Days since the start of 1970 of a day of the Gregorian calendar. Years are counted from March,
so that the leap day is the last one of its year. -/
def daysOfDate (year : Int) (month day : Nat) : Int :=
  let y := if month ≤ 2 then year - 1 else year
  let era := y.fdiv 400
  let yearOfEra := y - era * 400
  let monthFromMarch : Int := (month + 9) % 12
  let dayOfYear := (153 * monthFromMarch + 2).fdiv 5 + (day : Int) - 1
  let dayOfEra := yearOfEra * 365 + yearOfEra.fdiv 4 - yearOfEra.fdiv 100 + dayOfYear
  era * 146097 + dayOfEra - 719468

/-- The year, month and day of a count of days since the start of 1970. -/
def dateOfDays (days : Int) : Int × Nat × Nat :=
  let z := days + 719468
  let era := z.fdiv 146097
  let dayOfEra := z - era * 146097
  let yearOfEra := (dayOfEra - dayOfEra.fdiv 1460 + dayOfEra.fdiv 36524
    - dayOfEra.fdiv 146096).fdiv 365
  let dayOfYear := dayOfEra - (365 * yearOfEra + yearOfEra.fdiv 4 - yearOfEra.fdiv 100)
  let monthFromMarch := (5 * dayOfYear + 2).fdiv 153
  let day := dayOfYear - (153 * monthFromMarch + 2).fdiv 5 + 1
  let month := if monthFromMarch < 10 then monthFromMarch + 3 else monthFromMarch - 9
  let year := yearOfEra + era * 400 + if month ≤ 2 then 1 else 0
  (year, month.toNat, day.toNat)

/-- Whether a year has a leap day. -/
def isLeapYear (year : Int) : Bool :=
  year % 4 == 0 && (year % 100 != 0 || year % 400 == 0)

/-- The number of days in a month. -/
def daysInMonth (year : Int) (month : Nat) : Nat :=
  if month = 2 then (if isLeapYear year then 29 else 28)
  else if month ∈ [4, 6, 9, 11] then 30 else 31

/-! ### Writing -/

/-- A number with zeros in front up to a width. -/
def padded (width n : Nat) : String :=
  let ds := Nat.toDigits 10 n
  String.ofList (List.replicate (width - ds.length) '0' ++ ds)

/-- A year: four digits, and a sign in front of one before year 0 or after 9999. -/
def yearText (year : Int) : String :=
  if year < 0 then "-" ++ padded 4 year.natAbs
  else if 9999 < year then "+" ++ padded 4 year.natAbs
  else padded 4 year.natAbs

/-- The places of a second: none, three, six or nine. -/
def fractionText (nanos : Nat) : String :=
  if nanos = 0 then ""
  else if nanos % 1000000 = 0 then "." ++ padded 3 (nanos / 1000000)
  else if nanos % 1000 = 0 then "." ++ padded 6 (nanos / 1000)
  else "." ++ padded 9 nanos

/-- The text of a point in time, in universal time. -/
def render (t : Timestamp) : String :=
  let days := t.seconds.fdiv 86400
  let clock := (t.seconds - days * 86400).toNat
  let (year, month, day) := dateOfDays days
  let leap := t.nanos / 1000000000
  yearText year ++ "-" ++ padded 2 month ++ "-" ++ padded 2 day ++ "T"
    ++ padded 2 (clock / 3600) ++ ":" ++ padded 2 (clock / 60 % 60) ++ ":"
    ++ padded 2 (clock % 60 + leap) ++ fractionText (t.nanos % 1000000000) ++ "Z"

/-! ### Reading -/

/-- Up to `width` digits behind blanks, at least one, and what follows them. -/
def readNumber? (width : Nat) (cs : List Char) : Option (Nat × List Char) :=
  let cs := Text.trimFront cs
  let ds := (cs.take width).takeWhile Char.isDigit
  if ds.isEmpty then none else some (Decimal.digitsValue ds, cs.drop ds.length)

/-- A given character behind blanks, and what follows it. -/
def readMark? (mark : Char) (cs : List Char) : Option (List Char) :=
  match Text.trimFront cs with
  | c :: rest => if c = mark then some rest else none
  | [] => none

/-- A year: up to four digits, or a sign and any number of them. -/
def readYear? (cs : List Char) : Option (Int × List Char) :=
  match Text.trimFront cs with
  | '-' :: rest => (readDigits? rest).map fun (n, rest) => (-(n : Int), rest)
  | '+' :: rest => (readDigits? rest).map fun (n, rest) => ((n : Int), rest)
  | cs => (readNumber? 4 cs).map fun (n, rest) => ((n : Int), rest)
where
  /-- A run of digits, at least one. -/
  readDigits? (cs : List Char) : Option (Nat × List Char) :=
    let (ds, rest) := Decimal.spanDigits cs
    if ds.isEmpty then none else some (Decimal.digitsValue ds, rest)

/-- The nanoseconds behind the point of a second. Places after the ninth are dropped. -/
def readFraction? : List Char → Option (Nat × List Char)
  | '.' :: rest =>
    let (ds, rest) := Decimal.spanDigits rest
    if ds.isEmpty then none
    else
      let kept := ds.take 9
      some (Decimal.digitsValue kept * Nat.pow 10 (9 - kept.length), rest)
  | cs => some (0, cs)

/-- Two digits of an offset. -/
def readPair? : List Char → Option (Nat × Nat × List Char)
  | a :: b :: rest =>
    if a.isDigit && b.isDigit then some (a.toNat - '0'.toNat, b.toNat - '0'.toNat, rest) else none
  | _ => none

/-- An offset of so many hours and minutes to the east or west, and what follows it. -/
def readSigned? (sign : Int) (cs : List Char) : Option (Int × List Char) := do
  let (h, h', rest) ← readPair? cs
  let rest := rest.dropWhile fun c => c == ':' || Text.isBlank c
  let (m, m', rest) ← readPair? rest
  if 5 < m then none
  else
    let seconds : Int := ((10 * h + h') * 60 + (10 * m + m')) * 60
    if seconds < 86400 then some (sign * seconds, rest) else none

/-- The offset from universal time, in seconds, and what follows it. -/
def readOffset? (cs : List Char) : Option (Int × List Char) :=
  let cs := Text.trimFront cs
  if Text.asciiUpper (String.ofList (cs.take 3)) = "UTC" then some (0, cs.drop 3)
  else
    match cs with
    | 'Z' :: rest | 'z' :: rest => some (0, rest)
    | '+' :: rest => readSigned? 1 rest
    | '-' :: rest => readSigned? (-1) rest
    | '\u2212' :: rest => readSigned? (-1) rest
    | _ => none

/-- The mark between date and time, and what follows it. -/
def readSeparator? : List Char → Option (List Char)
  | 'T' :: rest | 't' :: rest | ' ' :: rest => some rest
  | _ => none

/-- The point in time a text names. -/
def parse? (text : String) : Option Timestamp := do
  let (year, cs) ← readYear? text.toList
  let cs ← readMark? '-' cs
  let (month, cs) ← readNumber? 2 cs
  let cs ← readMark? '-' cs
  let (day, cs) ← readNumber? 2 cs
  let cs ← readSeparator? cs
  let (hour, cs) ← readNumber? 2 cs
  let cs ← readMark? ':' cs
  let (minute, cs) ← readNumber? 2 cs
  let cs ← readMark? ':' cs
  let (second, cs) ← readNumber? 2 cs
  let (nanos, cs) ← readFraction? cs
  let (offset, cs) ← readOffset? cs
  if !cs.all Text.isBlank then none
  else if year < -262143 ∨ 262142 < year then none
  else if month = 0 ∨ 12 < month ∨ day = 0 ∨ daysInMonth year month < day then none
  else if 23 < hour ∨ 59 < minute ∨ 60 < second then none
  else
    let leap := if second = 60 then 1 else 0
    let clock : Nat := (hour * 60 + minute) * 60 + (second - leap)
    some ⟨daysOfDate year month day * 86400 + clock - offset, nanos + leap * 1000000000⟩

/-- The JSON form. -/
def toJson (t : Timestamp) : Json :=
  .string t.render

/-- Reads the JSON form. -/
def ofJson? (j : Json) : Option Timestamp :=
  j.text?.bind parse?

end Timestamp

end ChargeScreening
