import ChargeScreening.Json.Basic

/-!
# Reading JSON text

The strict grammar: no comments, no trailing commas, no leading zeros, nothing after the document
but blanks. Numbers too large for a double are refused, and so is nesting beyond a fixed depth.

## Main definitions

* `Json.parse?`: the document a text spells, if it spells one
* `Json.parseFront?`: the document at the front of a text

## Implementation notes

The readers work on the characters that are left and carry a count of steps that is larger than
the text, so that they recurse on the count. `parse?` supplies it.
-/

namespace ChargeScreening.Json

/-- The four blanks that JSON allows between tokens. -/
def isSpace (c : Char) : Bool :=
  c == ' ' || c == '\n' || c == '\t' || c == '\r'

/-- The characters after the leading blanks. -/
def skipSpace (cs : List Char) : List Char :=
  cs.dropWhile isSpace

/-- How many arrays and objects may lie inside one another. -/
def maxDepth : Nat := 127

/-- The value of a hexadecimal digit. -/
def hexDigit? (c : Char) : Option Nat :=
  if c.isDigit then some (c.toNat - '0'.toNat)
  else if 'a' ≤ c && c ≤ 'f' then some (c.toNat - 'a'.toNat + 10)
  else if 'A' ≤ c && c ≤ 'F' then some (c.toNat - 'A'.toNat + 10)
  else none

/-- The code unit of four hexadecimal digits and what follows them. -/
def hexUnit? : List Char → Option (Nat × List Char)
  | a :: b :: c :: d :: rest => do
    let a ← hexDigit? a
    let b ← hexDigit? b
    let c ← hexDigit? c
    let d ← hexDigit? d
    return (((a * 16 + b) * 16 + c) * 16 + d, rest)
  | _ => none

/-- The character of a `\u` escape, from its digits on. A leading surrogate needs a trailing one
right behind it, and a trailing one may not stand alone. -/
def unicodeEscape? (cs : List Char) : Option (Char × List Char) := do
  let (unit, rest) ← hexUnit? cs
  if 0xD800 ≤ unit ∧ unit ≤ 0xDBFF then
    match rest with
    | '\\' :: 'u' :: rest => do
      let (low, rest) ← hexUnit? rest
      if 0xDC00 ≤ low ∧ low ≤ 0xDFFF then
        return (Char.ofNat (0x10000 + (unit - 0xD800) * 0x400 + (low - 0xDC00)), rest)
      else none
    | _ => none
  else if 0xDC00 ≤ unit ∧ unit ≤ 0xDFFF then none
  else return (Char.ofNat unit, rest)

/-- The character of an escape, from the one behind the backslash on. -/
def escape? : List Char → Option (Char × List Char)
  | '"' :: rest => some ('"', rest)
  | '\\' :: rest => some ('\\', rest)
  | '/' :: rest => some ('/', rest)
  | 'b' :: rest => some ('\x08', rest)
  | 'f' :: rest => some ('\x0c', rest)
  | 'n' :: rest => some ('\n', rest)
  | 'r' :: rest => some ('\r', rest)
  | 't' :: rest => some ('\t', rest)
  | 'u' :: rest => unicodeEscape? rest
  | _ => none

/-- The characters of a string up to its closing quote, and what follows the quote. -/
def readString? : Nat → List Char → List Char → Option (String × List Char)
  | 0, _, _ => none
  | steps + 1, read, cs =>
    match cs with
    | [] => none
    | '"' :: rest => some (String.ofList read.reverse, rest)
    | '\\' :: rest =>
      match escape? rest with
      | some (c, rest) => readString? steps (c :: read) rest
      | none => none
    | c :: rest => if c.toNat < 0x20 then none else readString? steps (c :: read) rest

/-- The whole digits of a number: a lone zero, or digits that start with another one. -/
def wholeDigits? (cs : List Char) : Option (List Char × List Char) :=
  match cs with
  | '0' :: rest =>
    match rest with
    | c :: _ => if c.isDigit then none else some (['0'], rest)
    | [] => some (['0'], [])
  | _ =>
    let (ds, rest) := Decimal.spanDigits cs
    if ds.isEmpty then none else some (ds, rest)

/-- The exponent of a number, if one follows, and what follows it. -/
def exponentPart? (cs : List Char) : Option (Option Int × List Char) :=
  match cs with
  | c :: rest =>
    if c = 'e' || c = 'E' then
      let (negative, rest) := match rest with
        | '-' :: r => (true, r)
        | '+' :: r => (false, r)
        | r => (false, r)
      let (ds, rest) := Decimal.spanDigits rest
      if ds.isEmpty then none
      else
        let value : Int := Decimal.digitsValue ds
        some (some (if negative then -value else value), rest)
    else some (none, cs)
  | [] => some (none, [])

/-- The fraction of a number, if a point follows, and what follows it. -/
def fractionPart? (cs : List Char) : Option (Option (List Char) × List Char) :=
  match cs with
  | '.' :: rest =>
    let (ds, rest) := Decimal.spanDigits rest
    if ds.isEmpty then none else some (some ds, rest)
  | _ => some (none, cs)

/-- A whole number keeps its exact value while it fits sixty-four bits; beyond that, and for a
zero with a minus sign, it is a double. -/
def wholeNumber (negative : Bool) (magnitude : Nat) : Number :=
  if negative then
    if magnitude = 0 || Nat.pow 2 63 < magnitude then .real (-Decimal.nearest magnitude 0)
    else .whole (-(magnitude : Int))
  else if magnitude < Nat.pow 2 64 then .whole magnitude
  else .real (Decimal.nearest magnitude 0)

/-- A number without its sign, and what follows it. -/
def readMagnitude? (negative : Bool) (cs : List Char) : Option (Number × List Char) := do
  let (whole, rest) ← wholeDigits? cs
  let (fraction, rest) ← fractionPart? rest
  let (exponent, rest) ← exponentPart? rest
  if fraction.isNone && exponent.isNone then
    return (wholeNumber negative (Decimal.digitsValue whole), rest)
  else
    let fraction := fraction.getD []
    let x := Decimal.nearest (Decimal.digitsValue (whole ++ fraction))
      (exponent.getD 0 - fraction.length)
    if x.isFinite then return (.real (if negative then -x else x), rest) else none

/-- A number and what follows it. -/
def readNumber? : List Char → Option (Number × List Char)
  | '-' :: rest => readMagnitude? true rest
  | cs => readMagnitude? false cs

mutual

/-- A value and what follows it. -/
def readValue? : Nat → Nat → List Char → Option (Json × List Char)
  | 0, _, _ => none
  | steps + 1, depth, cs =>
    match skipSpace cs with
    | 'n' :: 'u' :: 'l' :: 'l' :: rest => some (.null, rest)
    | 't' :: 'r' :: 'u' :: 'e' :: rest => some (.bool true, rest)
    | 'f' :: 'a' :: 'l' :: 's' :: 'e' :: rest => some (.bool false, rest)
    | '"' :: rest =>
      (readString? (rest.length + 1) [] rest).map fun (s, rest) => (.string s, rest)
    | '[' :: rest =>
      if depth = 0 then none
      else match skipSpace rest with
        | ']' :: rest => some (.array [], rest)
        | rest => (readItems? steps (depth - 1) rest).map fun (xs, rest) => (.array xs, rest)
    | '\x7b' :: rest =>
      if depth = 0 then none
      else match skipSpace rest with
        | '\x7d' :: rest => some (.object [], rest)
        | rest => (readMembers? steps (depth - 1) rest).map fun (ms, rest) => (.object ms, rest)
    | cs => (readNumber? cs).map fun (n, rest) => (.number n, rest)

/-- The items of an array up to its closing bracket. -/
def readItems? : Nat → Nat → List Char → Option (List Json × List Char)
  | 0, _, _ => none
  | steps + 1, depth, cs => do
    let (item, rest) ← readValue? steps depth cs
    match skipSpace rest with
    | ',' :: rest => do
      let (items, rest) ← readItems? steps depth rest
      return (item :: items, rest)
    | ']' :: rest => return ([item], rest)
    | _ => none

/-- The members of an object up to its closing brace. -/
def readMembers? : Nat → Nat → List Char → Option (List (String × Json) × List Char)
  | 0, _, _ => none
  | steps + 1, depth, cs =>
    match skipSpace cs with
    | '"' :: rest => do
      let (key, rest) ← readString? (rest.length + 1) [] rest
      match skipSpace rest with
      | ':' :: rest => do
        let (value, rest) ← readValue? steps depth rest
        match skipSpace rest with
        | ',' :: rest => do
          let (members, rest) ← readMembers? steps depth rest
          return ((key, value) :: members, rest)
        | '\x7d' :: rest => return ([(key, value)], rest)
        | _ => none
      | _ => none
    | _ => none

end

/-- The document at the front of a text, and what follows it. -/
def readFront? (text : String) : Option (Json × List Char) :=
  let cs := text.toList
  readValue? (2 * cs.length + 2) maxDepth cs

/-- The document a text spells, if it spells one and nothing but blanks follows. -/
def parse? (text : String) : Option Json :=
  match readFront? text with
  | some (value, rest) => if (skipSpace rest).isEmpty then some value else none
  | none => none

/-- The document at the front of a text, whatever follows it. -/
def parseFront? (text : String) : Option Json :=
  (readFront? text).map Prod.fst

end ChargeScreening.Json
