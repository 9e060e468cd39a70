/-!
# Reading numbers

The double nearest to a written decimal, ties to the even significand.

## Main definitions

* `nearest`: the double nearest to `coefficient * 10 ^ exponent`
* `readUnsigned?`: digits with an optional point and exponent
* `read?`: the same with an optional sign, and the names of the infinities and of no number
-/

namespace ChargeScreening.Decimal

/-- Positive infinity. -/
def infinity : Float := Float.ofBits 0x7FF0000000000000

/-- The number that is none. -/
def nan : Float := Float.ofBits 0x7FF8000000000000

/-- The double nearest to `coefficient * 10 ^ exponent`. Decimals far above the largest double are
infinite and those far below the smallest one are zero, without raising ten to the exponent. -/
def nearest (coefficient : Nat) (exponent : Int) : Float :=
  if coefficient = 0 then 0.0
  else
    let top : Int := (Nat.toDigits 10 coefficient).length + exponent
    if 400 < top then infinity
    else if top < -400 then 0.0
    else Float.ofScientific coefficient (exponent < 0) exponent.natAbs

/-- The value of a run of decimal digits. -/
def digitsValue (ds : List Char) : Nat :=
  ds.foldl (fun n c => 10 * n + (c.toNat - '0'.toNat)) 0

/-- A character list cut after its leading decimal digits. -/
def spanDigits (cs : List Char) : List Char × List Char :=
  (cs.takeWhile Char.isDigit, cs.dropWhile Char.isDigit)

/-- The exponent at the end of a decimal: nothing, or the letter `e` in either case, a sign if
any, and at least one digit up to the end. -/
def readExponent? : List Char → Option Int
  | [] => some 0
  | c :: cs =>
    if c = 'e' || c = 'E' then
      let (negative, rest) := match cs with
        | '-' :: r => (true, r)
        | '+' :: r => (false, r)
        | r => (false, r)
      let (ds, left) := spanDigits rest
      if ds.isEmpty || !left.isEmpty then none
      else some (if negative then -(digitsValue ds : Int) else digitsValue ds)
    else none

/-- The fraction after the whole digits: the digits behind a point, if there is one, and what
follows them. -/
def spanFraction : List Char → List Char × List Char
  | '.' :: rest => spanDigits rest
  | rest => ([], rest)

/-- A decimal without a sign. At least one digit has to stand before or behind the point. -/
def readUnsigned? (cs : List Char) : Option Float :=
  let (whole, afterWhole) := spanDigits cs
  let (fraction, afterFraction) := spanFraction afterWhole
  if whole.isEmpty && fraction.isEmpty then none
  else (readExponent? afterFraction).map fun e =>
    nearest (digitsValue (whole ++ fraction)) (e - fraction.length)

/-- A number without a sign: a decimal, or `inf`, `infinity` or `nan` in any case. -/
def readMagnitude? (cs : List Char) : Option Float :=
  let word := String.ofList (cs.map Char.toLower)
  if word = "inf" || word = "infinity" then some infinity
  else if word = "nan" then some nan
  else readUnsigned? cs

/-- A number with an optional sign. Nothing may stand before or after it. -/
def readList? : List Char → Option Float
  | '-' :: cs => (readMagnitude? cs).map Float.neg
  | '+' :: cs => readMagnitude? cs
  | cs => readMagnitude? cs

/-- The number a text spells, if it spells one. -/
def read? (s : String) : Option Float :=
  readList? s.toList

end ChargeScreening.Decimal
