import ChargeScreening.Decimal.Shortest

/-!
# How numbers are written

Three texts of a double, all built on its shortest digits.

## Main definitions

* `plainText`: positional, never with an exponent
* `ruleText`: positional, and zero without a sign; used in rule text and list keys
* `jsonText`: with a point or an exponent, as JSON documents show doubles
-/

namespace ChargeScreening.Decimal

/-- The digits of a natural number. -/
def digits (n : Nat) : List Char :=
  Nat.toDigits 10 n

/-- A decimal written positionally: zeros are appended for a positive exponent, and a negative one
puts the point into the digits or in front of them. -/
def positional (d : Shortest) : List Char :=
  let ds := digits d.coefficient
  if 0 ≤ d.exponent then ds ++ List.replicate d.exponent.toNat '0'
  else
    let places := (-d.exponent).toNat
    if ds.length ≤ places then '0' :: '.' :: (List.replicate (places - ds.length) '0' ++ ds)
    else ds.take (ds.length - places) ++ '.' :: ds.drop (ds.length - places)

/-- The shortest decimal of a finite nonzero double's magnitude. -/
def shortestOf (x : Float) (tie : Tie) : Shortest :=
  (Binary.ofBits x.toBits.toNat).shortest tie

/-- Whether the sign bit of a double is set. -/
def isNegative (x : Float) : Bool :=
  Nat.pow 2 63 ≤ x.toBits.toNat

/-- Whether a double is one of the two zeros. -/
def isZero (x : Float) : Bool :=
  x.toBits.toNat % Nat.pow 2 63 == 0

/-- A double written with the fewest digits that read back, never with an exponent. The two zeros
differ by their sign; of two equally short and near decimals the larger is written. -/
def plainText (x : Float) : String :=
  if x.isNaN then "NaN"
  else
    let sign := if isNegative x then ['-'] else []
    let body :=
      if x.isInf then "inf".toList
      else if isZero x then ['0']
      else positional (shortestOf x .up)
    String.ofList (sign ++ body)

/-- A double as rule text and list keys show it: as `plainText`, but zero has no sign. -/
def ruleText (x : Float) : String :=
  if isZero x then "0" else plainText x

/-- The digits of a JSON number. A point stands inside or in front of the digits up to ten to the
sixteenth and down to ten to the minus fifth; beyond that an exponent follows the first digit. -/
def scientific (d : Shortest) : List Char :=
  let ds := digits d.coefficient
  let top : Int := ds.length + d.exponent
  if 0 ≤ d.exponent && top ≤ 16 then positional d ++ ['.', '0']
  else if (0 < top && top ≤ 16) || (-5 < top && top ≤ 0) then positional d
  else
    let power := (toString (top - 1)).toList
    match ds with
    | [] => []
    | [c] => c :: 'e' :: power
    | c :: rest => c :: '.' :: (rest ++ 'e' :: power)

/-- A finite double as a JSON document shows it: always with a point or an exponent, and of two
equally short and near decimals the even one. -/
def jsonText (x : Float) : String :=
  let sign := if isNegative x then ['-'] else []
  let body := if isZero x then "0.0".toList else scientific (shortestOf x .even)
  String.ofList (sign ++ body)

end ChargeScreening.Decimal
