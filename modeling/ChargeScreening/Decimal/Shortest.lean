/-!
# The fewest digits that read back

A double stands for every real that rounds to it. Its shortest decimal is the point of the
coarsest power-of-ten grid that meets this interval; of two such points the nearer one is taken.
All arithmetic is exact, on natural numbers.

## Main definitions

* `Binary`: a positive double as `mantissa * 2 ^ exponent`
* `Binary.ofBits`: the magnitude of a finite double
* `Shortest`: a decimal `coefficient * 10 ^ exponent`
* `Binary.shortest`: the decimal with the fewest digits

## Implementation notes

The interval ends are kept in quarters of the last binary place, because below a power of two the
spacing halves and the lower end lies a quarter of a place away. Distances are compared after
multiplying both sides by the powers of two and ten that make them whole.
-/

namespace ChargeScreening.Decimal

/-- A positive double as `mantissa * 2 ^ exponent`, with the place of its lower neighbour. -/
structure Binary where
  /-- The whole significand. -/
  mantissa : Nat
  /-- The power of two it is scaled by. -/
  exponent : Int
  /-- Whether the next double below lies half a place nearer than the one above. -/
  narrowBelow : Bool
deriving DecidableEq, Repr

/-- The magnitude of a finite double from its 64 bits: a zero exponent field holds the subnormal
numbers, any other adds the hidden leading bit. -/
def Binary.ofBits (bits : Nat) : Binary :=
  let field : Nat := bits / Nat.pow 2 52 % Nat.pow 2 11
  let fraction : Nat := bits % Nat.pow 2 52
  if field = 0 then ⟨fraction, -1074, false⟩
  else ⟨Nat.pow 2 52 + fraction, (field : Int) - 1075, fraction == 0 && field > 1⟩

/-- Which of two equally near decimals is taken. -/
inductive Tie where
  /-- The larger magnitude. -/
  | up
  /-- The one whose last digit is even. -/
  | even
deriving DecidableEq, Repr

/-- The decimal `coefficient * 10 ^ exponent`. -/
structure Shortest where
  coefficient : Nat
  exponent : Int
deriving DecidableEq, Repr

namespace Binary

/-- A count of units of `10 ^ place`, on the scale on which quarters of the last binary place are
whole numbers. -/
def scaleDecimal (b : Binary) (place : Int) (count : Nat) : Nat :=
  count * Nat.pow 10 place.toNat * Nat.pow 2 (2 - b.exponent).toNat

/-- A count of quarters of the last binary place, on the same scale. -/
def scaleQuarters (b : Binary) (place : Int) (count : Nat) : Nat :=
  count * Nat.pow 10 (-place).toNat * Nat.pow 2 (b.exponent - 2).toNat

/-- The lower end of the reals that round to the number, in quarters of the last place. -/
def lowerEnd (b : Binary) : Nat :=
  4 * b.mantissa - if b.narrowBelow then 1 else 2

/-- The upper end of the reals that round to the number, in quarters of the last place. -/
def upperEnd (b : Binary) : Nat :=
  4 * b.mantissa + 2

/-- Whether `count * 10 ^ place` rounds to the number. Ties round to an even significand, so the
ends belong to the interval exactly when the significand is even. -/
def roundsHere (b : Binary) (place : Int) (count : Nat) : Bool :=
  let x := b.scaleDecimal place count
  let lo := b.scaleQuarters place b.lowerEnd
  let hi := b.scaleQuarters place b.upperEnd
  if b.mantissa % 2 = 0 then lo ≤ x && x ≤ hi else lo < x && x < hi

/-- The point of the grid of multiples of `10 ^ place` that rounds to the number and lies nearest
to it, when there is one. Only the two grid neighbours of the number can qualify. -/
def gridPoint? (b : Binary) (tie : Tie) (place : Int) : Option Nat :=
  let value := b.scaleQuarters place (4 * b.mantissa)
  let unit := b.scaleDecimal place 1
  let below := value / unit
  let rest := value % unit
  match b.roundsHere place below, b.roundsHere place (below + 1) with
  | false, false => none
  | true, false => some below
  | false, true => some (below + 1)
  | true, true =>
    if 2 * rest < unit then some below
    else if unit < 2 * rest then some (below + 1)
    else match tie with
      | .up => some (below + 1)
      | .even => some (if below % 2 = 0 then below else below + 1)

/-- The first grid, going down from `place`, with a point that rounds to the number. -/
def shortestFrom (b : Binary) (tie : Tie) : Nat → Int → Shortest
  | 0, place => ⟨b.scaleQuarters place (4 * b.mantissa) / b.scaleDecimal place 1, place⟩
  | steps + 1, place =>
    match b.gridPoint? tie place with
    | some count => ⟨count, place⟩
    | none => shortestFrom b tie steps (place - 1)

/-- A power of ten above the number: its binary magnitude times the decimal logarithm of two. -/
def topPlace (b : Binary) : Int :=
  ((Nat.log2 b.mantissa : Int) + b.exponent) * 30103 / 100000 + 2

/-- The decimal with the fewest digits that rounds to the number. Seventeen digits always suffice,
so the search ends well within its steps. -/
def shortest (b : Binary) (tie : Tie) : Shortest :=
  b.shortestFrom tie 24 b.topPlace

end Binary

end ChargeScreening.Decimal
