import ChargeScreening.Json.Basic

/-!
# YAML documents

The tree of a YAML document that is made of block and flow maps, block and flow lists, and scalars
with or without quotes. The keys of maps are scalars.

## Main definitions

* `Yaml.Scalar`: a scalar as it is written
* `Yaml`: the tree
* `Yaml.Scalar.resolve?`: what a scalar stands for where nothing says what is expected
* `Yaml.toJson?`: what a whole tree stands for there
-/

namespace ChargeScreening

/-- A scalar as it is written. -/
structure Yaml.Scalar where
  text : String
  /-- Whether it stands without quotes. -/
  isPlain : Bool
deriving DecidableEq, Repr

/-- A YAML document. Repeated keys are kept; what they mean is for the reader of the map to say. -/
inductive Yaml where
  | scalar (s : Yaml.Scalar)
  | list (items : List Yaml)
  | map (members : List (Yaml.Scalar × Yaml))
deriving Inhabited

namespace Yaml

/-- What is left out: a value where none is written. -/
def absent : Yaml :=
  .scalar ⟨"", true⟩

namespace Scalar

/-- Whether a text is one of the words for nothing. -/
def isNullWord (text : String) : Bool :=
  text == "null" || text == "Null" || text == "NULL" || text == "~"

/-- Whether a scalar stands for nothing where something may be missing: it is left out, or one of
the words for nothing without quotes. -/
def isNull (s : Scalar) : Bool :=
  s.isPlain && (s.text.isEmpty || isNullWord s.text)

/-- The truth value that a scalar without quotes names. -/
def flag? (s : Scalar) : Option Bool :=
  if s.isPlain then
    if s.text == "true" || s.text == "True" || s.text == "TRUE" then some true
    else if s.text == "false" || s.text == "False" || s.text == "FALSE" then some false
    else none
  else none

/-! ### Numbers -/

/-- The value of a digit in bases up to sixteen. -/
def digit? (base : Nat) (c : Char) : Option Nat :=
  let value :=
    if '0' ≤ c ∧ c ≤ '9' then c.toNat - '0'.toNat
    else if 'a' ≤ c ∧ c ≤ 'f' then c.toNat - 'a'.toNat + 10
    else if 'A' ≤ c ∧ c ≤ 'F' then c.toNat - 'A'.toNat + 10
    else base
  if value < base then some value else none

/-- The number that digits spell in a base; there has to be at least one. -/
def natOfDigits? (base : Nat) (cs : List Char) : Option Nat :=
  if cs.isEmpty then none else cs.foldlM (fun n c => (digit? base c).map (base * n + ·)) 0

/-- Whether digits follow a zero. Such a text is no number. -/
def hasLeadingZero : List Char → Bool
  | '0' :: c :: rest => (c :: rest).all Char.isDigit
  | _ => false

/-- A whole number without its sign: `0x`, `0o` or `0b` and digits of that base, or decimal digits
without a leading zero. -/
def magnitude? : List Char → Option Nat
  | '0' :: 'x' :: ds => natOfDigits? 16 ds
  | '0' :: 'o' :: ds => natOfDigits? 8 ds
  | '0' :: 'b' :: ds => natOfDigits? 2 ds
  | ds => if hasLeadingZero ds then none else natOfDigits? 10 ds

/-- A text without a sign in front, and whether the sign is a minus. -/
def splitSign : List Char → Bool × List Char
  | '-' :: rest => (true, rest)
  | '+' :: rest => (false, rest)
  | cs => (false, cs)

/-- The whole number that a text spells. -/
def int? (cs : List Char) : Option Int :=
  let (negative, rest) := splitSign cs
  (magnitude? rest).map fun n => if negative then -(n : Int) else n

/-- The double that a text spells. The infinities and the value that is no number have spellings
of their own that start with a point; a number too large to be finite is none. -/
def double? (text : String) : Option Float :=
  let (negative, rest) := splitSign text.toList
  let unsigned := String.ofList rest
  if unsigned == ".inf" || unsigned == ".Inf" || unsigned == ".INF" then
    some (if negative then -Decimal.infinity else Decimal.infinity)
  else if text == ".nan" || text == ".NaN" || text == ".NAN" then some Decimal.nan
  else if hasLeadingZero rest then none
  else
    match rest with
    | '-' :: _ | '+' :: _ => none
    | _ => (Decimal.read? text).filter Float.isFinite

/-- Whether a number lies within so many bits below zero and so many above. -/
def fitsWord (bitsBelow bitsAbove : Nat) (n : Int) : Bool :=
  n.natAbs ≤ Nat.pow 2 bitsBelow && n < 0 || 0 ≤ n && n.natAbs < Nat.pow 2 bitsAbove

/-- What a scalar stands for where nothing says what is expected. A scalar in quotes is a text. One
without is nothing, a truth value, a whole number, a double, or else a text. A whole number that
fits neither sixty-four bits nor overflows twice as many cannot be read at all. -/
def resolve? (s : Scalar) : Option Json :=
  if !s.isPlain then some (.string s.text)
  else if s.isNull then some .null
  else
    match s.flag? with
    | some b => some (.bool b)
    | none =>
      let other : Json := match double? s.text with
        | some x => .number (.real x)
        | none => .string s.text
      match int? s.text.toList with
      | some n =>
        if fitsWord 63 64 n then some (.ofInt n)
        else if fitsWord 127 128 n then none
        else some other
      | none => some other

end Scalar

mutual

/-- What a tree stands for where nothing says what is expected. The keys of maps have to be
texts. -/
def toJson? : Yaml → Option Json
  | .scalar s => s.resolve?
  | .list items => (itemsToJson? items).map .array
  | .map members => (membersToJson? members).map .object

/-- What the items of a list stand for. -/
def itemsToJson? : List Yaml → Option (List Json)
  | [] => some []
  | item :: rest => do
    let item ← toJson? item
    let rest ← itemsToJson? rest
    return item :: rest

/-- What the members of a map stand for. -/
def membersToJson? : List (Scalar × Yaml) → Option (List (String × Json))
  | [] => some []
  | (key, value) :: rest => do
    let .string key ← key.resolve? | none
    let value ← toJson? value
    let rest ← membersToJson? rest
    return (key, value) :: rest

end

end Yaml

end ChargeScreening
