import ChargeScreening.Decimal.Reader

/-!
# JSON documents

The tree of a JSON document. Members of an object keep the order and the repetitions they are
written with; what a repeated member means is for the reader of the object to say.

## Main definitions

* `Json`: the tree
* `Json.Number`: whole numbers, kept exactly, and doubles
* `Json.Number.toFloat`: the double nearest to a number
-/

namespace ChargeScreening

/-- A JSON number: a whole number written without point or exponent, or a double. -/
inductive Json.Number where
  | whole (n : Int)
  | real (x : Float)
deriving DecidableEq, Inhabited

/-- A JSON document. -/
inductive Json where
  | null
  | bool (b : Bool)
  | number (n : Json.Number)
  | string (s : String)
  | array (items : List Json)
  | object (members : List (String × Json))
deriving Inhabited

namespace Json

/-- The double nearest to a number. -/
def Number.toFloat : Number → Float
  | .whole n =>
    let magnitude := Decimal.nearest n.natAbs 0
    if n < 0 then -magnitude else magnitude
  | .real x => x

/-- A whole number as a document. -/
def ofInt (n : Int) : Json := .number (.whole n)

/-- A natural number as a document. -/
def ofNat (n : Nat) : Json := .number (.whole n)

/-- A double as a document. The infinities and the number that is none have no JSON form and
become `null`. -/
def ofFloat (x : Float) : Json :=
  if x.isFinite then .number (.real x) else .null

/-- A text that may be missing; a missing one is `null`. -/
def ofText? : Option String → Json
  | some s => .string s
  | none => .null

/-- The members of an object that are present, in the order given. -/
def objectOf (members : List (Option (String × Json))) : Json :=
  .object (members.filterMap id)

/-- A member that is always written. -/
def member (key : String) (value : Json) : Option (String × Json) :=
  some (key, value)

/-- A member that is written only when its value is present. -/
def member? {α : Type} (key : String) (value : Option α) (encode : α → Json) :
    Option (String × Json) :=
  value.map fun v => (key, encode v)

end Json

end ChargeScreening
