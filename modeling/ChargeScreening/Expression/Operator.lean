import ChargeScreening.Decision

/-!
# Operators of rule expressions

Comparisons, formula operations and the connectives between clauses, with the words they go by.

## Main definitions

* `Operator`: the nine comparisons
* `MathOp`: the four formula operations, with `MathOp.accepts` for their operand counts
* `Connective`: `and` and `or`, with `Connective.combine`
-/

namespace ChargeScreening

/-- The comparison between an operand and a literal. -/
inductive Operator where
  | eq
  | ne
  | lt
  | le
  | gt
  | ge
  /-- Whether the text contains another. -/
  | co
  /-- Whether the text ends with another. -/
  | ew
  /-- Whether the value is in a list. -/
  | isIn
deriving DecidableEq, Repr, Inhabited

namespace Operator

/-- The canonical word. -/
def word : Operator → String
  | .eq => "eq"
  | .ne => "ne"
  | .lt => "lt"
  | .le => "le"
  | .gt => "gt"
  | .ge => "ge"
  | .co => "co"
  | .ew => "ew"
  | .isIn => "in"

/-- Whether the operator needs an order. -/
def isOrdering : Operator → Bool
  | .lt | .le | .gt | .ge => true
  | _ => false

/-- Whether the operator compares texts only. -/
def isTextMatch : Operator → Bool
  | .co | .ew => true
  | _ => false

/-- The operator that a word or symbol names, in any case and between blanks. -/
def ofWord? (s : String) : Option Operator :=
  match Text.asciiLower (Text.trim s) with
  | "eq" | "==" => some .eq
  | "ne" | "!=" => some .ne
  | "lt" | "<" => some .lt
  | "le" | "<=" => some .le
  | "gt" | ">" => some .gt
  | "ge" | ">=" => some .ge
  | "co" => some .co
  | "ew" => some .ew
  | "in" => some .isIn
  | _ => none

/-- The operator a word names, or the word as unknown. -/
def read (s : String) : Except UnknownWord Operator :=
  match ofWord? s with
  | some op => .ok op
  | none => .error (.operator s)

/-- The JSON form. -/
def toJson (op : Operator) : Json :=
  .string op.word

/-- Reads the JSON form: any spelling of the operator. -/
def ofJson? (j : Json) : Option Operator :=
  j.text?.bind ofWord?

end Operator

/-- The operation of a formula. -/
inductive MathOp where
  | sum
  /-- The first operand less the second. -/
  | subtract
  /-- The product of all operands. -/
  | mlp
  /-- The first operand divided by the others; zero when one of these is zero. -/
  | div
deriving DecidableEq, Repr, Inhabited

namespace MathOp

/-- The canonical word. -/
def word : MathOp → String
  | .sum => "SUM"
  | .subtract => "SUBTRACT"
  | .mlp => "MLP"
  | .div => "DIV"

/-- The exact number of operands, for the operation that fixes one. -/
def arity? : MathOp → Option Nat
  | .subtract => some 2
  | _ => none

/-- Whether a formula of the operation may have so many operands: at least two, and as many as
the operation fixes. -/
def accepts (op : MathOp) (count : Nat) : Bool :=
  2 ≤ count && op.arity?.all (· == count)

/-- The operation a word names, in any case and between blanks. -/
def ofWord? (s : String) : Option MathOp :=
  match Text.asciiUpper (Text.trim s) with
  | "SUM" => some .sum
  | "SUBTRACT" => some .subtract
  | "MLP" => some .mlp
  | "DIV" => some .div
  | _ => none

/-- The operation a word names, or the word as unknown. -/
def read (s : String) : Except UnknownWord MathOp :=
  match ofWord? s with
  | some op => .ok op
  | none => .error (.mathOp s)

/-- The JSON form. -/
def toJson (op : MathOp) : Json :=
  .string op.word

/-- Reads the JSON form. -/
def ofJson? (j : Json) : Option MathOp :=
  j.text?.bind ofWord?

end MathOp

/-- What joins a clause to the next one. -/
inductive Connective where
  | and
  | or
deriving DecidableEq, Repr, Inhabited

namespace Connective

/-- The canonical word. -/
def word : Connective → String
  | .and => "and"
  | .or => "or"

/-- Joins the result so far with that of the next clause. -/
def combine : Connective → Bool → Bool → Bool
  | .and, a, b => a && b
  | .or, a, b => a || b

/-- The connective that a word or symbol names, in any case and between blanks. -/
def ofWord? (s : String) : Option Connective :=
  match Text.asciiLower (Text.trim s) with
  | "and" | "&&" => some .and
  | "or" | "||" => some .or
  | _ => none

/-- The connective a word names, or the word as unknown. -/
def read (s : String) : Except UnknownWord Connective :=
  match ofWord? s with
  | some c => .ok c
  | none => .error (.connective s)

/-- The JSON form. -/
def toJson (c : Connective) : Json :=
  .string c.word

/-- Reads the JSON form. -/
def ofJson? (j : Json) : Option Connective :=
  j.text?.bind ofWord?

/-- The JSON form of a connective that may be missing. -/
def toJson? : Option Connective → Json
  | some c => c.toJson
  | none => .null

end Connective

end ChargeScreening
