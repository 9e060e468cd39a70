import ChargeScreening.Evaluation.Error
import ChargeScreening.Expression.Basic

/-!
# Comparing an attribute with a literal

Both sides are first brought to a common type: numbers where the attribute is a number and the
literal is one or spells one, texts where the attribute is a text, truth values where one side is a
truth value and the other spells one. Other scalars are unrelated: never equal, and without order.

## Main definitions

* `Aligned`: both sides brought to a common type
* `align`: how they are brought there
* `compareValue`: the result of an operator
-/

namespace ChargeScreening

/-- Both sides of a comparison, brought to a common type. -/
inductive Aligned where
  | numbers (left right : Float)
  | texts (left right : String)
  | bools (left right : Bool)
  /-- Sides that are never equal. -/
  | unrelated

/-- The order of two doubles; none when one of them is no number. -/
def numberOrder (l r : Float) : Option Ordering :=
  if l == r then some .eq
  else if l < r then some .lt
  else if r < l then some .gt
  else none

/-- The order of two texts, by code points. -/
def textOrder (l r : String) : Ordering :=
  if l = r then .eq else if l < r then .lt else .gt

/-- The order of two truth values, false before true. -/
def boolOrder : Bool → Bool → Ordering
  | false, true => .lt
  | true, false => .gt
  | _, _ => .eq

namespace Aligned

/-- Whether the sides are equal. -/
def isEqual : Aligned → Bool
  | .numbers l r => l == r
  | .texts l r => l == r
  | .bools l r => l == r
  | .unrelated => false

end Aligned

/-- The truth value that a text spells, in any case and between blanks. -/
def readBool? (s : String) : Option Bool :=
  match Text.asciiLower (Text.trim s) with
  | "true" => some true
  | "false" => some false
  | _ => none

/-- The error of an operator that cannot be applied to a value and a literal. -/
def mismatch (op : Operator) (left : Value) (right : Literal) : EvalError :=
  .typeMismatch op.word left.kind right.kind

/-- Brings both sides to a common type. Arrays, objects and lists have none. -/
def align (op : Operator) (left : Value) (right : Literal) : Except EvalError Aligned :=
  match left, right with
  | .number l, .number r => .ok (.numbers l r)
  | .number l, .text r =>
    match Decimal.readList? (Text.trimList r.toList) with
    | some x => .ok (.numbers l x)
    | none => .ok (.texts (Decimal.ruleText l) r)
  | .text l, .number r => .ok (.texts l (Decimal.ruleText r))
  | .text l, .text r => .ok (.texts l r)
  | .bool l, .bool r => .ok (.bools l r)
  | .text l, .bool r =>
    match readBool? l with
    | some b => .ok (.bools b r)
    | none => .ok .unrelated
  | .bool l, .text r =>
    match readBool? r with
    | some b => .ok (.bools l b)
    | none => .ok .unrelated
  | .array _, _ | .object _, _ | _, .list _ => .error (mismatch op left right)
  | _, _ => .ok .unrelated

/-- Whether an operator holds of an order. Without one, only inequality does. -/
def Operator.holds : Operator → Option Ordering → Bool
  | .eq, some o => o == .eq
  | .ne, some o => o != .eq
  | .ne, none => true
  | .lt, some o => o == .lt
  | .le, some o => o != .gt
  | .gt, some o => o == .gt
  | .ge, some o => o != .lt
  | _, _ => false

/-- The order an operator is applied to. Truth values and unrelated sides have no order that an
ordering operator could use. -/
def orderFor (op : Operator) (left : Value) (right : Literal) :
    Except EvalError (Option Ordering) :=
  match align op left right with
  | .error e => .error e
  | .ok (.numbers l r) => .ok (numberOrder l r)
  | .ok (.texts l r) => .ok (some (textOrder l r))
  | .ok (.bools l r) =>
    if op.isOrdering then .error (mismatch op left right) else .ok (some (boolOrder l r))
  | .ok .unrelated =>
    if op.isOrdering then .error (mismatch op left right) else .ok none

/-- The text of a scalar, for operators that compare texts. -/
def Value.scalarText? : Value → Option String
  | .text s => some s
  | .number x => some (Decimal.ruleText x)
  | .bool b => some (Value.boolText b)
  | _ => none

/-- The text of a scalar literal. -/
def Literal.scalarText? : Literal → Option String
  | .text s => some s
  | .number x => some (Decimal.ruleText x)
  | .bool b => some (Value.boolText b)
  | .list _ => none

/-- Whether a list of characters stands somewhere inside another. -/
def containsChars (needle : List Char) : List Char → Bool
  | [] => needle.isEmpty
  | c :: cs => needle.isPrefixOf (c :: cs) || containsChars needle cs

/-- The result of the operators that compare texts. -/
def matchText (op : Operator) (left : Value) (right : Literal) : Except EvalError Bool :=
  match left.scalarText?, right.scalarText? with
  | some hay, some needle =>
    if op = .co then .ok (containsChars needle.toList hay.toList)
    else .ok (needle.toList.isSuffixOf hay.toList)
  | _, _ => .error (mismatch op left right)

/-- Whether the value equals one of the items. The first item that can be compared to be equal
settles it, and one that cannot be compared before that is an error. -/
def memberOf (op : Operator) (left : Value) : List Literal → Except EvalError Bool
  | [] => .ok false
  | item :: rest =>
    match align op left item with
    | .error e => .error e
    | .ok a => if a.isEqual then .ok true else memberOf op left rest

/-- The result of an operator between an attribute's value and a literal. A `null` attribute
fails every comparison. -/
def compareValue (left : Value) (op : Operator) (right : Literal) : Except EvalError Bool :=
  if left.isNull then .ok false
  else
    match op with
    | .isIn =>
      match right with
      | .list items => memberOf op left items
      | _ => .error (mismatch op left right)
    | .co | .ew => matchText op left right
    | _ => (orderFor op left right).map op.holds

end ChargeScreening
