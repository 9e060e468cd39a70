import ChargeScreening.Json.Basic

/-!
# Reading records out of documents

A record is read from an object by the names of its fields, or from an array by their order.
A field may go by several names; giving it twice, under one name or under two, is an error.
Members that name no field are ignored.

## Main definitions

* `Json.Record`: the two forms a record is read from
* `Json.record?`: a document as a record with so many fields
* `Record.required?`, `Record.withDefault?`, `Record.optional?`, `Record.nullable?`: one field
* `Json.text?`, `Json.flag?`, `Json.double?`, `Json.natBelow?`, `Json.list?`, `Json.choice?`: values
-/

namespace ChargeScreening.Json

/-- The two forms a record is read from. -/
inductive Record where
  /-- Members by name. -/
  | named (members : List (String × Json))
  /-- Values in the order of the fields. -/
  | positional (items : List Json)

/-- A document as a record of `width` fields: an object, or an array that is not too long. -/
def record? (width : Nat) : Json → Option Record
  | .object members => some (.named members)
  | .array items => if items.length ≤ width then some (.positional items) else none
  | _ => none

namespace Record

/-- The value of a field, by its place or by its names. The outer `none` is a field given twice,
the inner one a field that is absent. -/
def find? (place : Nat) (names : List String) : Record → Option (Option Json)
  | .named members =>
    match members.filter fun m => names.contains m.1 with
    | [] => some none
    | [m] => some (some m.2)
    | _ => none
  | .positional items => some items[place]?

/-- A field that has to be there. -/
def required? {α : Type} (r : Record) (place : Nat) (names : List String)
    (decode : Json → Option α) : Option α := do
  let found ← r.find? place names
  let value ← found
  decode value

/-- A field with a value of its own when it is absent. -/
def withDefault? {α : Type} (r : Record) (place : Nat) (names : List String) (absent : α)
    (decode : Json → Option α) : Option α := do
  let found ← r.find? place names
  match found with
  | none => some absent
  | some value => decode value

/-- A field that may be absent or `null`. -/
def optional? {α : Type} (r : Record) (place : Nat) (names : List String)
    (decode : Json → Option α) : Option (Option α) := do
  let found ← r.find? place names
  match found with
  | none => some none
  | some .null => some none
  | some value => (decode value).map some

/-- A field that may be `null`, and absent only where fields are found by name. -/
def nullable? {α : Type} (r : Record) (place : Nat) (names : List String)
    (decode : Json → Option α) : Option (Option α) :=
  match r, r.find? place names with
  | .positional _, some none => none
  | _, _ => r.optional? place names decode

end Record

/-- A text. -/
def text? : Json → Option String
  | .string s => some s
  | _ => none

/-- A truth value. -/
def flag? : Json → Option Bool
  | .bool b => some b
  | _ => none

/-- A number, whole or not, as a double. -/
def double? : Json → Option Float
  | .number n => some n.toFloat
  | _ => none

/-- A whole number from zero up to, but not including, a bound. -/
def natBelow? (bound : Nat) : Json → Option Nat
  | .number (.whole n) => if 0 ≤ n ∧ n < bound then some n.toNat else none
  | _ => none

/-- An array whose every item can be decoded. -/
def list? {α : Type} (decode : Json → Option α) : Json → Option (List α)
  | .array items => items.mapM decode
  | _ => none

/-- The name of one of a fixed set of choices, and its content if it carries any: a text, or an
object whose only member is named for the choice. -/
def choice? : Json → Option (String × Option Json)
  | .string name => some (name, none)
  | .object [(name, content)] => some (name, some content)
  | _ => none

/-- A choice without content. Content that is `null` counts as none. -/
def plainChoice? (j : Json) : Option String :=
  match choice? j with
  | some (name, none) => some name
  | some (name, some .null) => some name
  | _ => none

end ChargeScreening.Json
