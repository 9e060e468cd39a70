import ChargeScreening.Decimal.Notation
import ChargeScreening.Json.Printer
import ChargeScreening.Text.Blank

/-!
# Attribute values

What an attribute of a charge can hold. Every number is a double.

## Main definitions

* `Value`: a scalar, an array or an object
* `Members`: the named values of an object, with `Members.get?` and `Members.set`
* `Value.ofJson`, `Value.toJson`: the JSON form
* `Value.coerceNumber?`: a value read as a number
* `Value.display`: a value as text

## Implementation notes

An object is a list of named values. Reading a document keeps the last value of a repeated name,
so the names of an object read from a document are distinct (`Value.WellFormed`).
-/

namespace ChargeScreening

/-- What an attribute can hold. -/
inductive Value where
  | null
  | bool (b : Bool)
  | number (x : Float)
  | text (s : String)
  | array (items : List Value)
  | object (members : List (String × Value))
deriving Inhabited

namespace Value

mutual

/-- Whether two values are equal, with their numbers compared as doubles. -/
def same : Value → Value → Bool
  | .null, .null => true
  | .bool a, .bool b => a == b
  | .number x, .number y => x == y
  | .text s, .text t => s == t
  | .array items, .array others => sameItems items others
  | .object members, .object others => sameMembers members others
  | _, _ => false

/-- Whether two lists of values are equal item by item. -/
def sameItems : List Value → List Value → Bool
  | [], [] => true
  | item :: rest, other :: others => same item other && sameItems rest others
  | _, _ => false

/-- Whether two lists of named values are equal, names and values in order. -/
def sameMembers : List (String × Value) → List (String × Value) → Bool
  | [], [] => true
  | (name, value) :: rest, (name', value') :: others =>
    name == name' && same value value' && sameMembers rest others
  | _, _ => false

end

instance : BEq Value := ⟨same⟩

end Value

/-- Named values. -/
abbrev Members := List (String × Value)

namespace Members

/-- The value under a name. -/
def get? (ms : Members) (name : String) : Option Value :=
  ms.lookup name

/-- The members with a value put under a name, in the place of the one it had before. -/
def set : Members → String → Value → Members
  | [], name, value => [(name, value)]
  | (k, v) :: rest, name, value =>
    if k = name then (name, value) :: rest else (k, v) :: set rest name value

/-- Members from named values in which a later value replaces an earlier one of its name. -/
def ofPairs (pairs : List (String × Value)) : Members :=
  pairs.foldl (fun ms p => ms.set p.1 p.2) []

/-- The names, in order. -/
def names (ms : Members) : List String :=
  ms.map Prod.fst

theorem get?_set (ms : Members) (name other : String) (value : Value) :
    (ms.set name value).get? other = if other = name then some value else ms.get? other := by
  induction ms with
  | nil =>
    by_cases h : other = name
    · simp [set, get?, h]
    · simp [set, get?, List.lookup_cons, h, beq_eq_false_iff_ne.mpr h]
  | cons m rest ih =>
    obtain ⟨k, v⟩ := m
    by_cases hk : k = name
    · subst hk
      by_cases h : other = k
      · simp [set, get?, h]
      · simp [set, get?, List.lookup_cons, h, beq_eq_false_iff_ne.mpr h]
    · rw [set, if_neg hk]
      by_cases h : other = k
      · subst h
        simp [get?, hk]
      · have hb := beq_eq_false_iff_ne.mpr h
        simpa [get?, List.lookup_cons, hb] using ih

end Members

namespace Value

mutual

/-- The value of a JSON document. A repeated name keeps its last value. -/
def ofJson : Json → Value
  | .null => .null
  | .bool b => .bool b
  | .number n => .number n.toFloat
  | .string s => .text s
  | .array items => .array (ofItems items)
  | .object members => .object (Members.ofPairs (ofMembers members))

/-- The values of the items of a JSON array. -/
def ofItems : List Json → List Value
  | [] => []
  | item :: rest => ofJson item :: ofItems rest

/-- The values of the members of a JSON object. -/
def ofMembers : List (String × Json) → List (String × Value)
  | [] => []
  | (name, value) :: rest => (name, ofJson value) :: ofMembers rest

end

mutual

/-- The JSON document of a value. -/
def toJson : Value → Json
  | .null => .null
  | .bool b => .bool b
  | .number x => .ofFloat x
  | .text s => .string s
  | .array items => .array (itemsToJson items)
  | .object members => .object (membersToJson members)

/-- The JSON documents of the items of an array. -/
def itemsToJson : List Value → List Json
  | [] => []
  | item :: rest => toJson item :: itemsToJson rest

/-- The JSON documents of the members of an object. -/
def membersToJson : List (String × Value) → List (String × Json)
  | [] => []
  | (name, value) :: rest => (name, toJson value) :: membersToJson rest

end

/-- Every JSON document is a value. -/
def ofJson? (j : Json) : Option Value :=
  some (ofJson j)

/-- The members of a JSON object as named values; no other document has any. -/
def membersOfJson? : Json → Option Members
  | .object members => some (Members.ofPairs (ofMembers members))
  | _ => none

mutual

/-- Every object inside the value gives each of its names once, and every number is finite. -/
def WellFormed : Value → Prop
  | .number x => x.isFinite = true
  | .array items => ItemsWellFormed items
  | .object members => (members.map Prod.fst).Nodup ∧ MembersWellFormed members
  | _ => True

/-- Every item is well formed. -/
def ItemsWellFormed : List Value → Prop
  | [] => True
  | item :: rest => item.WellFormed ∧ ItemsWellFormed rest

/-- Every named value is well formed. -/
def MembersWellFormed : List (String × Value) → Prop
  | [] => True
  | (_, value) :: rest => value.WellFormed ∧ MembersWellFormed rest

end

/-- The word for the kind of a value in messages. -/
def kind : Value → String
  | .null => "null"
  | .bool _ => "bool"
  | .number _ => "number"
  | .text _ => "string"
  | .array _ => "array"
  | .object _ => "object"

/-- Whether the value is `null`. -/
def isNull : Value → Bool
  | .null => true
  | _ => false

/-- The number a value is, or that its text spells between blanks. -/
def coerceNumber? : Value → Option Float
  | .number x => some x
  | .text s => Decimal.readList? (Text.trimList s.toList)
  | _ => none

/-- The word for a truth value. -/
def boolText (b : Bool) : String :=
  if b then "true" else "false"

/-- A value as text: scalars as in rule text but without quotes, anything else as compact JSON. -/
def display : Value → String
  | .null => "null"
  | .bool b => boolText b
  | .number x => Decimal.ruleText x
  | .text s => s
  | .array items => (toJson (.array items)).compact
  | .object members => (toJson (.object members)).compact

end Value

end ChargeScreening
