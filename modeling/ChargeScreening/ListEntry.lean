import ChargeScreening.Attributes
import ChargeScreening.Console
import ChargeScreening.Evaluation.Basic
import ChargeScreening.Scope

/-!
# List entries

White, black and gray list entries match one attribute against one text. They are fetched by the
charge's search keys and then checked like a clause `field eq "value"`.

## Main definitions

* `ListEntry`: an entry
* `SearchKeys`: the fields of a charge that entries can be keyed on, with their texts
* `searchKeys`: the search keys of attributes
* `ListEntry.matches`: whether an entry matches
-/

namespace ChargeScreening

/-- An entry of a list. -/
structure ListEntry where
  id : String
  kind : ListKind
  /-- The path of the attribute it is keyed on. -/
  field : String
  value : String
  decision : Decision
  scope : Scope := .global
  isTest : Bool := false
deriving DecidableEq, Repr

namespace ListEntry

/-- The JSON form. -/
def toJson (e : ListEntry) : Json :=
  .object [("id", .string e.id), ("type", e.kind.toJson), ("field", .string e.field),
    ("value", .string e.value), ("decision", e.decision.toJson), ("scope", e.scope.toJson),
    ("is_test", .bool e.isTest)]

/-- Reads the JSON form. -/
def ofJson? (j : Json) : Option ListEntry := do
  let r ← j.record? 7
  let id ← r.required? 0 ["id"] Json.text?
  let kind ← r.required? 1 ["type"] ListKind.ofJson?
  let field ← r.required? 2 ["field"] Json.text?
  let value ← r.required? 3 ["value"] Json.text?
  let decision ← r.required? 4 ["decision"] Decision.ofJson?
  let scope ← r.withDefault? 5 ["scope"] .global Scope.ofJson?
  let isTest ← r.withDefault? 6 ["is_test"] false Json.flag?
  return { id, kind, field, value, decision, scope, isTest }

end ListEntry

/-- The attribute paths that entries are searched by. -/
def searchableFields : List String :=
  ["payer.email", "payment_method.card_hash", "payer.phone", "company_id"]

/-- Fields with their texts. -/
abbrev SearchKeys := List (String × String)

/-- Whether an entry is keyed on one of the pairs. -/
def SearchKeys.covers (keys : SearchKeys) (e : ListEntry) : Bool :=
  keys.contains (e.field, e.value)

/-- The text by which an attribute is searched: a text that is not empty, or a number. -/
def Value.searchText? : Value → Option String
  | .text s => if s.isEmpty then none else some s
  | .number x => some (Decimal.ruleText x)
  | _ => none

/-- The search keys of attributes, in the order of the searchable fields. -/
def searchKeys (a : Attributes) : SearchKeys :=
  searchableFields.filterMap fun field =>
    ((a.get? field).bind Value.searchText?).map fun text => (field, text)

/-- The clause an entry stands for. -/
def ListEntry.clause (e : ListEntry) : Clause :=
  ⟨false, .field e.field, .eq, .text e.value, none⟩

/-- Whether an entry matches the attributes. -/
def ListEntry.matches (e : ListEntry) (a : Attributes) : Except EvalError Bool :=
  e.clause.eval a

end ChargeScreening
