import ChargeScreening.Yaml.Basic

/-!
# Values of an expected kind

Where a record says what kind of value it expects, that kind decides how a scalar is understood:
`555` is a text where a text is expected. The forms below turn a YAML value of an expected kind
into the JSON document that records are read from.

## Main definitions

* `Yaml.textForm?`, `Yaml.optionalTextForm?`, `Yaml.flagForm?`: scalars
* `Yaml.listForm?`, `Yaml.mapForm?`, `Yaml.tableForm?`: collections
-/

namespace ChargeScreening.Yaml

/-- Where a text is expected, every scalar is its own text. -/
def textForm? : Yaml → Option Json
  | .scalar s => some (.string s.text)
  | _ => none

/-- Where a text may be missing, a scalar that stands for nothing is missing. -/
def optionalTextForm? : Yaml → Option Json
  | .scalar s => some (if s.isNull then .null else .string s.text)
  | _ => none

/-- Where a truth value is expected, only the words for it will do. -/
def flagForm? : Yaml → Option Json
  | .scalar s => s.flag?.map .bool
  | _ => none

/-- Whether nothing is written where a collection is expected, which makes it an empty one. -/
def isAbsent : Yaml → Bool
  | .scalar s => s.isPlain && s.text.isEmpty
  | _ => false

/-- A list whose items have a form. -/
def listForm? (form : Yaml → Option Json) (y : Yaml) : Option Json :=
  match y with
  | .list items => (items.mapM form).map .array
  | _ => if y.isAbsent then some (.array []) else none

/-- The members of a map. Those whose keys have no form are left out. -/
def membersForm? (form : String → Option (Yaml → Option Json)) :
    List (Scalar × Yaml) → Option (List (String × Json))
  | [] => some []
  | (key, value) :: rest =>
    match form key.text with
    | none => membersForm? form rest
    | some valueForm => do
      let value ← valueForm value
      let rest ← membersForm? form rest
      return (key.text, value) :: rest

/-- A record with a form for each of its fields. -/
def mapForm? (form : String → Option (Yaml → Option Json)) (y : Yaml) : Option Json :=
  match y with
  | .map members => (membersForm? form members).map .object
  | _ => if y.isAbsent then some (.object []) else none

/-- A map with any keys, whose values have a form. -/
def tableForm? (form : Yaml → Option Json) : Yaml → Option Json :=
  mapForm? fun _ => some form

end ChargeScreening.Yaml
