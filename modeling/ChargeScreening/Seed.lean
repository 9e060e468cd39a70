import ChargeScreening.ListEntry
import ChargeScreening.Rule.Draft
import ChargeScreening.Yaml.Form
import ChargeScreening.Yaml.Reader

/-!
# Start-up data

Rules, list entries and family memberships, written as a YAML document with the three sections
`rules`, `lists` and `families`, each of which may be left out. Rules are given as authors submit
them and still have to be checked.

## Main definitions

* `SeedData`: the start-up data
* `SeedData.parse?`: reading it
-/

namespace ChargeScreening

/-- Start-up data. -/
structure SeedData where
  rules : List PinnedDraft := []
  lists : List ListEntry := []
  /-- The groupings of companies, each company once. -/
  families : List (String × FamilyMembership) := []

namespace SeedData

/-- The members of a scope. What an `id` is depends on the `type` before it: the global scope has
none, any other a text. An `id` in front of the type is understood for what it looks like. -/
def scopeMembers? : Option String → List (Yaml.Scalar × Yaml) → Option (List (String × Json))
  | _, [] => some []
  | type, (key, value) :: rest => do
    match key.text with
    | "type" =>
      let .string word ← value.textForm? | none
      let rest ← scopeMembers? (some word) rest
      return ("type", .string word) :: rest
    | "id" =>
      let id ← match type with
        | none | some "global" => value.toJson?
        | some _ => value.textForm?
      let rest ← scopeMembers? type rest
      return ("id", id) :: rest
    | _ => scopeMembers? type rest

/-- A scope. -/
def scopeForm? : Yaml → Option Json
  | .map members => (scopeMembers? none members).map .object
  | _ => none

/-- A list entry. -/
def entryForm? : Yaml → Option Json :=
  Yaml.mapForm? fun
    | "id" | "type" | "field" | "value" | "decision" => some Yaml.textForm?
    | "scope" => some scopeForm?
    | "is_test" => some Yaml.flagForm?
    | _ => none

/-- The groupings of a company. -/
def membershipForm? : Yaml → Option Json :=
  Yaml.mapForm? fun
    | "family_id" => some Yaml.optionalTextForm?
    | "family_company_ids" => some (Yaml.listForm? Yaml.textForm?)
    | _ => none

/-- A rule. Everything but its id is understood for what it looks like. -/
def ruleForm? : Yaml → Option Json :=
  Yaml.mapForm? fun
    | "id" => some Yaml.optionalTextForm?
    | _ => some Yaml.toJson?

/-- A whole document. -/
def form? : Yaml → Option Json :=
  Yaml.mapForm? fun
    | "rules" => some (Yaml.listForm? ruleForm?)
    | "lists" => some (Yaml.listForm? entryForm?)
    | "families" => some (Yaml.tableForm? membershipForm?)
    | _ => none

/-- The groupings by company. Of several entries for a company the last one counts. -/
def families? : Json → Option (List (String × FamilyMembership))
  | .object members => do
    let all ← members.mapM fun m => (FamilyMembership.ofJson? m.2).map fun value => (m.1, value)
    return all.foldl (fun kept p => kept.filter (fun q => q.1 != p.1) ++ [p]) []
  | _ => none

/-- Reads start-up data from a document. -/
def ofYaml? (y : Yaml) : Option SeedData := do
  let .object members ← form? y | none
  let r := Json.Record.named members
  let rules ← r.withDefault? 0 ["rules"] [] (Json.list? PinnedDraft.ofJson?)
  let lists ← r.withDefault? 1 ["lists"] [] (Json.list? ListEntry.ofJson?)
  let families ← r.withDefault? 2 ["families"] [] families?
  return { rules, lists, families }

/-- Reads start-up data from a text. -/
def parse? (text : String) : Option SeedData :=
  (Yaml.parse? text).bind ofYaml?

end SeedData

end ChargeScreening
