import ChargeScreening.Decision

/-!
# The console

The ordered rule sources that a charge is screened by, each with the order in which conflicting
decisions win.

## Main definitions

* `ListKind`: white, black and gray lists
* `Component`: the nine rule sources
* `ConsoleEntry`: a source with its priority
* `Console`: the sequence of sources, with `Console.repeated?`
-/

namespace ChargeScreening

/-- The kinds of lists of known attribute values. -/
inductive ListKind where
  | white
  | black
  | gray
deriving DecidableEq, Repr, Inhabited

namespace ListKind

/-- The canonical word. -/
def word : ListKind → String
  | .white => "white"
  | .black => "black"
  | .gray => "gray"

/-- The kind a word names. -/
def ofWord? : String → Option ListKind
  | "white" => some .white
  | "black" => some .black
  | "gray" => some .gray
  | _ => none

/-- The JSON form. -/
def toJson (k : ListKind) : Json :=
  .string k.word

/-- Reads the JSON form. -/
def ofJson? (j : Json) : Option ListKind :=
  j.plainChoice?.bind ofWord?

@[simp] theorem ofJson?_toJson (k : ListKind) : ofJson? k.toJson = some k := by
  cases k <;> rfl

end ListKind

/-- The sources of rules and list entries that a console can consult. -/
inductive Component where
  | whitelist
  | blacklist
  | graylist
  | companyRules
  | familyCompanyRules
  | familyMccRules
  | globalRules
  | identityModule
  | yellowFlag
deriving DecidableEq, Repr, Inhabited

namespace Component

/-- All components, in the order of the default console. -/
def all : List Component :=
  [.whitelist, .blacklist, .graylist, .companyRules, .familyCompanyRules, .familyMccRules,
    .globalRules, .identityModule, .yellowFlag]

theorem mem_all (c : Component) : c ∈ all := by
  cases c <;> decide

/-- The canonical word. -/
def word : Component → String
  | .whitelist => "whitelist"
  | .blacklist => "blacklist"
  | .graylist => "graylist"
  | .companyRules => "company_rules"
  | .familyCompanyRules => "family_company_rules"
  | .familyMccRules => "family_mcc_rules"
  | .globalRules => "global_rules"
  | .identityModule => "identity_module"
  | .yellowFlag => "yellow_flag"

/-- The component with exactly this canonical word. -/
def ofWord? (s : String) : Option Component :=
  all.find? fun c => c.word == s

/-- The component a word names, in any case, between blanks, and with dashes or spaces for the
underscores. -/
def read (s : String) : Except UnknownWord Component :=
  let normal := (Text.asciiLower (Text.trim s)).toList.map fun c =>
    if c = '-' ∨ c = ' ' then '_' else c
  match ofWord? (String.ofList normal) with
  | some c => .ok c
  | none => .error (.component s)

/-- The JSON form. -/
def toJson (c : Component) : Json :=
  .string c.word

/-- Reads the JSON form. -/
def ofJson? (j : Json) : Option Component :=
  j.plainChoice?.bind ofWord?

@[simp] theorem ofJson?_toJson (c : Component) : ofJson? c.toJson = some c := by
  cases c <;> rfl

/-- The list a component draws its entries from; the rule components have none. -/
def listKind? : Component → Option ListKind
  | .whitelist => some .white
  | .blacklist => some .black
  | .graylist => some .gray
  | _ => none

/-- Whether candidates on trial have a decision of their own in the component. -/
def hasTestChannel : Component → Bool
  | .identityModule | .yellowFlag => false
  | _ => true

/-- The priority of a component whose console names none. -/
def defaultPriority : Component → List Decision
  | .whitelist => [.accepted]
  | .blacklist => [.declined]
  | .yellowFlag => [.undecided]
  | _ => [.declined, .accepted, .undecided]

end Component

/-- A rule source in a console. -/
structure ConsoleEntry where
  component : Component
  /-- Which of several matching decisions wins; the first one named does. -/
  priority : List Decision := []
deriving DecidableEq, Repr

namespace ConsoleEntry

/-- A component with its default priority. -/
def ofComponent (c : Component) : ConsoleEntry :=
  ⟨c, c.defaultPriority⟩

/-- The priority to apply: the default one stands in for an empty one. -/
def effectivePriority (e : ConsoleEntry) : List Decision :=
  if e.priority.isEmpty then e.component.defaultPriority else e.priority

/-- The JSON form. -/
def toJson (e : ConsoleEntry) : Json :=
  .object [("name", e.component.toJson), ("priority", .array (e.priority.map Decision.toJson))]

/-- Reads the JSON form. -/
def ofJson? (j : Json) : Option ConsoleEntry := do
  let r ← j.record? 2
  let component ← r.required? 0 ["name"] Component.ofJson?
  let priority ← r.withDefault? 1 ["priority"] [] (Json.list? Decision.ofJson?)
  return { component, priority }

end ConsoleEntry

/-- The first item of a list that is among those seen or stands before itself in the list. -/
def firstRepeat? {α : Type} [DecidableEq α] (seen : List α) : List α → Option α
  | [] => none
  | x :: rest => if x ∈ seen then some x else firstRepeat? (x :: seen) rest

/-- The rule sources a charge is screened by, in order. -/
structure Console where
  entries : List ConsoleEntry
deriving DecidableEq, Repr

namespace Console

/-- Every component once, each with its default priority. -/
def standard : Console :=
  ⟨Component.all.map ConsoleEntry.ofComponent⟩

/-- The components, in order. -/
def components (c : Console) : List Component :=
  c.entries.map ConsoleEntry.component

/-- The first component that the console names a second time. -/
def repeated? (c : Console) : Option Component :=
  firstRepeat? [] c.components

/-- The JSON form. -/
def toJson (c : Console) : Json :=
  .array (c.entries.map ConsoleEntry.toJson)

/-- Reads the JSON form. -/
def ofJson? (j : Json) : Option Console :=
  (Json.list? ConsoleEntry.ofJson? j).map Console.mk

end Console

end ChargeScreening
