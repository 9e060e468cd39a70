import ChargeScreening.Json.Record
import ChargeScreening.Text.Blank

/-!
# Decisions

The verdict that a rule, a list entry, a component or a whole evaluation carries, and the error
for a word that names nothing.

## Main definitions

* `UnknownWord`: a word outside a fixed vocabulary
* `Decision`: accepted, declined or undecided
* `Decision.read`: the decision a word names
-/

namespace ChargeScreening

/-- A word outside one of the fixed vocabularies. -/
inductive UnknownWord where
  | decision (word : String)
  | operator (word : String)
  | mathOp (word : String)
  | connective (word : String)
  | component (word : String)
deriving DecidableEq, Repr

/-- The text of the error. -/
def UnknownWord.message : UnknownWord → String
  | .decision w => "Unknown decision: " ++ w
  | .operator w => "Unknown operator: " ++ w
  | .mathOp w => "Unknown math operation: " ++ w
  | .connective w => "Unknown condition: " ++ w
  | .component w => "Unknown console component: " ++ w

/-- The verdict on a charge. -/
inductive Decision where
  | accepted
  | declined
  | undecided
deriving DecidableEq, Repr, Inhabited

namespace Decision

/-- The canonical word. -/
def word : Decision → String
  | .accepted => "accepted"
  | .declined => "declined"
  | .undecided => "undecided"

/-- Whether the decision settles the charge. -/
def isDecisive (d : Decision) : Bool :=
  d != .undecided

/-- The decision a word names, in any case and between blanks. -/
def ofWord? (s : String) : Option Decision :=
  match Text.asciiLower (Text.trim s) with
  | "accepted" => some .accepted
  | "declined" => some .declined
  | "undecided" => some .undecided
  | _ => none

/-- The decision a word names, or the word as unknown. -/
def read (s : String) : Except UnknownWord Decision :=
  match ofWord? s with
  | some d => .ok d
  | none => .error (.decision s)

/-- The JSON form. -/
def toJson (d : Decision) : Json :=
  .string d.word

/-- The decision of a stored word: in lower case, in capitals, or with one capital in front. -/
def ofStored? : String → Option Decision
  | "accepted" | "Accepted" | "ACCEPTED" => some .accepted
  | "declined" | "Declined" | "DECLINED" => some .declined
  | "undecided" | "Undecided" | "UNDECIDED" => some .undecided
  | _ => none

/-- Reads the JSON form. -/
def ofJson? (j : Json) : Option Decision :=
  j.plainChoice?.bind ofStored?

@[simp] theorem ofJson?_toJson (d : Decision) : ofJson? d.toJson = some d := by
  cases d <;> rfl

end Decision

end ChargeScreening
