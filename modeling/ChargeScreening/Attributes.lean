import ChargeScreening.Value

/-!
# Attributes and dotted paths

The attributes a charge is screened on. A path names an attribute, or leads through objects: it is
cut at some of its dots into keys, each of which is looked up in the object that the ones before
it lead to.

## Main definitions

* `dotCuts`: the ways to cut a path in two at a dot, longest first part first
* `Members.resolve`: the value a path leads to
* `Attributes`: the attributes, with `Attributes.get?` and `Attributes.set`

## Main results

* `dotCuts_length_lt`: the second part of a cut is shorter than the path
-/

namespace ChargeScreening

/-- The ways to cut a path in two at a dot, which is left out. The longest first part comes
first. -/
def dotCuts : List Char → List (List Char × List Char)
  | [] => []
  | c :: cs =>
    let later := (dotCuts cs).map fun cut => (c :: cut.1, cut.2)
    if c = '.' then later ++ [([], cs)] else later

theorem dotCuts_length_lt {path : List Char} {cut : List Char × List Char}
    (h : cut ∈ dotCuts path) : cut.2.length < path.length := by
  induction path generalizing cut with
  | nil => simp [dotCuts] at h
  | cons c cs ih =>
    have later : ∀ cut ∈ (dotCuts cs).map (fun cut => (c :: cut.1, cut.2)),
        cut.2.length < (c :: cs).length := by
      intro cut hc
      obtain ⟨cut', hm, rfl⟩ := List.mem_map.1 hc
      have := ih hm
      simp only [List.length_cons]
      omega
    simp only [dotCuts] at h
    split at h
    · rcases List.mem_append.1 h with h | h
      · exact later cut h
      · rw [List.mem_singleton.1 h]
        simp
    · exact later cut h

/-- The value a path leads to. The whole path is tried as a key first; then it is cut at each of
its dots, from the last one on, and the rest is resolved inside the object under the first part.
A cut that leads nowhere gives way to the next. -/
def Members.resolve (ms : Members) (path : List Char) : Option Value :=
  match ms.get? (String.ofList path) with
  | some value => some value
  | none =>
    (dotCuts path).attach.findSome? fun cut =>
      match ms.get? (String.ofList cut.1.1) with
      | some (.object inner) => Members.resolve inner cut.1.2
      | _ => none
termination_by path.length
decreasing_by exact dotCuts_length_lt cut.2

/-- The attributes of a charge. -/
structure Attributes where
  members : Members := []
deriving Inhabited

namespace Attributes

/-- The value a dotted path leads to. -/
def get? (a : Attributes) (path : String) : Option Value :=
  a.members.resolve path.toList

/-- The attributes with a value put under a key. -/
def set (a : Attributes) (key : String) (value : Value) : Attributes :=
  ⟨a.members.set key value⟩

/-- The attributes with a value put under a key, if there is one. -/
def set? (a : Attributes) (key : String) : Option Value → Attributes
  | some value => a.set key value
  | none => a

/-- The attributes of a JSON document: the members of an object, and none of anything else. -/
def ofJson (j : Json) : Attributes :=
  match Value.ofJson j with
  | .object members => ⟨members⟩
  | _ => {}

/-- The JSON form. -/
def toJson (a : Attributes) : Json :=
  (Value.object a.members).toJson

end Attributes

end ChargeScreening
