import ChargeScreening.Proofs.Expression.WellFormed
import ChargeScreening.Proofs.Json.Record
import Mathlib.Data.List.Nodup

/-!
# Values and literals read back

A value is written as the document that it looks like, and a literal as an object that names its
kind. Both are trees, so that both read back by induction on the tree. For a value this takes what
reading guarantees of every value: its numbers are finite, since no other number can be written, and
its objects name nothing twice, since reading keeps one value of each name.

## Main results

* `Members.ofPairs_of_nodup` — distinct names are all kept, in order
* `Value.ofJson_toJson` — a well-formed value reads back
* `Literal.ofJson?_toJson` — a literal with finite numbers reads back
-/

namespace ChargeScreening

/-! ### Members -/

namespace Members

theorem set_of_notMem {ms : Members} {name : String} (h : name ∉ ms.names) (value : Value) :
    ms.set name value = ms ++ [(name, value)] := by
  induction ms with
  | nil => rfl
  | cons m rest ih =>
    rw [names, List.map_cons, List.mem_cons, not_or] at h
    rw [set, if_neg (Ne.symm h.1), ih h.2, List.cons_append]

/-- Distinct names are all kept, in order. -/
theorem ofPairs_of_nodup {pairs : List (String × Value)} (h : (pairs.map Prod.fst).Nodup) :
    ofPairs pairs = pairs := by
  have hfold (rest : List (String × Value)) (ms : Members)
      (h : (ms.names ++ rest.map Prod.fst).Nodup) :
      rest.foldl (fun ms p => ms.set p.1 p.2) ms = ms ++ rest := by
    induction rest generalizing ms with
    | nil => exact (List.append_nil ms).symm
    | cons p rest ih =>
      have hnew : p.1 ∉ ms.names := fun hp => by
        exact (List.nodup_append.mp h).2.2 p.1 hp p.1 (List.mem_cons_self ..) rfl
      have hnames : (ms ++ [p]).names ++ rest.map Prod.fst
          = ms.names ++ (p :: rest).map Prod.fst := by
        rw [names, names, List.map_append, List.append_assoc]
        rfl
      rw [List.foldl_cons, set_of_notMem hnew, ih _ (hnames ▸ h), List.append_assoc]
      rfl
  exact hfold pairs [] h

end Members

/-! ### Values -/

namespace Value

mutual

/-- A well-formed value reads back. -/
theorem ofJson_toJson : (value : Value) → value.WellFormed → ofJson value.toJson = value
  | .null, _ => rfl
  | .bool _, _ => rfl
  | .text _, _ => rfl
  | .number x, h => by
    rw [WellFormed] at h
    rw [toJson, Json.ofFloat, if_pos h]
    rfl
  | .array items, h => by
    rw [WellFormed] at h
    rw [toJson, ofJson, ofItems_itemsToJson items h]
  | .object members, h => by
    rw [WellFormed] at h
    rw [toJson, ofJson, ofMembers_membersToJson members h.2, Members.ofPairs_of_nodup h.1]

theorem ofItems_itemsToJson :
    (items : List Value) → ItemsWellFormed items → ofItems (itemsToJson items) = items
  | [], _ => rfl
  | item :: rest, h => by
    rw [ItemsWellFormed] at h
    rw [itemsToJson, ofItems, ofJson_toJson item h.1, ofItems_itemsToJson rest h.2]

theorem ofMembers_membersToJson : (members : List (String × Value)) → MembersWellFormed members →
    ofMembers (membersToJson members) = members
  | [], _ => rfl
  | (name, value) :: rest, h => by
    rw [MembersWellFormed] at h
    rw [membersToJson, ofMembers, ofJson_toJson value h.1, ofMembers_membersToJson rest h.2]

end

theorem ofJson?_toJson {value : Value} (h : value.WellFormed) :
    ofJson? value.toJson = some value := by
  rw [ofJson?, ofJson_toJson value h]

/-- So do the members of an object. -/
theorem membersOfJson?_toJson {members : Members} (h : (Value.object members).WellFormed) :
    membersOfJson? (Value.object members).toJson = some members := by
  rw [WellFormed] at h
  rw [toJson, membersOfJson?, ofMembers_membersToJson members h.2, Members.ofPairs_of_nodup h.1]

end Value

/-! ### Literals -/

namespace Literal

mutual

/-- A literal with finite numbers reads back. -/
theorem ofJson?_toJson : (literal : Literal) → (∀ x ∈ literal.numbers, x.isFinite = true) →
    ofJson? literal.toJson = some literal
  | .text _, _ => rfl
  | .bool _, _ => rfl
  | .number x, h => by
    rw [numbers] at h
    rw [toJson, ofJson?, Json.double?_ofFloat (h x (List.mem_singleton_self x))]
    rfl
  | .list items, h => by
    rw [numbers] at h
    rw [toJson, ofJson?, itemsOfJson?_itemsToJson items h]
    rfl

theorem itemsOfJson?_itemsToJson : (items : List Literal) →
    (∀ x ∈ itemNumbers items, x.isFinite = true) →
      itemsOfJson? (itemsToJson items) = some items
  | [], _ => rfl
  | item :: rest, h => by
    rw [itemNumbers, List.forall_mem_append] at h
    rw [itemsToJson, itemsOfJson?, ofJson?_toJson item h.1, itemsOfJson?_itemsToJson rest h.2]
    rfl

end

end Literal

end ChargeScreening
