import ChargeScreening.Json.Record

/-!
# Reading back what was written

An object is written from a row of members, some of which are left out when their value is missing.
A field is read from it by the names that it goes by. What it finds is worked out here for any such
row: each member either goes by one of the names or does not, whatever its value is.

## Main definitions

* `Json.under` — the values under some names, in a row of members
* `Json.once?`, `Json.orAbsent?`, `Json.unlessNull?` — reading a field from the values under its
  names
* `Json.Record.written` — the record that a row of members is read as

## Main results

* `required?_written`, `withDefault?_written`, `optional?_written` — what a field is read as
* `unlessNull?_map` — a value that is left out when it is missing reads back
* `list?_map` — an array whose every item reads back does so too
-/

namespace ChargeScreening.Json

/-! ### Members under a name -/

/-- The values under some names among the members that are present. -/
def under (names : List String) : List (Option (String × Json)) → List Json
  | [] => []
  | some (key, value) :: rest =>
    if names.contains key then value :: under names rest else under names rest
  | none :: rest => under names rest

/-- Reads a field from all values under its names, unless there are several. -/
def once? {α : Type} (read : Option Json → Option α) : List Json → Option α
  | [] => read none
  | [value] => read (some value)
  | _ => none

/-- The value of a field with a value of its own when it is absent. -/
def orAbsent? {α : Type} (absent : α) (decode : Json → Option α) : Option Json → Option α
  | none => some absent
  | some value => decode value

/-- The value of a field that may be absent or `null`. -/
def unlessNull? {α : Type} (decode : Json → Option α) : Option Json → Option (Option α)
  | none | some .null => some none
  | some value => (decode value).map some

section Under

variable {names : List String} {key : String} {rest : List (Option (String × Json))} {α : Type}

@[simp] theorem under_nil : under names [] = [] := rfl

@[simp] theorem under_some (value : Json) : under names (some (key, value) :: rest)
    = if names.contains key then value :: under names rest else under names rest := rfl

@[simp] theorem under_member (value : Json) : under names (member key value :: rest)
    = if names.contains key then value :: under names rest else under names rest := rfl

@[simp] theorem under_member? (value : Option α) (encode : α → Json) :
    under names (member? key value encode :: rest)
      = if names.contains key then (value.map encode).toList ++ under names rest
        else under names rest := by
  cases value with
  | none => exact (ite_self _).symm
  | some a => rfl

@[simp] theorem once?_singleton (read : Option Json → Option α) (value : Json) :
    once? read [value] = read (some value) := by
  rw [once?]

@[simp] theorem once?_toList (read : Option Json → Option α) (value : Option Json) :
    once? read value.toList = read value := by
  cases value <;> rw [Option.toList, once?]

@[simp] theorem orAbsent?_some (absent : α) (decode : Json → Option α) (value : Json) :
    orAbsent? absent decode (some value) = decode value := by
  rw [orAbsent?]

/-- A value that may be missing reads back if it does so when it is there, and is not written as
`null` then. -/
@[simp] theorem unlessNull?_map {decode : Json → Option α} {encode : α → Json} {value : Option α}
    (hnull : ∀ a, encode a ≠ .null) (hdecode : ∀ a, value = some a → decode (encode a) = some a) :
    unlessNull? decode (value.map encode) = some value := by
  cases value with
  | none => rfl
  | some a =>
    rw [Option.map_some, unlessNull?, hdecode a rfl]
    · rfl
    · exact hnull a

end Under

/-! ### Fields -/

namespace Record

/-- The record that a row of members is read as. -/
def written (members : List (Option (String × Json))) : Record :=
  .named (members.filterMap id)

variable {members : List (Option (String × Json))} {width place : Nat} {names : List String}
  {α : Type} {decode : Json → Option α}

@[simp] theorem record?_objectOf : (objectOf members).record? width = some (written members) := rfl

theorem named_eq_written (members : List (String × Json)) :
    named members = written (members.map some) := by
  rw [written, List.filterMap_map, Function.id_comp, List.filterMap_some]

@[simp] theorem record?_object (members : List (String × Json)) :
    (object members).record? width = some (written (members.map some)) := by
  rw [record?, named_eq_written]

theorem map_filter_filterMap (members : List (Option (String × Json))) (names : List String) :
    ((members.filterMap id).filter fun m => names.contains m.1).map Prod.snd
      = under names members := by
  induction members with
  | nil => rfl
  | cons m rest ih =>
    cases m with
    | none => exact ih
    | some m =>
      rw [List.filterMap_cons, id, List.filter_cons]
      split
      · next h => rw [List.map_cons, ih, under, if_pos h]
      · next h => rw [ih, under, if_neg h]

/-- A field finds the one value under its names. -/
theorem find?_written_bind (place : Nat) (read : Option Json → Option α) :
    ((written members).find? place names).bind read = once? read (under names members) := by
  rw [← map_filter_filterMap, written, find?]
  cases (members.filterMap id).filter fun m => names.contains m.1 with
  | nil => rfl
  | cons m rest =>
    cases rest with
    | nil => rfl
    | cons m' rest => rfl

@[simp] theorem required?_written : (written members).required? place names decode
    = once? (fun found => found.bind decode) (under names members) :=
  find?_written_bind place _

@[simp] theorem withDefault?_written (absent : α) :
    (written members).withDefault? place names absent decode
      = once? (orAbsent? absent decode) (under names members) := by
  rw [← find?_written_bind place, withDefault?]
  refine Option.bind_congr fun found _ => ?_
  cases found <;> rfl

@[simp] theorem optional?_written : (written members).optional? place names decode
    = once? (unlessNull? decode) (under names members) := by
  rw [← find?_written_bind place, optional?]
  refine Option.bind_congr fun found _ => ?_
  cases found with
  | none => rfl
  | some value => cases value <;> rfl

/-- An object need not give a field that may be `null`. -/
@[simp] theorem nullable?_written : (written members).nullable? place names decode
    = once? (unlessNull? decode) (under names members) :=
  optional?_written

end Record

/-! ### Values -/

@[simp] theorem text?_string (s : String) : (string s).text? = some s := by
  rw [text?]

@[simp] theorem flag?_bool (b : Bool) : (bool b).flag? = some b := by
  rw [flag?]

theorem double?_ofFloat {x : Float} (h : x.isFinite = true) : (ofFloat x).double? = some x := by
  rw [ofFloat, if_pos h]
  rfl

theorem natBelow?_ofNat {n bound : Nat} (h : n < bound) : (ofNat n).natBelow? bound = some n := by
  rw [ofNat, natBelow?, if_pos ⟨Int.natCast_nonneg n, Int.ofNat_lt.mpr h⟩, Int.toNat_natCast]

/-- An array reads back if each of its items does. -/
theorem list?_map {α : Type} {encode : α → Json} {decode : Json → Option α} {items : List α}
    (h : ∀ a ∈ items, decode (encode a) = some a) :
    list? decode (.array (items.map encode)) = some items := by
  rw [list?]
  induction items with
  | nil => rfl
  | cons a rest ih =>
    obtain ⟨ha, hrest⟩ := List.forall_mem_cons.mp h
    rw [List.map_cons, List.mapM_cons, ha, ih hrest]
    rfl

end ChargeScreening.Json
