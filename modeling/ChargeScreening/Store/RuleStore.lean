import ChargeScreening.Rule.Selection
import ChargeScreening.Store.Error

/-!
# The store of rules

Rules are kept in the order of their ids, each id once. A rule is refused when a rule of another id
has its scope and its text.

## Main definitions

* `RuleStore`: rules in the order of their ids
* `RuleStore.get?`: the rule of an id, the view through which the operations are described
* `RuleStore.put`, `RuleStore.erase`: storing and removing without any check
* `RuleStore.rival?`: the rule whose scope and text a rule repeats
* `RuleStore.insert`, `RuleStore.update`, `RuleStore.delete`: the checked operations

## Main results

* `RuleStore.get?_put`, `RuleStore.get?_erase`: what is kept under every id afterwards
* `RuleStore.mem_rules_iff`: a stored rule is the one kept under its own id

## Implementation notes

A sorted list is the plainest container whose order is the order of answers. Its sortedness is a
field of the store, so that the rule of an id is unique without a word in any theorem.
-/

namespace ChargeScreening

/-- The rules that are kept. -/
structure RuleStore where
  rules : List Rule := []
  /-- The ids ascend, so that none occurs twice. -/
  ordered : rules.Pairwise fun r s => r.id < s.id := by simp

namespace RuleStore

/-- The store without rules. -/
def empty : RuleStore where

/-- The rule kept under an id. -/
def get? (s : RuleStore) (id : String) : Option Rule :=
  s.rules.find? fun r => r.id == id

/-- The rules that answer a query, in the order of their ids. -/
def find (s : RuleStore) (q : Selection) : List Rule :=
  s.rules.filter q.selects

/-! ### Storing and removing -/

/-- Puts a rule where its id belongs, in place of a rule of the same id. -/
def place (r : Rule) : List Rule → List Rule
  | [] => [r]
  | s :: rest =>
    if r.id < s.id then r :: s :: rest
    else if r.id = s.id then r :: rest
    else s :: place r rest

theorem mem_place_imp {r t : Rule} {rules : List Rule} (h : t ∈ place r rules) :
    t = r ∨ t ∈ rules := by
  induction rules with
  | nil => simpa [place] using h
  | cons s rest ih =>
    unfold place at h
    grind

theorem ordered_place (r : Rule) {rules : List Rule}
    (h : rules.Pairwise fun r s => r.id < s.id) :
    (place r rules).Pairwise fun r s => r.id < s.id := by
  induction rules with
  | nil => simp [place]
  | cons s rest ih =>
    obtain ⟨hs, hrest⟩ := List.pairwise_cons.1 h
    unfold place
    split
    · next hlt =>
      refine List.pairwise_cons.2 ⟨fun t ht => ?_, h⟩
      rcases List.mem_cons.1 ht with rfl | ht
      · exact hlt
      · exact String.lt_trans hlt (hs t ht)
    · next hnot =>
      split
      · next heq => exact List.pairwise_cons.2 ⟨fun t ht => heq ▸ hs t ht, hrest⟩
      · next hne =>
        refine List.pairwise_cons.2 ⟨fun t ht => ?_, ih hrest⟩
        rcases mem_place_imp ht with rfl | ht
        · exact Std.lt_of_le_of_ne (String.not_lt.1 hnot) (Ne.symm hne)
        · exact hs t ht

/-- Keeps a rule under its id, in place of any other. -/
def put (s : RuleStore) (r : Rule) : RuleStore :=
  ⟨place r s.rules, ordered_place r s.ordered⟩

/-- Removes what is kept under an id. -/
def erase (s : RuleStore) (id : String) : RuleStore :=
  ⟨s.rules.filter fun r => r.id != id, s.ordered.filter _⟩

/-! ### The view through ids -/

@[simp] theorem get?_empty (id : String) : empty.get? id = none := rfl

theorem id_eq_of_get? {s : RuleStore} {id : String} {r : Rule} (h : s.get? id = some r) :
    r.id = id := by
  simpa using List.find?_some h

theorem mem_of_get? {s : RuleStore} {id : String} {r : Rule} (h : s.get? id = some r) :
    r ∈ s.rules :=
  List.mem_of_find?_eq_some h

/-- A stored rule is the one kept under its own id. -/
theorem mem_rules_iff (s : RuleStore) (r : Rule) : r ∈ s.rules ↔ s.get? r.id = some r := by
  obtain ⟨rules, ordered⟩ := s
  refine ⟨fun h => ?_, mem_of_get?⟩
  unfold get?
  induction rules with
  | nil => simp at h
  | cons t rest ih =>
    obtain ⟨ht, hrest⟩ := List.pairwise_cons.1 ordered
    rcases List.mem_cons.1 h with rfl | h
    · simp
    · have hne : t.id ≠ r.id := fun heq => String.lt_irrefl _ (heq ▸ ht r h)
      simpa [List.find?_cons, hne] using ih hrest h

theorem find?_place (r : Rule) (id : String) {rules : List Rule}
    (h : rules.Pairwise fun r s => r.id < s.id) :
    (place r rules).find? (fun t => t.id == id)
      = if r.id = id then some r else rules.find? fun t => t.id == id := by
  induction rules with
  | nil => by_cases hid : r.id = id <;> simp [place, hid]
  | cons s rest ih =>
    obtain ⟨-, hrest⟩ := List.pairwise_cons.1 h
    unfold place
    grind

/-- Storing a rule changes what is kept under its id and nothing else. -/
theorem get?_put (s : RuleStore) (r : Rule) (id : String) :
    (s.put r).get? id = if r.id = id then some r else s.get? id :=
  find?_place r id s.ordered

/-- Removing an id changes what is kept under it and nothing else. -/
theorem get?_erase (s : RuleStore) (id other : String) :
    (s.erase id).get? other = if other = id then none else s.get? other := by
  simp only [get?, erase]
  induction s.rules with
  | nil => simp
  | cons t rest ih => grind

/-! ### The checked operations -/

/-- The first rule of another id with the scope and the text of a rule. -/
def rival? (s : RuleStore) (r : Rule) : Option Rule :=
  s.rules.find? fun t => t.id != r.id && t.scope == r.scope && t.text == r.text

/-- Keeps a new rule. Its id has to be free, and no other rule may have its scope and text. -/
def insert (s : RuleStore) (r : Rule) : Except StoreError RuleStore :=
  match s.get? r.id with
  | some _ => .error (.conflict r.id)
  | none =>
    match s.rival? r with
    | some t => .error (.conflict t.id)
    | none => .ok (s.put r)

/-- Replaces the rule of an id. The id has to be taken, and no other rule may have the scope and
the text of the new one. -/
def update (s : RuleStore) (r : Rule) : Except StoreError RuleStore :=
  match s.get? r.id with
  | none => .error (.notFound r.id)
  | some _ =>
    match s.rival? r with
    | some t => .error (.conflict t.id)
    | none => .ok (s.put r)

/-- Removes the rule of an id, which has to be taken. -/
def delete (s : RuleStore) (id : String) : Except StoreError RuleStore :=
  match s.get? id with
  | none => .error (.notFound id)
  | some _ => .ok (s.erase id)

end RuleStore

end ChargeScreening
