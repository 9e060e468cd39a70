import ChargeScreening.Proofs.Expression.WellFormed
import ChargeScreening.Rule.Compilation
import Mathlib.Data.List.Forall2

/-!
# What compilation yields

A compiled clause is made from one clause of the author: its literal fits its operator, its numbers
are numbers of the author's value, and its operand names the author's paths without the blanks
around them.

## Main definitions

* `Value.numbers` — the numbers in a value
* `DraftClause.namesWords` — whether the paths of an author's clause are words

## Main results

* `compileClause_spec` — what one clause has from the author's
* `exists_compiled_of_mem`, `exists_compiled_clause_of_mem` — which clauses an expression is made
  from
-/

namespace ChargeScreening

/-! ### Values -/

mutual

/-- The numbers in a value. -/
def Value.numbers : Value → List Float
  | .number x => [x]
  | .array items => Value.itemNumbers items
  | .object members => Value.memberNumbers members
  | _ => []

/-- The numbers in the items of an array. -/
def Value.itemNumbers : List Value → List Float
  | [] => []
  | item :: rest => item.numbers ++ Value.itemNumbers rest

/-- The numbers in the named values of an object. -/
def Value.memberNumbers : List (String × Value) → List Float
  | [] => []
  | (_, value) :: rest => value.numbers ++ Value.memberNumbers rest

end

theorem scalarLiteral?_spec {readsBools : Bool} {value : Value} {literal : Literal}
    (h : scalarLiteral? readsBools value = some literal) :
    literal.isScalar = true ∧ ∀ x ∈ literal.numbers, x ∈ value.numbers := by
  cases value with
  | text s =>
    simp only [scalarLiteral?] at h
    split at h
    · cases h
      exact ⟨rfl, nofun⟩
    · split at h
      · cases h
        exact ⟨rfl, nofun⟩
      · cases h
        exact ⟨rfl, nofun⟩
  | number x =>
    cases h
    exact ⟨rfl, fun y hy => hy⟩
  | bool b =>
    cases h
    exact ⟨rfl, nofun⟩
  | null => cases h
  | array items => cases h
  | object members => cases h

theorem mapM_scalarLiteral?_spec {readsBools : Bool} {items : List Value}
    {literals : List Literal} (h : items.mapM (scalarLiteral? readsBools) = some literals) :
    literals.all Literal.isScalar = true
      ∧ ∀ x ∈ Literal.itemNumbers literals, x ∈ Value.itemNumbers items := by
  induction items generalizing literals with
  | nil =>
    cases h
    exact ⟨rfl, nofun⟩
  | cons item items ih =>
    rw [List.mapM_cons] at h
    obtain ⟨literal, hliteral, h⟩ := Option.bind_eq_some_iff.mp h
    obtain ⟨rest, hrest, h⟩ := Option.bind_eq_some_iff.mp h
    cases h
    obtain ⟨hscalar, hnumbers⟩ := scalarLiteral?_spec hliteral
    obtain ⟨hscalars, hothers⟩ := ih hrest
    refine ⟨by rw [List.all_cons, hscalar, hscalars]; rfl, fun x hx => ?_⟩
    rw [Literal.itemNumbers, List.mem_append] at hx
    rw [Value.itemNumbers, List.mem_append]
    exact hx.imp (hnumbers x) (hothers x)

/-- The literal of a value is a scalar or a list of scalars. -/
theorem valueLiteral?_spec {readsBools : Bool} {value : Value} {literal : Literal}
    (h : valueLiteral? readsBools value = some literal) :
    (literal.isScalar = true ∨ ∃ items, literal = .list items ∧ items.all Literal.isScalar = true)
      ∧ ∀ x ∈ literal.numbers, x ∈ value.numbers := by
  unfold valueLiteral? at h
  split at h
  · obtain ⟨literals, hliterals, hlist⟩ := Option.map_eq_some_iff.mp h
    obtain ⟨hscalars, hnumbers⟩ := mapM_scalarLiteral?_spec hliterals
    rw [← hlist]
    exact ⟨.inr ⟨literals, rfl, hscalars⟩, hnumbers⟩
  · obtain ⟨hscalar, hnumbers⟩ := scalarLiteral?_spec h
    exact ⟨.inl hscalar, hnumbers⟩

/-- A list behind `in` is taken as it is. -/
theorem fits_list {items : List Literal} (hne : items.isEmpty = false)
    (hscalars : items.all Literal.isScalar = true) : (Literal.list items).fits .isIn = true := by
  rw [Literal.fits, hne, hscalars]
  rfl

/-- A compiled value fits its operator, and its numbers are those of the author's value. -/
theorem compileValue_spec {place : Nat} {op : Operator} {value : Value} {literal : Literal}
    (h : compileValue place op value = .ok literal) :
    literal.fits op = true ∧ ∀ x ∈ literal.numbers, x ∈ value.numbers := by
  rw [compileValue] at h
  split at h
  · cases h
  · next read hread =>
    obtain ⟨hshape, hnumbers⟩ := valueLiteral?_spec hread
    split at h
    · next items =>
      split at h
      · cases h
      · next hne =>
        cases h
        obtain hscalar | ⟨items', hitems, hscalars⟩ := hshape
        · cases hscalar
        · cases hitems
          exact ⟨fits_list (Bool.eq_false_iff.mpr hne) hscalars, hnumbers⟩
    · next hlist =>
      cases h
      obtain hscalar | ⟨items, hitems, -⟩ := hshape
      · refine ⟨fits_list rfl (by rw [List.all_cons, hscalar]; rfl), fun x hx => hnumbers x ?_⟩
        rwa [Literal.numbers, Literal.itemNumbers, Literal.itemNumbers, List.append_nil] at hx
      · exact absurd hitems (hlist items)
    · cases h
    · next hop hlist _ =>
      cases h
      obtain hscalar | ⟨items, hitems, -⟩ := hshape
      · exact ⟨fits_of_isScalar hscalar hop, hnumbers⟩
      · exact absurd hitems (hlist items)

/-! ### Clauses -/

/-- Whether the paths that a clause names are words, so that each is read back as one token. -/
def DraftClause.namesWords (c : DraftClause) : Bool :=
  (c.presentField?.all fun f => isWord f && (c.negated || Text.asciiLower f != "not"))
    && (c.formulaFields.getD []).all fun f => isWord (Text.trim f)

/-- Without a formula there are no formula fields that could be read. -/
theorem formulaFields_of_not_isFormula {draft : DraftClause} (h : draft.isFormula = false) :
    draft.formulaFields.getD [] = [] := by
  cases hfields : draft.formulaFields with
  | none => rfl
  | some fs =>
    rw [DraftClause.isFormula, Bool.or_eq_false_iff, hfields, Option.any_some] at h
    exact List.isEmpty_iff.mp (by simpa using h.1)

/-- The operand of a clause is worded just if the paths of the clause are words, and it has no
numbers. -/
theorem operand_spec {place : Nat} {draft : DraftClause} {operand : Operand}
    (h : draft.operand place = .ok operand) :
    operand.isWorded draft.negated = draft.namesWords ∧ operand.numbers = [] := by
  rw [DraftClause.operand] at h
  split at h
  · next field hfield hformula =>
    cases h
    refine ⟨?_, rfl⟩
    rw [DraftClause.namesWords, hfield, formulaFields_of_not_isFormula hformula, Option.all_some,
      List.all_nil, Bool.and_true]
    rfl
  · next hfield hformula =>
    simp only at h
    split at h
    · next op hop =>
      cases h
      refine ⟨?_, ?_⟩
      · rw [DraftClause.namesWords, hfield, Option.all_none, Bool.true_and, Operand.isWorded,
          List.all_map]
        rfl
      · rw [Operand.numbers, List.flatMap_map]
        exact List.flatMap_eq_nil_iff.mpr fun _ _ => rfl
    · cases h
  · cases h
  · cases h

/-- The operand of a compiled clause is that of the author's. -/
theorem operand_of_compileClause {place : Nat} {draft : DraftClause} {c : Clause}
    (h : compileClause place draft = .ok c) : draft.operand place = .ok c.operand := by
  rw [compileClause] at h
  split at h
  · cases h
  · next operand hoperand =>
    cases hvalue : compileValue place draft.operator draft.value with
    | error e =>
      rw [hvalue] at h
      cases h
    | ok value =>
      rw [hvalue] at h
      cases h
      exact hoperand

/-- What a compiled clause has from the clause it is made of. -/
structure CompiledFrom (draft : DraftClause) (c : Clause) : Prop where
  /-- It is as worded as the author's paths are. -/
  worded : c.operand.isWorded c.negated = draft.namesWords
  fitting : c.value.fits c.operator = true
  /-- It adds no number. -/
  numbers : ∀ x ∈ c.numbers, x ∈ draft.value.numbers

theorem compileClause_spec {place : Nat} {draft : DraftClause} {c : Clause}
    (h : compileClause place draft = .ok c) : CompiledFrom draft c := by
  rw [compileClause] at h
  split at h
  · cases h
  · next operand hoperand =>
    obtain ⟨hworded, hnone⟩ := operand_spec hoperand
    cases hvalue : compileValue place draft.operator draft.value with
    | error e =>
      rw [hvalue] at h
      cases h
    | ok value =>
      obtain ⟨hfits, hnumbers⟩ := compileValue_spec hvalue
      rw [hvalue] at h
      cases h
      refine ⟨hworded, hfits, fun x hx => hnumbers x ?_⟩
      rwa [Clause.numbers, hnone, List.nil_append] at hx

/-! ### Expressions -/

/-- Each clause is compiled on its own, in its place. -/
theorem forall₂_of_compileClauses {placed : List (DraftClause × Nat)} {cs : List Clause}
    (h : compileClauses placed = .ok cs) :
    List.Forall₂ (fun p c => compileClause p.2 p.1 = .ok c) placed cs := by
  induction placed generalizing cs with
  | nil =>
    cases h
    exact .nil
  | cons p placed ih =>
    rw [compileClauses] at h
    split at h
    · cases h
    · next c hc =>
      cases hrest : compileClauses placed with
      | error e =>
        rw [hrest] at h
        cases h
      | ok rest =>
        rw [hrest] at h
        cases h
        exact .cons hc (ih hrest)

/-- Putting the formulas in front loses no clause and adds none. -/
theorem mem_formulasFirst_iff {clauses : List DraftClause} {p : DraftClause × Nat} :
    p ∈ formulasFirst clauses ↔ p ∈ clauses.zipIdx := by
  rw [formulasFirst, List.mem_append, List.mem_filter, List.mem_filter]
  cases p.1.isFormula <;> simp

theorem compileExpression_eq_ok_iff {clauses : List DraftClause} {e : Expression} :
    compileExpression clauses = .ok e
      ↔ clauses ≠ [] ∧ compileClauses (formulasFirst clauses) = .ok e.clauses := by
  rw [compileExpression]
  split
  · next hnil => exact ⟨nofun, fun h => absurd (List.isEmpty_iff.mp hnil) h.1⟩
  · next hne =>
    cases compileClauses (formulasFirst clauses) with
    | error err => exact ⟨nofun, nofun⟩
    | ok cs =>
      constructor
      · intro h
        cases h
        exact ⟨fun hnil => hne (List.isEmpty_iff.mpr hnil), rfl⟩
      · rintro ⟨-, h⟩
        cases h
        rfl

theorem compileExpression_spec {clauses : List DraftClause} {e : Expression}
    (h : compileExpression clauses = .ok e) :
    e.clauses ≠ [] ∧ List.Forall₂ (fun p c => CompiledFrom p.1 c) (formulasFirst clauses) e.clauses
      := by
  obtain ⟨hne, hcompiled⟩ := compileExpression_eq_ok_iff.mp h
  have hall := forall₂_of_compileClauses hcompiled
  refine ⟨fun hnil => ?_, hall.imp fun _ _ hc => compileClause_spec hc⟩
  rw [hnil] at hall
  obtain ⟨first, rest, rfl⟩ := List.exists_cons_of_ne_nil hne
  have hmem : (first, 0) ∈ formulasFirst (first :: rest) := by
    rw [mem_formulasFirst_iff, List.zipIdx_cons]
    exact List.mem_cons_self ..
  rw [List.forall₂_nil_right_iff.mp hall] at hmem
  cases hmem

theorem exists_of_mem_of_forall₂ {α β : Type} {R : α → β → Prop} {xs : List α} {ys : List β}
    (h : List.Forall₂ R xs ys) {x : α} (hx : x ∈ xs) : ∃ y ∈ ys, R x y := by
  induction h with
  | nil => cases hx
  | cons hxy _ ih =>
    rcases List.mem_cons.mp hx with rfl | hx
    · exact ⟨_, List.mem_cons_self .., hxy⟩
    · obtain ⟨y, hy, hxy⟩ := ih hx
      exact ⟨y, List.mem_cons_of_mem _ hy, hxy⟩

/-- Every clause of an expression is compiled from one of the author's. -/
theorem exists_compiled_of_mem {clauses : List DraftClause} {e : Expression}
    (h : compileExpression clauses = .ok e) {c : Clause} (hc : c ∈ e.clauses) :
    ∃ draft ∈ clauses, ∃ place, compileClause place draft = .ok c := by
  have hall := forall₂_of_compileClauses (compileExpression_eq_ok_iff.mp h).2
  obtain ⟨p, hp, hcompiled⟩ := exists_of_mem_of_forall₂ hall.flip hc
  exact ⟨p.1, List.fst_mem_of_mem_zipIdx (mem_formulasFirst_iff.mp hp), p.2, hcompiled⟩

/-- Every clause of the author is compiled to one of the expression. -/
theorem exists_compiled_clause_of_mem {clauses : List DraftClause} {e : Expression}
    (h : compileExpression clauses = .ok e) {draft : DraftClause} (hdraft : draft ∈ clauses) :
    ∃ c ∈ e.clauses, ∃ place, compileClause place draft = .ok c := by
  have hall := forall₂_of_compileClauses (compileExpression_eq_ok_iff.mp h).2
  obtain ⟨i, hi⟩ := List.mem_iff_getElem?.mp hdraft
  have hplaced : (draft, i) ∈ formulasFirst clauses :=
    mem_formulasFirst_iff.mpr (List.mk_mem_zipIdx_iff_getElem?.mpr hi)
  obtain ⟨c, hc, hcompiled⟩ := exists_of_mem_of_forall₂ hall hplaced
  exact ⟨c, hc, i, hcompiled⟩

theorem exists_draft_of_mem {clauses : List DraftClause} {e : Expression}
    (h : compileExpression clauses = .ok e) {c : Clause} (hc : c ∈ e.clauses) :
    ∃ draft ∈ clauses, CompiledFrom draft c := by
  obtain ⟨draft, hdraft, place, hcompiled⟩ := exists_compiled_of_mem h hc
  exact ⟨draft, hdraft, compileClause_spec hcompiled⟩

theorem exists_clause_of_mem {clauses : List DraftClause} {e : Expression}
    (h : compileExpression clauses = .ok e) {draft : DraftClause} (hdraft : draft ∈ clauses) :
    ∃ c ∈ e.clauses, CompiledFrom draft c := by
  obtain ⟨c, hc, place, hcompiled⟩ := exists_compiled_clause_of_mem h hdraft
  exact ⟨c, hc, compileClause_spec hcompiled⟩

end ChargeScreening
