import ChargeScreening.Evaluation.Basic
import ChargeScreening.Proofs.Rule.Compiled

/-!
# What a compiled rule means

An author joins all clauses but the last by one connective and means their conjunction or their
disjunction. Compilation puts the formulas in front, and every clause keeps its own connective on
the way. This does no harm as long as the clause that ends up last is the author's last one. A
formula that is authored last is moved in front of the fields, and there the connective that was to
be ignored, or the `and` that stands for a missing one, joins it to the first field.

## Main definitions

* `DraftClause.eval?` — the value of an author's clause on its own
* `Connective.overall`, `Connective.decisive` — all clauses joined by one connective, and the value
  of one clause that settles them
* `joinValues` — values joined from left to right, each with its own connective

## Main results

* `eval_eq_joinValues` — an expression is evaluated to its clauses' values joined from left to right
* `eval_compiled_eq_overall_iff` — when a compiled rule means what its author wrote
* `eval_compiled_formulaLast` — a rule that means something else
-/

namespace ChargeScreening

/-! ### Values joined -/

namespace Connective

/-- All values joined by one connective. -/
def overall : Connective → List Bool → Bool
  | .and, values => values.all id
  | .or, values => values.any id

/-- The value that settles all values joined by the connective. -/
def decisive : Connective → Bool
  | .and => false
  | .or => true

theorem overall_cons (c : Connective) (b : Bool) (values : List Bool) :
    c.overall (b :: values) = c.combine b (c.overall values) := by
  cases c <;> rfl

theorem overall_append (c : Connective) (xs ys : List Bool) :
    c.overall (xs ++ ys) = c.combine (c.overall xs) (c.overall ys) := by
  cases c
  · exact List.all_append
  · exact List.any_append

theorem overall_perm {c : Connective} {xs ys : List Bool} (h : xs.Perm ys) :
    c.overall xs = c.overall ys := by
  cases c
  · exact h.all_eq
  · exact h.any_eq

theorem overall_eq_decisive_iff {c : Connective} {values : List Bool} :
    c.overall values = c.decisive ↔ c.decisive ∈ values := by
  cases c <;> simp [overall, decisive]

end Connective

/-- Values joined from left to right into the result so far, the first by the connective given and
every other one by that of the value in front. -/
def joinFrom (result : Bool) (joint : Connective) : List (Bool × Connective) → Bool
  | [] => result
  | (b, next) :: rest => joinFrom (joint.combine result b) next rest

/-- Values joined from left to right, each to the next by its own connective. -/
def joinValues : List (Bool × Connective) → Bool
  | [] => true
  | (b, next) :: rest => joinFrom b next rest

/-- Values with one connective join as a whole with the result in front of them, and go on with that
connective. -/
theorem joinFrom_append {c : Connective} {items : List (Bool × Connective)}
    (h : ∀ p ∈ items, p.2 = c) (result : Bool) (rest : List (Bool × Connective)) :
    joinFrom result c (items ++ rest)
      = joinFrom (c.overall (result :: items.map Prod.fst)) c rest := by
  induction items generalizing result with
  | nil =>
    rw [List.nil_append, List.map_nil, Connective.overall_cons]
    cases c <;> simp [Connective.overall, Connective.combine]
  | cons p items ih =>
    obtain ⟨b, next⟩ := p
    cases h _ (List.mem_cons_self ..)
    rw [List.cons_append, joinFrom, ih fun p hp => h p (List.mem_cons_of_mem _ hp), List.map_cons]
    congr 1
    simp only [Connective.overall_cons]
    cases next <;> simp [Connective.combine, Bool.and_assoc, Bool.or_assoc]

/-- A value with a connective of its own stands behind values with another. -/
theorem joinValues_append {c : Connective} {items : List (Bool × Connective)}
    (h : ∀ p ∈ items, p.2 = c) (b : Bool) (k : Connective) (rest : List (Bool × Connective)) :
    joinValues (items ++ (b, k) :: rest)
      = joinFrom (c.overall (items.map Prod.fst ++ [b])) k rest := by
  cases items with
  | nil =>
    rw [List.nil_append, joinValues, List.map_nil, List.nil_append]
    cases c <;> simp [Connective.overall]
  | cons p items =>
    obtain ⟨first, next⟩ := p
    cases h _ (List.mem_cons_self ..)
    rw [List.cons_append, joinValues, joinFrom_append fun p hp => h p (List.mem_cons_of_mem _ hp),
      joinFrom, List.map_cons, Connective.overall_append]
    congr 2
    cases next <;> simp [Connective.overall]

/-! ### Clauses and their values -/

/-- An expression is evaluated to the values of its clauses, joined from left to right. -/
theorem foldClauses_eq_joinFrom {a : Attributes} {cs : List Clause}
    {items : List (Bool × Connective)}
    (h : List.Forall₂ (fun (c : Clause) p => c.eval a = .ok p.1 ∧ c.joint = p.2) cs items)
    (result : Bool) (joint : Connective) :
    foldClauses a result joint cs = .ok (joinFrom result joint items) := by
  induction h generalizing result joint with
  | nil => rfl
  | cons hc _ ih =>
    obtain ⟨heval, hjoint⟩ := hc
    rw [foldClauses, heval]
    simp only [ih, hjoint]
    rfl

theorem eval_eq_joinValues {a : Attributes} {e : Expression} {items : List (Bool × Connective)}
    (h : List.Forall₂ (fun (c : Clause) p => c.eval a = .ok p.1 ∧ c.joint = p.2) e.clauses items)
    (hne : e.clauses ≠ []) : e.eval a = .ok (joinValues items) := by
  rw [Expression.eval]
  generalize e.clauses = cs at h hne
  cases h with
  | nil => exact absurd rfl hne
  | cons hc hrest =>
    obtain ⟨heval, hjoint⟩ := hc
    simp only [heval, hjoint, foldClauses_eq_joinFrom hrest]
    rfl

/-- The value of an author's clause on its own: that of a rule of this clause alone. -/
def DraftClause.eval? (d : DraftClause) (a : Attributes) : Option Bool :=
  match compileExpression [d] with
  | .ok e => (e.eval a).toOption
  | .error _ => none

/-- The connective of an author's clause, `and` where none is given. -/
def DraftClause.joint (d : DraftClause) : Connective :=
  d.connective.getD .and

/-- The value of an author's clause with its connective. -/
def DraftClause.jointed (value : DraftClause → Bool) (d : DraftClause) : Bool × Connective :=
  (value d, d.joint)

/-- The place of a clause shows in errors only. -/
theorem operand_anywhere {place : Nat} {d : DraftClause} {operand : Operand}
    (h : d.operand place = .ok operand) (other : Nat) : d.operand other = .ok operand := by
  grind [DraftClause.operand]

theorem compileValue_anywhere {place : Nat} {op : Operator} {value : Value} {literal : Literal}
    (h : compileValue place op value = .ok literal) (other : Nat) :
    compileValue other op value = .ok literal := by
  grind [compileValue]

theorem compileClause_anywhere {place : Nat} {d : DraftClause} {c : Clause}
    (h : compileClause place d = .ok c) (other : Nat) : compileClause other d = .ok c := by
  rw [compileClause] at h
  cases hoperand : d.operand place with
  | error e =>
    rw [hoperand] at h
    cases h
  | ok operand =>
    cases hvalue : compileValue place d.operator d.value with
    | error e =>
      simp only [hoperand, hvalue] at h
      cases h
    | ok value =>
      simp only [hoperand, hvalue] at h
      rw [compileClause, operand_anywhere hoperand, compileValue_anywhere hvalue]
      exact h

theorem connective_of_compileClause {place : Nat} {d : DraftClause} {c : Clause}
    (h : compileClause place d = .ok c) : c.connective = d.connective := by
  rw [compileClause] at h
  split at h
  · cases h
  · cases hvalue : compileValue place d.operator d.value <;> rw [hvalue] at h <;> cases h
    rfl

/-- A compiled clause has the value and the connective of the author's. -/
theorem eval_of_compileClause {place : Nat} {d : DraftClause} {c : Clause}
    (h : compileClause place d = .ok c) {a : Attributes} {b : Bool} (hb : d.eval? a = some b) :
    c.eval a = .ok b ∧ c.joint = d.joint := by
  have hplaced : formulasFirst [d] = [(d, 0)] := by
    rw [formulasFirst, List.zipIdx_singleton]
    cases hformula : d.isFormula <;> simp [hformula]
  have halone : compileExpression [d] = .ok ⟨[c]⟩ := by
    refine compileExpression_eq_ok_iff.mpr ⟨List.cons_ne_nil _ _, ?_⟩
    rw [hplaced, compileClauses, compileClause_anywhere h 0]
    rfl
  rw [DraftClause.eval?, halone] at hb
  simp only [Expression.eval] at hb
  refine ⟨?_, by rw [Clause.joint, connective_of_compileClause h, DraftClause.joint]⟩
  cases heval : c.eval a <;> rw [heval] at hb <;> cases hb
  rfl

/-! ### Expressions and what their author meant -/

theorem map_fst_formulasFirst (clauses : List DraftClause) :
    (formulasFirst clauses).map Prod.fst
      = clauses.filter DraftClause.isFormula ++ clauses.filter fun d => !d.isFormula := by
  rw [formulasFirst, List.map_append]
  congr 1
  · conv_rhs => rw [← List.zipIdx_map_fst 0 clauses]
    rw [List.filter_map]
    rfl
  · conv_rhs => rw [← List.zipIdx_map_fst 0 clauses]
    rw [List.filter_map]
    rfl

/-- A compiled rule is evaluated to the author's values with the formulas in front, each of them
joined to the next by its own connective. -/
theorem eval_compiled {clauses : List DraftClause} {e : Expression}
    (h : compileExpression clauses = .ok e) {a : Attributes} {value : DraftClause → Bool}
    (hvalue : ∀ d ∈ clauses, d.eval? a = some (value d)) :
    e.eval a = .ok (joinValues ((clauses.filter DraftClause.isFormula
      ++ clauses.filter fun d => !d.isFormula).map (DraftClause.jointed value))) := by
  obtain ⟨-, hcompiled⟩ := compileExpression_eq_ok_iff.mp h
  refine eval_eq_joinValues ?_ (compileExpression_spec h).1
  rw [← map_fst_formulasFirst, List.map_map, List.forall₂_map_right_iff]
  have hauthored : ∀ p ∈ formulasFirst clauses, p.1 ∈ clauses := fun p hp =>
    List.fst_mem_of_mem_zipIdx (mem_formulasFirst_iff.mp hp)
  have hall := (List.forall₂_and_left _ _).mpr ⟨hauthored, forall₂_of_compileClauses hcompiled⟩
  refine List.Forall₂.flip (hall.imp ?_)
  rintro ⟨d, place⟩ c ⟨hd, hc⟩
  exact eval_of_compileClause hc (hvalue d hd)

/-! ### What the author meant -/

/-- The clauses of an author as a whole, with the formulas in front. -/
theorem overall_formulasFirst (c : Connective) (clauses : List DraftClause)
    (value : DraftClause → Bool) :
    c.overall (clauses.map value) = c.combine
      (c.overall ((clauses.filter DraftClause.isFormula).map value))
      (c.overall ((clauses.filter fun d => !d.isFormula).map value)) := by
  have hperm := (List.filter_append_perm DraftClause.isFormula clauses).map value
  rw [← Connective.overall_perm hperm, List.map_append, Connective.overall_append]

section Uniform

variable {c : Connective} (value : DraftClause → Bool)

theorem jointed_uniform {ds : List DraftClause} (h : ∀ d ∈ ds, d.connective = some c) :
    ∀ p ∈ ds.map (DraftClause.jointed value), p.2 = c := by
  intro p hp
  obtain ⟨d, hd, rfl⟩ := List.mem_map.mp hp
  rw [DraftClause.jointed, DraftClause.joint, h d hd, Option.getD_some]

theorem map_fst_jointed (ds : List DraftClause) :
    (ds.map (DraftClause.jointed value)).map Prod.fst = ds.map value := by
  rw [List.map_map]
  rfl

/-- Behind clauses with one connective, the connective of the last one is never used. -/
theorem joinValues_uniform {front : List DraftClause} (h : ∀ d ∈ front, d.connective = some c)
    (last : DraftClause) :
    joinValues ((front ++ [last]).map (DraftClause.jointed value))
      = c.overall ((front ++ [last]).map value) := by
  have hjoined := joinValues_append (jointed_uniform value h) (value last) last.joint []
  rw [map_fst_jointed] at hjoined
  rw [List.map_append, List.map_append]
  exact hjoined

/-- A clause that is moved into clauses with one connective brings its own, which joins what is in
front to the next clause. -/
theorem joinValues_moved {front back : List DraftClause} {next : DraftClause}
    (hfront : ∀ d ∈ front, d.connective = some c)
    (hback : ∀ d ∈ next :: back, d.connective = some c) (moved : DraftClause) :
    joinValues ((front ++ moved :: next :: back).map (DraftClause.jointed value))
      = c.combine
        (moved.joint.combine (c.overall ((front ++ [moved]).map value)) (value next))
        (c.overall (back.map value)) := by
  have hjoined := joinValues_append (jointed_uniform value hfront) (value moved) moved.joint
    ((next :: back).map (DraftClause.jointed value))
  have hrest : ∀ d ∈ back, d.connective = some c := fun d hd => hback d (List.mem_cons_of_mem _ hd)
  have hnext : next.joint = c := by
    rw [DraftClause.joint, hback next (List.mem_cons_self ..), Option.getD_some]
  have hend (result : Bool) := joinFrom_append (jointed_uniform value hrest) result []
  simp only [List.append_nil, map_fst_jointed, joinFrom, Connective.overall_cons] at hend
  rw [map_fst_jointed, List.map_cons] at hjoined
  rw [List.map_append, List.map_append, List.map_cons, List.map_cons]
  refine hjoined.trans ?_
  rw [DraftClause.jointed, joinFrom, hnext, hend]
  rfl

end Uniform

/-- A value that is joined by another connective does no harm just if it agrees with the result in
front of it, or if what follows settles the whole. -/
theorem combine_mixed_eq_iff (c k : Connective) (front b back : Bool) :
    c.combine (k.combine front b) back = c.combine front (c.combine b back)
      ↔ k = c ∨ b = front ∨ back = c.decisive := by
  cases c <;> cases k <;> revert front b back <;> decide

/-- **A compiled rule means what its author wrote, unless a formula is authored last.** Let all
clauses but the last be joined by one connective. Then the rule is evaluated whenever each clause
is, and to the authored values joined as a whole in just these cases: the last clause is no formula
or carries the same connective as the others, the first field has the value of the formulas
together, or a field behind it settles the result. -/
theorem eval_compiled_eq_overall_iff {clauses : List DraftClause} {e : Expression}
    (h : compileExpression clauses = .ok e) {c : Connective}
    (hjoint : ∀ d ∈ clauses.dropLast, d.connective = some c) {a : Attributes}
    {value : DraftClause → Bool} (hvalue : ∀ d ∈ clauses, d.eval? a = some (value d)) :
    ∃ result, e.eval a = .ok result ∧ (result = c.overall (clauses.map value)
      ↔ (∀ d ∈ clauses.getLast?, d.isFormula = true → d.joint = c)
        ∨ (∀ d ∈ (clauses.filter fun d => !d.isFormula).head?,
          value d = c.overall ((clauses.filter DraftClause.isFormula).map value))
        ∨ ∃ d ∈ (clauses.filter fun d => !d.isFormula).tail, value d = c.decisive) := by
  refine ⟨_, eval_compiled h hvalue, ?_⟩
  obtain rfl | ⟨init, last, rfl⟩ := clauses.eq_nil_or_concat'
  · exact absurd rfl (compileExpression_eq_ok_iff.mp h).1
  rw [List.dropLast_concat] at hjoint
  rw [overall_formulasFirst, List.filter_append, List.filter_append, List.getLast?_concat]
  have hformula : ∀ d ∈ init.filter DraftClause.isFormula, d.connective = some c := fun d hd =>
    hjoint d (List.mem_of_mem_filter hd)
  have hfield : ∀ d ∈ init.filter fun d => !d.isFormula, d.connective = some c := fun d hd =>
    hjoint d (List.mem_of_mem_filter hd)
  generalize init.filter DraftClause.isFormula = formulas at hformula ⊢
  generalize (init.filter fun d => !d.isFormula) = fields at hfield ⊢
  cases hlast : last.isFormula with
  | false =>
    have hfront : ∀ d ∈ formulas ++ fields, d.connective = some c := fun d hd =>
      (List.mem_append.mp hd).elim (hformula d) (hfield d)
    have hjoined := joinValues_uniform value hfront last
    refine iff_of_true ?_ (.inl ?_)
    · simpa [hlast, List.filter_cons, Connective.overall_append] using hjoined
    · intro d hd hd'
      cases hd
      rw [hlast] at hd'
      cases hd'
  | true =>
    have hfirst : [last].filter DraftClause.isFormula = [last] := by simp [hlast]
    have hnone : ([last].filter fun d => !d.isFormula) = [] := by simp [hlast]
    rw [hfirst, hnone, List.append_nil]
    cases fields with
    | nil =>
      have hjoined := joinValues_uniform value hformula last
      refine iff_of_true ?_ (.inr (.inl fun d hd => by cases hd))
      rw [List.append_nil, hjoined]
      cases c <;> simp [Connective.overall, Connective.combine]
    | cons next back =>
      rw [List.append_assoc, List.singleton_append, joinValues_moved value hformula hfield last,
        List.map_cons, Connective.overall_cons, combine_mixed_eq_iff,
        Connective.overall_eq_decisive_iff, List.mem_map]
      simp [hlast]

theorem exists_of_isOk {ε α : Type} {x : Except ε α} (h : x.isOk = true) : ∃ y, x = .ok y := by
  cases x with
  | error e => cases h
  | ok y => exact ⟨y, rfl⟩

/-- The theorem on a formula between two fields. The rule means the disjunction, whatever the last
clause carries. -/
theorem eval_compiled_eq_overall_iff_formulaBetween :
    let amount : DraftClause :=
      { field := some "amount", operator := .gt, value := .number 100, connective := some .or }
    let sum : DraftClause :=
      { operator := .ge, value := .number 7, connective := some .or,
        formulaFields := some ["cards", "payers"], formulaOp := some "SUM" }
    let country : DraftClause :=
      { field := some "country", operator := .eq, value := .text "MX", connective := some .and,
        negated := true }
    let clauses := [amount, sum, country]
    let a : Attributes :=
      ⟨[("amount", .number 5), ("cards", .number 3), ("payers", .number 4), ("country", .text "MX")]⟩
    let value (d : DraftClause) : Bool := (d.eval? a).getD false
    (∀ d ∈ clauses.dropLast, d.connective = some .or)
      ∧ (∀ d ∈ clauses, d.eval? a = some (value d)) ∧ clauses.map value = [false, true, false]
      ∧ ∃ e, compileExpression clauses = .ok e ∧ e.eval a = .ok true := by
  intro amount sum country clauses a value
  have hjoint : ∀ d ∈ clauses.dropLast, d.connective = some .or := by decide +kernel
  have hvalue : ∀ d ∈ clauses, d.eval? a = some (value d) := by decide +kernel
  have hvalues : clauses.map value = [false, true, false] := by decide +kernel
  have hlast : ∀ d ∈ clauses.getLast?, d.isFormula = true → d.joint = .or := by decide +kernel
  obtain ⟨e, he⟩ := exists_of_isOk (x := compileExpression clauses) (by decide +kernel)
  obtain ⟨result, heval, hiff⟩ := eval_compiled_eq_overall_iff he hjoint hvalue
  rw [hiff.mpr (.inl hlast), hvalues] at heval
  exact ⟨hjoint, hvalue, hvalues, e, he, heval⟩

/-- A formula authored last behind an `or`. Its first clause is met and the rule is not, since the
formula is moved in front and the missing connective behind it is written as `and`. -/
theorem eval_compiled_formulaLast :
    let amount : DraftClause :=
      { field := some "amount", operator := .gt, value := .number 1, connective := some .or }
    let sum : DraftClause :=
      { operator := .gt, value := .number 10,
        formulaFields := some ["aggregation.payer.count", "aggregation.card.count"],
        formulaOp := some "SUM" }
    let clauses := [amount, sum]
    let a : Attributes := ⟨[("amount", .number 5)]⟩
    (∀ d ∈ clauses.dropLast, d.connective = some .or)
      ∧ clauses.map (·.eval? a) = [some true, some false]
      ∧ Connective.or.overall [true, false] = true
      ∧ ∃ e, compileExpression clauses = .ok e
        ∧ e.render = "SUM (aggregation.payer.count,aggregation.card.count) gt 10 and amount gt 1"
        ∧ e.eval a = .ok false := by
  intro amount sum clauses a
  have hjoint : ∀ d ∈ clauses.dropLast, d.connective = some .or := by decide +kernel
  have hvalues : clauses.map (·.eval? a) = [some true, some false] := by decide +kernel
  have htext : (compileExpression clauses).map Expression.render
      = .ok "SUM (aggregation.payer.count,aggregation.card.count) gt 10 and amount gt 1" := by
    decide +kernel
  have hresult : ((compileExpression clauses).toOption.map fun e => (e.eval a).toOption)
      = some (some false) := by
    decide +kernel
  obtain ⟨e, he⟩ := exists_of_isOk (x := compileExpression clauses) (by decide +kernel)
  rw [he] at htext hresult
  refine ⟨hjoint, hvalues, rfl, e, he, Except.ok.inj htext, ?_⟩
  cases heval : e.eval a with
  | error err => simp [heval, Except.toOption] at hresult
  | ok b => simpa [heval, Except.toOption] using hresult

end ChargeScreening
