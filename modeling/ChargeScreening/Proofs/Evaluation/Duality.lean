import ChargeScreening.Proofs.Evaluation.Faults
import ChargeScreening.Proofs.Expression.Negation

/-!
# De Morgan's law

Clauses are folded from the left and no connective binds tighter than the other. So the law needs no
brackets: a chain is negated clause by clause, with `and` and `or` exchanged. A clause is negated by
its `not` and never by another operator: a `null` meets neither `lt` nor `ge`.

## Main definitions

* `Connective.dual`, `Clause.dual`, `Expression.dual` — the dual of an expression

## Main results

* `foldClauses_dual` — the law for the rest of a chain, whatever came before it
* `eval_deMorgan` — the dual of an expression has the opposite result or the same error, and so has
  a text of one clause behind a `not`
-/

namespace ChargeScreening

variable {a : Attributes}

/-! ### The dual -/

/-- The other connective. -/
def Connective.dual : Connective → Connective
  | .and => .or
  | .or => .and

theorem Connective.combine_dual (joint : Connective) (result b : Bool) :
    joint.dual.combine (!result) (!b) = !joint.combine result b := by
  cases joint with
  | and => exact (Bool.not_and ..).symm
  | or => exact (Bool.not_or ..).symm

/-- The clause negated, or no longer negated, and joined to the next one by the other connective. A
clause that gives none is joined by `and`, and its dual by `or`. -/
def Clause.dual (c : Clause) : Clause :=
  { c with negated := !c.negated, connective := some c.joint.dual }

/-- The expression with every clause replaced by its dual. -/
def Expression.dual (e : Expression) : Expression :=
  ⟨e.clauses.map Clause.dual⟩

theorem Clause.joint_dual (c : Clause) : c.dual.joint = c.joint.dual :=
  rfl

/-! ### Results -/

/-- A clause negated has the opposite result or the same error, however it is joined to the next
one. -/
theorem Clause.eval_not (c : Clause) (joint : Option Connective) (a : Attributes) :
    Clause.eval { c with negated := !c.negated, connective := joint } a
      = (c.eval a).map (!·) := by
  simp only [Clause.eval]
  cases c.operand.value a with
  | error err => rfl
  | ok value =>
    dsimp only
    cases compareValue value c.operator c.value with
    | error err => rfl
    | ok b => exact congrArg Except.ok (Bool.bne_not ..)

theorem Clause.eval_dual (c : Clause) (a : Attributes) : c.dual.eval a = (c.eval a).map (!·) :=
  c.eval_not _ a

/-- The duals of clauses, folded into the opposite of a result by the other connective, give the
opposite of what the clauses give. -/
theorem foldClauses_dual (cs : List Clause) (result : Bool) (joint : Connective) :
    foldClauses a (!result) joint.dual (cs.map Clause.dual)
      = (foldClauses a result joint cs).map (!·) := by
  -- Both the result so far and the connective that waits for the next clause change at each step.
  induction cs generalizing result joint with
  | nil => rfl
  | cons c rest ih =>
    rw [List.map_cons, foldClauses, foldClauses, c.eval_dual]
    cases c.eval a with
    | error err => rfl
    | ok b =>
      change foldClauses a (joint.dual.combine (!result) (!b)) c.dual.joint (rest.map Clause.dual)
        = (foldClauses a (joint.combine result b) c.joint rest).map (!·)
      rw [joint.combine_dual, c.joint_dual, ih]

theorem Expression.eval_dual (e : Expression) (a : Attributes) :
    e.dual.eval a = (e.eval a).map (!·) := by
  obtain ⟨clauses⟩ := e
  cases clauses with
  | nil => rfl
  | cons c rest =>
    simp only [Expression.eval, Expression.dual, List.map_cons, c.eval_dual]
    cases c.eval a with
    | error err => rfl
    | ok b => exact foldClauses_dual rest b c.joint

/-- An expression of one clause has the result of the clause. -/
theorem Expression.eval_singleton (c : Clause) (a : Attributes) :
    Expression.eval ⟨[c]⟩ a = c.eval a := by
  simp only [Expression.eval]
  cases c.eval a with
  | error err => rfl
  | ok b => rfl

/-- **De Morgan's law** for chains that are folded from the left. The dual of an expression has the
opposite result, or fails with the same error; so has an expression of one clause with that clause
negated. A `not` in front of a text of one clause that starts with none does just that: the text is
read as the negated clause, and has the opposite result or the same error. -/
theorem eval_deMorgan (a : Attributes) :
    (∀ e : Expression, e.dual.eval a = (e.eval a).map (!·))
      ∧ (∀ c : Clause, Expression.eval ⟨[{ c with negated := !c.negated }]⟩ a
          = (Expression.eval ⟨[c]⟩ a).map (!·))
      ∧ ∀ (text : String) (c : Clause), Expression.parse text = .ok ⟨[c]⟩ → c.negated = false →
          Expression.parse ("not " ++ text) = .ok ⟨[{ c with negated := true }]⟩
            ∧ evalText ("not " ++ text) a = (evalText text a).map (!·) := by
  have hclause (c : Clause) : Expression.eval ⟨[{ c with negated := !c.negated }]⟩ a
      = (Expression.eval ⟨[c]⟩ a).map (!·) := by
    rw [Expression.eval_singleton, Expression.eval_singleton]
    exact c.eval_not c.connective a
  refine ⟨fun e => e.eval_dual a, hclause, fun text c hparse hplain => ?_⟩
  have hnot := parse_not hparse hplain
  refine ⟨hnot, ?_⟩
  have hopposite := hclause c
  rw [hplain] at hopposite
  rw [evalText_of_parse hnot, evalText_of_parse hparse]
  exact hopposite

/-- The law for a `null` and for an array, behind an operator that needs an order. -/
theorem eval_deMorgan_nullAndArray :
    let text := "bin ge \"5\""
    let unordered : EvalError := .typeMismatch "ge" "array" "string"
    (∃ c, Expression.parse text = .ok ⟨[c]⟩ ∧ c.negated = false)
      ∧ evalText text ⟨[("bin", .null)]⟩ = .ok false
      ∧ evalText ("not " ++ text) ⟨[("bin", .null)]⟩ = .ok true
      ∧ evalText text ⟨[("bin", .array [])]⟩ = .error unordered
      ∧ evalText ("not " ++ text) ⟨[("bin", .array [])]⟩ = .error unordered := by
  intro text unordered
  have hshape : (Expression.parse text).map (fun e => e.clauses.map Clause.negated)
      = .ok [false] := by
    decide +kernel
  obtain ⟨⟨clauses⟩, hparse, hnegated⟩ := exists_of_map_eq_ok hshape
  obtain ⟨c, rest, rfl, hplain, hrest⟩ := List.map_eq_cons_iff.mp hnegated
  obtain rfl := List.map_eq_nil_iff.mp hrest
  have hnull : evalText text ⟨[("bin", .null)]⟩ = .ok false := by decide +kernel
  have harray : evalText text ⟨[("bin", .array [])]⟩ = .error unordered := by decide +kernel
  refine ⟨⟨c, hparse, hplain⟩, hnull, ?_, harray, ?_⟩
  · rw [((eval_deMorgan _).2.2 text c hparse hplain).2, hnull]
    rfl
  · rw [((eval_deMorgan _).2.2 text c hparse hplain).2, harray]
    rfl

end ChargeScreening
