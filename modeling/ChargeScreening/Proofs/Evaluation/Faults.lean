import ChargeScreening.Evaluation.Basic
import ChargeScreening.Proofs.Expression.Accepted
import ChargeScreening.Proofs.Expression.Grammar
import Mathlib.Data.List.Basic

/-!
# What can go wrong in evaluation

Evaluation guards against expressions that have no clauses and formulas that lack operands. No text
spells such an expression, so that of a text that can be read only the attributes can be at fault:
one that a clause compares is missing, or one has a value of the wrong kind.

## Main definitions

* `EvalError.isOfAttributes` — whether the attributes are at fault
* `WrongField` — an operand of a formula that is there and is no number
* `Clause.Mismatch` — where the mismatch that a clause fails on comes from

## Main results

* `isOfAttributes_eq_of_message_eq` — the text of an error tells whether they are
* `compareValue_eq_error`, `evalFormula_cases` — a comparison or a formula fails on a mismatch
* `Expression.eval_eq_error` — an expression fails with the first of its clauses that does
* `evalText_cases` — a text that can be read has a result or fails on the attributes, and a formula
  in it on operands that are there
-/

namespace ChargeScreening

/-- Whether the attributes are at fault: one is missing, or has a value of the wrong kind. -/
def EvalError.isOfAttributes : EvalError → Bool
  | .missingOperand _ | .typeMismatch .. => true
  | .emptyExpression | .parse _ | .invalidOperation _ => false

/-! ### Texts -/

namespace EvalError

/-- The letter that the text of an error begins with. -/
def initial : EvalError → Char
  | .emptyExpression => 'E'
  | .parse _ => 'P'
  | .missingOperand _ => 'M'
  | .typeMismatch .. => 'T'
  | .invalidOperation _ => 'I'

theorem head?_message (err : EvalError) : err.message.toList.head? = some err.initial := by
  have hfront {front rest : String} {c : Char} (h : front.toList.head? = some c) :
      (front ++ rest).toList.head? = some c := by
    rw [String.toList_append, List.head?_append, h, Option.some_or]
  cases err with
  | emptyExpression => rfl
  | parse cause => exact hfront rfl
  | missingOperand path => exact hfront rfl
  | typeMismatch operator left right => exact hfront (hfront (hfront (hfront (hfront rfl))))
  | invalidOperation fault => exact hfront rfl

/-- The text of an error tells whether the attributes are at fault. -/
theorem isOfAttributes_eq_of_message_eq {err err' : EvalError} (h : err.message = err'.message) :
    err.isOfAttributes = err'.isOfAttributes := by
  have hletter (err : EvalError) :
      err.isOfAttributes = (err.initial == 'M' || err.initial == 'T') := by
    cases err <;> rfl
  have hinitial : err.initial = err'.initial := by
    rw [← Option.some_inj, ← head?_message, ← head?_message, h]
  rw [hletter, hletter, hinitial]

end EvalError

variable {a : Attributes} {err : EvalError}

/-! ### Comparisons -/

section Comparison

variable {op : Operator} {left : Value} {right : Literal}

theorem align_eq_error (h : align op left right = .error err) : err = mismatch op left right := by
  unfold align at h
  split at h
  · cases h
  · split at h <;> cases h
  · cases h
  · cases h
  · cases h
  · split at h <;> cases h
  · split at h <;> cases h
  · exact (Except.error.inj h).symm
  · exact (Except.error.inj h).symm
  · exact (Except.error.inj h).symm
  · cases h

theorem orderFor_eq_error (h : orderFor op left right = .error err) :
    err = mismatch op left right := by
  unfold orderFor at h
  split at h
  · next e halign =>
    cases h
    exact align_eq_error halign
  · cases h
  · cases h
  · split at h <;> cases h
    rfl
  · split at h <;> cases h
    rfl

theorem matchText_eq_error (h : matchText op left right = .error err) :
    err = mismatch op left right := by
  unfold matchText at h
  split at h
  · split at h <;> cases h
  · cases h
    rfl

theorem memberOf_eq_error {items : List Literal} (h : memberOf op left items = .error err) :
    ∃ item ∈ items, err = mismatch op left item := by
  induction items with
  | nil => cases h
  | cons item rest ih =>
    rw [memberOf] at h
    split at h
    · next e halign =>
      cases h
      exact ⟨item, List.mem_cons_self .., align_eq_error halign⟩
    · split at h
      · cases h
      · obtain ⟨other, hother, herr⟩ := ih h
        exact ⟨other, List.mem_cons_of_mem _ hother, herr⟩

/-- Whether a literal is another one or an item of its list. -/
def Literal.IsPartOf (literal whole : Literal) : Prop :=
  literal = whole ∨ ∃ items, whole = .list items ∧ literal ∈ items

/-- A comparison fails on a mismatch with its literal or with one of the literal's items, and not
if the value is `null`. -/
theorem compareValue_eq_error (h : compareValue left op right = .error err) :
    left.isNull = false ∧ ∃ literal, literal.IsPartOf right ∧ err = mismatch op left literal := by
  unfold compareValue at h
  split at h
  · cases h
  · next hnull =>
    refine ⟨Bool.eq_false_iff.mpr hnull, ?_⟩
    split at h
    · split at h
      · obtain ⟨item, hitem, herr⟩ := memberOf_eq_error h
        exact ⟨item, .inr ⟨_, rfl, hitem⟩, herr⟩
      · cases h
        exact ⟨_, .inl rfl, rfl⟩
    · exact ⟨_, .inl rfl, matchText_eq_error h⟩
    · exact ⟨_, .inl rfl, matchText_eq_error h⟩
    · cases horder : orderFor op left right with
      | error e =>
        rw [horder] at h
        cases h
        exact ⟨_, .inl rfl, orderFor_eq_error horder⟩
      | ok order =>
        rw [horder] at h
        cases h

end Comparison

/-! ### Formulas -/

/-- A field among the operands of a formula that is there and is not `null`, but neither is a number
nor spells one. -/
structure WrongField (args : List FormulaArg) (a : Attributes) (path : String) (value : Value) :
    Prop where
  mem : .field path ∈ args
  found : a.get? path = some value
  notNull : value.isNull = false
  notNumber : value.coerceNumber? = none

/-- The mismatch between an operation and a field that is no number. -/
def wrongField (op : MathOp) (path : String) (value : Value) : EvalError :=
  .typeMismatch op.word (path ++ " (" ++ value.kind ++ ")") "number"

section Formula

variable {op : MathOp} {arg : FormulaArg} {args : List FormulaArg} {path : String} {value : Value}

theorem WrongField.of_mem (h : WrongField [arg] a path value) (harg : arg ∈ args) :
    WrongField args a path value :=
  { h with mem := by rwa [List.mem_singleton.mp h.mem] }

/-- An operand that stands for no number is a field of the wrong kind. -/
theorem argNumber_eq_error (h : arg.number op a = .error err) :
    ∃ path value, WrongField [arg] a path value ∧ err = wrongField op path value := by
  cases arg with
  | constant x => cases h
  | field path =>
    rw [FormulaArg.number] at h
    split at h
    · cases h
    · cases h
    · next value hnotNull hfound =>
      split at h
      · cases h
      · next hnotNumber =>
        have hnull : value.isNull = false := by
          cases value with
          | null => exact absurd rfl hnotNull
          | _ => rfl
        exact ⟨path, value, ⟨List.mem_singleton_self _, hfound, hnull, hnotNumber⟩,
          (Except.error.inj h).symm⟩

/-- A field of the wrong kind stands for no number. -/
theorem number_of_wrongField (h : WrongField args a path value) :
    (FormulaArg.field path).number op a = .error (wrongField op path value) := by
  rw [FormulaArg.number, h.found]
  cases value with
  | null => cases h.notNull
  | _ => simp only [h.notNumber, wrongField]

/-- Operands that do not all stand for numbers fail with one that does not; otherwise there is one
number for each. -/
theorem argNumbers_cases (op : MathOp) (a : Attributes) (args : List FormulaArg) :
    (∃ arg ∈ args, ∃ err, arg.number op a = .error err ∧ argNumbers op a args = .error err)
      ∨ (∀ arg ∈ args, ∃ x, arg.number op a = .ok x)
        ∧ ∃ xs, argNumbers op a args = .ok xs ∧ xs.length = args.length := by
  induction args with
  | nil => exact .inr ⟨fun _ h => absurd h List.not_mem_nil, [], rfl, rfl⟩
  | cons arg rest ih =>
    rw [argNumbers]
    cases harg : arg.number op a with
    | error err => exact .inl ⟨arg, List.mem_cons_self, err, harg, rfl⟩
    | ok x =>
      obtain ⟨other, hother, err, herr, hrest⟩ | ⟨hall, xs, hrest, hlength⟩ := ih
      · rw [hrest]
        exact .inl ⟨other, List.mem_cons_of_mem _ hother, err, herr, rfl⟩
      · rw [hrest]
        refine .inr ⟨List.forall_mem_cons.mpr ⟨⟨x, harg⟩, hall⟩, x :: xs, rfl, ?_⟩
        rw [List.length_cons, List.length_cons, hlength]

/-- An operation on as many numbers as it takes has a result. -/
theorem exists_reckon {xs : List Float} (h : op.accepts xs.length = true) :
    ∃ x, op.reckon xs = .ok x := by
  obtain ⟨hmany, hexact⟩ := MathOp.accepts_iff.mp h
  match xs, hmany with
  | first :: second :: rest, _ =>
    cases op with
    | sum => exact ⟨_, rfl⟩
    | mlp => exact ⟨_, rfl⟩
    | subtract =>
      cases rest with
      | nil => exact ⟨_, rfl⟩
      | cons third rest => cases hexact rfl
    | div =>
      rw [MathOp.reckon]
      split
      · exact ⟨_, rfl⟩
      · exact ⟨_, rfl⟩

/-- A formula with as many operands as it takes has a result, or fails with a field that is no
number. -/
theorem evalFormula_cases (haccepts : op.accepts args.length = true) (a : Attributes) :
    (∃ path value, WrongField args a path value
        ∧ evalFormula op args a = .error (wrongField op path value))
      ∨ (∀ path value, ¬ WrongField args a path value) ∧ ∃ x, evalFormula op args a = .ok x := by
  rw [evalFormula]
  obtain ⟨arg, harg, err, herr, hnumbers⟩ | ⟨hall, xs, hnumbers, hlength⟩ :=
    argNumbers_cases op a args
  · obtain ⟨path, value, hwrong, rfl⟩ := argNumber_eq_error herr
    rw [hnumbers]
    exact .inl ⟨path, value, hwrong.of_mem harg, rfl⟩
  · rw [← hlength] at haccepts
    rw [hnumbers]
    refine .inr ⟨fun path value hwrong => ?_, exists_reckon haccepts⟩
    obtain ⟨x, hx⟩ := hall _ hwrong.mem
    rw [number_of_wrongField hwrong] at hx
    cases hx

end Formula

/-! ### Clauses and expressions -/

/-- Where the mismatch that a clause fails on comes from: an operand of its formula is no number, or
its literal cannot be compared with the value that it does have. -/
inductive Clause.Mismatch (c : Clause) (a : Attributes) : EvalError → Prop
  | operand {op : MathOp} {args : List FormulaArg} {path : String} {value : Value}
      (hoperand : c.operand = .formula op args) (hwrong : WrongField args a path value) :
      Mismatch c a (wrongField op path value)
  | comparison {value : Value} {literal : Literal} (hvalue : c.operand.value a = .ok value)
      (hnull : value.isNull = false) (hliteral : literal.IsPartOf c.value) :
      Mismatch c a (mismatch c.operator value literal)

theorem Clause.Mismatch.isTypeMismatch {c : Clause} (h : c.Mismatch a err) :
    ∃ operator left right, err = .typeMismatch operator left right := by
  cases h with
  | operand hoperand hwrong => exact ⟨_, _, _, rfl⟩
  | comparison hvalue hnull hliteral => exact ⟨_, _, _, rfl⟩

/-- An operand has no value because the attribute is missing, or its formula has no result. -/
theorem Operand.value_eq_error {operand : Operand} (h : operand.value a = .error err) :
    (∃ path, operand = .field path ∧ a.get? path = none ∧ err = .missingOperand path)
      ∨ ∃ op args, operand = .formula op args ∧ evalFormula op args a = .error err := by
  cases operand with
  | field path =>
    rw [value] at h
    split at h
    · cases h
    · next hnone => exact .inl ⟨path, rfl, hnone, (Except.error.inj h).symm⟩
  | formula op args =>
    rw [value] at h
    cases hformula : evalFormula op args a with
    | ok x =>
      rw [hformula] at h
      cases h
    | error e =>
      rw [hformula] at h
      cases h
      exact .inr ⟨op, args, rfl, hformula⟩

/-- A clause fails with its operand, or on a mismatch between the value and the literal. -/
theorem Clause.operand_or_mismatch {c : Clause} (h : c.eval a = .error err) :
    c.operand.value a = .error err ∨ c.Mismatch a err := by
  rw [Clause.eval] at h
  cases hvalue : c.operand.value a with
  | error e =>
    rw [hvalue] at h
    cases h
    exact .inl rfl
  | ok value =>
    rw [hvalue] at h
    cases hcompare : compareValue value c.operator c.value with
    | ok b =>
      simp only [hcompare] at h
      cases h
    | error e =>
      simp only [hcompare] at h
      cases h
      obtain ⟨hnull, literal, hliteral, rfl⟩ := compareValue_eq_error hcompare
      exact .inr (.comparison hvalue hnull hliteral)

/-- A clause fails because the attribute that it compares is missing, or on a mismatch. -/
theorem Clause.eval_eq_error {c : Clause} (hcount : c.operand.hasCount = true)
    (h : c.eval a = .error err) :
    (∃ path, c.operand = .field path ∧ a.get? path = none ∧ err = .missingOperand path)
      ∨ c.Mismatch a err := by
  obtain hvalue | hmismatch := Clause.operand_or_mismatch h
  · obtain hmissing | ⟨op, args, hoperand, hformula⟩ := Operand.value_eq_error hvalue
    · exact .inl hmissing
    · rw [hoperand, Operand.hasCount] at hcount
      obtain ⟨path, value, hwrong, hfails⟩ | ⟨-, x, hx⟩ := evalFormula_cases hcount a
      · rw [hfails] at hformula
        cases hformula
        exact .inr (.operand hoperand hwrong)
      · rw [hx] at hformula
        cases hformula
  · exact .inr hmismatch

theorem foldClauses_eq_error {cs : List Clause} {result : Bool} {joint : Connective}
    (h : foldClauses a result joint cs = .error err) : ∃ c ∈ cs, c.eval a = .error err := by
  induction cs generalizing result joint with
  | nil => cases h
  | cons c rest ih =>
    rw [foldClauses] at h
    split at h
    · next e hc =>
      cases h
      exact ⟨c, List.mem_cons_self .., hc⟩
    · obtain ⟨d, hd, hfails⟩ := ih h
      exact ⟨d, List.mem_cons_of_mem _ hd, hfails⟩

/-- An expression that has clauses fails with one of them. -/
theorem Expression.eval_eq_error {e : Expression} (hne : e.clauses ≠ [])
    (h : e.eval a = .error err) : ∃ c ∈ e.clauses, c.eval a = .error err := by
  rw [Expression.eval] at h
  split at h
  · next hnil => exact absurd hnil hne
  · next c rest hclauses =>
    rw [hclauses]
    split at h
    · next e hc =>
      cases h
      exact ⟨c, List.mem_cons_self .., hc⟩
    · obtain ⟨d, hd, hfails⟩ := foldClauses_eq_error h
      exact ⟨d, List.mem_cons_of_mem _ hd, hfails⟩

/-! ### Rule text -/

/-- A text that can be read is evaluated as the expression that it spells. -/
theorem evalText_of_parse {text : String} {e : Expression} (h : Expression.parse text = .ok e)
    (a : Attributes) : evalText text a = e.eval a := by
  have hblank : Text.isAllBlank text = false := by
    refine Bool.eq_false_iff.mpr fun hblank => ?_
    rw [Expression.parse, if_pos hblank] at h
    cases h
  rw [evalText, hblank, h]
  rfl

/-- A text that can be read fails with one of its clauses, which compares a field that is missing,
or on a mismatch. -/
theorem evalText_eq_error {text : String} {e : Expression} (hparse : Expression.parse text = .ok e)
    (h : evalText text a = .error err) :
    (∃ path, (∃ c ∈ e.clauses, c.operand = .field path) ∧ a.get? path = none
        ∧ err = .missingOperand path)
      ∨ ∃ c ∈ e.clauses, c.Mismatch a err := by
  have hwell := parse_wellFormed hparse
  rw [evalText_of_parse hparse] at h
  obtain ⟨c, hc, hfails⟩ := Expression.eval_eq_error hwell.nonempty h
  obtain ⟨path, hoperand, hnone, herr⟩ | hmismatch :=
    Clause.eval_eq_error (hwell.clauses c hc).counted hfails
  · exact .inl ⟨path, ⟨c, hc, hoperand⟩, hnone, herr⟩
  · exact .inr ⟨c, hc, hmismatch⟩

/-- **A text that can be read fails on the attributes alone.** Whatever the attributes, it has a
result, or a field that one of its clauses compares is missing, or a value is of the wrong kind. The
operands of its formulas are at fault only when they are there, are not `null` and are no numbers;
otherwise the formula has a result. -/
theorem evalText_cases {text : String} {e : Expression} (hparse : Expression.parse text = .ok e)
    (a : Attributes) :
    ((∃ b, evalText text a = .ok b)
      ∨ (∃ path, (∃ c ∈ e.clauses, c.operand = .field path) ∧ a.get? path = none
          ∧ evalText text a = .error (.missingOperand path))
      ∨ ∃ operator left right, evalText text a = .error (.typeMismatch operator left right)
          ∧ ∃ c ∈ e.clauses, c.Mismatch a (.typeMismatch operator left right))
      ∧ ∀ c ∈ e.clauses, ∀ op args, c.operand = .formula op args →
          ((∃ x, evalFormula op args a = .ok x)
            ↔ ∀ path value, ¬ WrongField args a path value) := by
  constructor
  · cases heval : evalText text a with
    | ok b => exact .inl ⟨b, rfl⟩
    | error err =>
      obtain ⟨path, hfield, hnone, rfl⟩ | ⟨c, hc, hmismatch⟩ := evalText_eq_error hparse heval
      · exact .inr (.inl ⟨path, hfield, hnone, rfl⟩)
      · obtain ⟨operator, left, right, rfl⟩ := hmismatch.isTypeMismatch
        exact .inr (.inr ⟨operator, left, right, rfl, c, hc, hmismatch⟩)
  · intro c hc op args hoperand
    have haccepts : op.accepts args.length = true := by
      have hcounted := ((parse_wellFormed hparse).clauses c hc).counted
      rwa [hoperand] at hcounted
    obtain ⟨path, value, hwrong, hfails⟩ | ⟨hnone, hx⟩ := evalFormula_cases haccepts a
    · rw [hfails]
      refine iff_of_false ?_ fun h => h path value hwrong
      rintro ⟨x, hx⟩
      cases hx
    · exact iff_of_true hx hnone

/-- The theorem for a formula over an attribute that is `null` and one that is missing: it has a
result, and what fails is the clause behind it. -/
theorem evalText_cases_nullAndMissing :
    let text := "SUM (a,b) ge \"0\" and c eq \"x\""
    let a : Attributes := ⟨[("a", .null)]⟩
    (∃ e, Expression.parse text = .ok e)
      ∧ (∃ x, evalFormula .sum [.field "a", .field "b"] a = .ok x)
      ∧ evalText text a = .error (.missingOperand "c") := by
  intro text a
  have hoperands : (Expression.parse text).map (fun e => e.clauses.map Clause.operand)
      = .ok [.formula .sum [.field "a", .field "b"], .field "c"] := by
    decide +kernel
  cases hparse : Expression.parse text with
  | error err =>
    rw [hparse] at hoperands
    cases hoperands
  | ok e =>
    rw [hparse] at hoperands
    replace hoperands : e.clauses.map Clause.operand = _ := Except.ok.inj hoperands
    obtain ⟨c, hc, hoperand⟩ := List.mem_map.mp (hoperands ▸ List.mem_cons_self)
    refine ⟨⟨e, rfl⟩, ((evalText_cases hparse a).2 c hc _ _ hoperand).mpr ?_, by decide +kernel⟩
    intro path value hwrong
    have hharmless : ∀ path ∈ ["a", "b"], (a.get? path).all Value.isNull = true := by
      decide +kernel
    have hnull := hharmless path (by simpa using hwrong.mem)
    rw [hwrong.found, Option.all_some, hwrong.notNull] at hnull
    cases hnull

end ChargeScreening
