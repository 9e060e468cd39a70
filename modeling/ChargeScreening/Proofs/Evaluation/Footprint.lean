import ChargeScreening.Proofs.Attributes.Paths
import ChargeScreening.Proofs.Evaluation.Faults

/-!
# What an expression reads

An expression looks at the attributes under its own paths and nowhere else, and at no more than the
kind of an array or of an object that it finds there. Two charges that show it the same have the
same result or fail with the same error, whatever else they hold.

## Main definitions

* `Value.outline` — a value without what an array or an object holds
* `Attributes.AgreeOn` — attributes that show the same under some paths

## Main results

* `compareValue_outline` — a comparison looks at no more than an outline
* `Expression.eval_congr` — an expression looks at no more than its clauses do
* `reads_only_fields` — an expression reads its own paths alone, and fails on a missing attribute
  only if one of them leads nowhere
-/

namespace ChargeScreening

/-! ### Outlines -/

namespace Value

/-- The value without what is inside, if it is an array or an object. -/
def outline : Value → Value
  | .array _ => .array []
  | .object _ => .object []
  | value => value

variable (value : Value)

@[simp]
theorem isNull_outline : value.outline.isNull = value.isNull := by
  cases value <;> rfl

@[simp]
theorem kind_outline : value.outline.kind = value.kind := by
  cases value <;> rfl

@[simp]
theorem coerceNumber?_outline : value.outline.coerceNumber? = value.coerceNumber? := by
  cases value <;> rfl

@[simp]
theorem scalarText?_outline : value.outline.scalarText? = value.scalarText? := by
  cases value <;> rfl

end Value

section Comparison

variable (op : Operator) (left : Value) (right : Literal)

@[simp]
theorem mismatch_outline : mismatch op left.outline right = mismatch op left right := by
  rw [mismatch, mismatch, left.kind_outline]

@[simp]
theorem align_outline : align op left.outline right = align op left right := by
  cases left with
  | array items => cases right <;> rfl
  | object members => cases right <;> rfl
  | _ => rfl

theorem orderFor_outline : orderFor op left.outline right = orderFor op left right := by
  simp only [orderFor, align_outline, mismatch_outline]

theorem matchText_outline : matchText op left.outline right = matchText op left right := by
  simp only [matchText, Value.scalarText?_outline, mismatch_outline]

theorem memberOf_outline (items : List Literal) :
    memberOf op left.outline items = memberOf op left items := by
  induction items with
  | nil => rfl
  | cons item rest ih => simp only [memberOf, align_outline, ih]

/-- A comparison looks at no more than the outline of a value. -/
theorem compareValue_outline : compareValue left.outline op right = compareValue left op right := by
  simp only [compareValue, Value.isNull_outline, orderFor_outline, matchText_outline,
    memberOf_outline, mismatch_outline]

end Comparison

/-! ### Agreement -/

/-- Whether attributes show the same under each of some paths: nothing, or values that have the same
outline. -/
def Attributes.AgreeOn (paths : List String) (a b : Attributes) : Prop :=
  ∀ path ∈ paths, (a.get? path).map Value.outline = (b.get? path).map Value.outline

variable {a b : Attributes}

theorem Attributes.AgreeOn.mono {paths others : List String} (h : AgreeOn paths a b)
    (hsub : others ⊆ paths) : AgreeOn others a b :=
  fun path hpath => h path (hsub hpath)

/-- Under one path, both find nothing, or both find a value. -/
theorem Attributes.AgreeOn.get? {paths : List String} (h : AgreeOn paths a b) {path : String}
    (hpath : path ∈ paths) :
    (a.get? path = none ∧ b.get? path = none)
      ∨ ∃ v w, a.get? path = some v ∧ b.get? path = some w ∧ v.outline = w.outline := by
  have hmap := h path hpath
  cases ha : a.get? path with
  | none =>
    rw [ha, Option.map_none, eq_comm, Option.map_eq_none_iff] at hmap
    exact .inl ⟨rfl, hmap⟩
  | some v =>
    rw [ha, Option.map_some, eq_comm, Option.map_eq_some_iff] at hmap
    obtain ⟨w, hb, houtline⟩ := hmap
    exact .inr ⟨v, w, rfl, hb, houtline.symm⟩

/-- The number that a field stands for, once its value is found. -/
theorem FormulaArg.number_of_get? {op : MathOp} {path : String} {value : Value}
    (h : a.get? path = some value) :
    (FormulaArg.field path).number op a
      = if value.isNull then .ok 0.0
        else match value.coerceNumber? with
          | some x => .ok x
          | none => .error (wrongField op path value) := by
  rw [number, h]
  cases value <;> rfl

theorem FormulaArg.number_congr (op : MathOp) {arg : FormulaArg}
    (h : Attributes.AgreeOn arg.field?.toList a b) : arg.number op a = arg.number op b := by
  cases arg with
  | constant x => rfl
  | field path =>
    obtain ⟨ha, hb⟩ | ⟨v, w, ha, hb, houtline⟩ := h.get? (List.mem_singleton_self path)
    · rw [number, number, ha, hb]
    · rw [number_of_get? ha, number_of_get? hb, wrongField, wrongField, ← v.isNull_outline,
        ← v.coerceNumber?_outline, ← v.kind_outline, houtline, w.isNull_outline,
        w.coerceNumber?_outline, w.kind_outline]

theorem argNumbers_congr (op : MathOp) {args : List FormulaArg}
    (h : Attributes.AgreeOn (args.filterMap FormulaArg.field?) a b) :
    argNumbers op a args = argNumbers op b args := by
  induction args with
  | nil => rfl
  | cons arg rest ih =>
    have hsplit : (arg :: rest).filterMap FormulaArg.field?
        = arg.field?.toList ++ rest.filterMap FormulaArg.field? := by
      cases arg <;> rfl
    rw [hsplit] at h
    rw [argNumbers, argNumbers, FormulaArg.number_congr op (h.mono (List.subset_append_left ..)),
      ih (h.mono (List.subset_append_right ..))]

/-- Operands have values with the same outline, or fail with the same error. -/
theorem Operand.value_congr {operand : Operand} (h : Attributes.AgreeOn operand.fields a b) :
    (operand.value a).map Value.outline = (operand.value b).map Value.outline := by
  cases operand with
  | field path =>
    rw [value, value]
    obtain ⟨ha, hb⟩ | ⟨v, w, ha, hb, houtline⟩ := h.get? (List.mem_singleton_self path)
    · rw [ha, hb]
    · rw [ha, hb]
      exact congrArg Except.ok houtline
  | formula op args => rw [value, value, evalFormula, evalFormula, argNumbers_congr op h]

theorem Clause.eval_congr {c : Clause} (h : Attributes.AgreeOn c.operand.fields a b) :
    c.eval a = c.eval b := by
  have hvalue := Operand.value_congr h
  rw [Clause.eval, Clause.eval]
  cases ha : c.operand.value a with
  | error e =>
    cases hb : c.operand.value b with
    | error e' =>
      rw [ha, hb] at hvalue
      rw [Except.error.inj hvalue]
    | ok w =>
      rw [ha, hb] at hvalue
      cases hvalue
  | ok v =>
    cases hb : c.operand.value b with
    | error e' =>
      rw [ha, hb] at hvalue
      cases hvalue
    | ok w =>
      rw [ha, hb] at hvalue
      have houtline : v.outline = w.outline := Except.ok.inj hvalue
      dsimp only
      rw [← compareValue_outline, houtline, compareValue_outline]

theorem foldClauses_congr {cs : List Clause} (h : ∀ c ∈ cs, c.eval a = c.eval b) (result : Bool)
    (joint : Connective) : foldClauses a result joint cs = foldClauses b result joint cs := by
  induction cs generalizing result joint with
  | nil => rfl
  | cons c rest ih =>
    obtain ⟨hfirst, hrest⟩ := List.forall_mem_cons.mp h
    simp only [foldClauses, hfirst, ih hrest]

/-- An expression looks at no more than its clauses do. -/
theorem Expression.eval_congr {e : Expression} (h : ∀ c ∈ e.clauses, c.eval a = c.eval b) :
    e.eval a = e.eval b := by
  obtain ⟨clauses⟩ := e
  cases clauses with
  | nil => rfl
  | cons c rest =>
    obtain ⟨hfirst, hrest⟩ := List.forall_mem_cons.mp h
    simp only [Expression.eval, hfirst, foldClauses_congr hrest]

/-! ### Missing attributes -/

/-- Numbers that cannot be reckoned with are too few or too many. -/
theorem MathOp.reckon_eq_error {op : MathOp} {xs : List Float} {err : EvalError}
    (h : op.reckon xs = .error err) : ∃ fault, err = .invalidOperation fault := by
  unfold MathOp.reckon at h
  split at h
  · exact ⟨_, (Except.error.inj h).symm⟩
  · split at h
    · cases h
    · cases h
    · split at h
      · cases h
      · exact ⟨_, (Except.error.inj h).symm⟩
    · split at h <;> cases h

/-- A formula never fails on a missing attribute, which counts as zero. -/
theorem evalFormula_ne_missingOperand {op : MathOp} {args : List FormulaArg} {path : String} :
    evalFormula op args a ≠ .error (.missingOperand path) := by
  intro h
  rw [evalFormula] at h
  obtain ⟨arg, harg, err, herr, hnumbers⟩ | ⟨-, xs, hnumbers, -⟩ := argNumbers_cases op a args
  · obtain ⟨other, value, -, rfl⟩ := argNumber_eq_error herr
    rw [hnumbers] at h
    cases h
  · rw [hnumbers] at h
    obtain ⟨fault, hfault⟩ := MathOp.reckon_eq_error h
    cases hfault

/-- A clause fails on a missing attribute only if it compares that attribute. -/
theorem Clause.field_of_missingOperand {c : Clause} {path : String}
    (h : c.eval a = .error (.missingOperand path)) :
    c.operand = .field path ∧ a.get? path = none := by
  obtain hvalue | hmismatch := Clause.operand_or_mismatch h
  · obtain ⟨other, hoperand, hnone, herr⟩ | ⟨op, args, -, hformula⟩ := Operand.value_eq_error hvalue
    · cases herr
      exact ⟨hoperand, hnone⟩
    · exact absurd hformula evalFormula_ne_missingOperand
  · obtain ⟨operator, left, right, herr⟩ := hmismatch.isTypeMismatch
    cases herr

/-! ### Expressions -/

/-- **An expression reads its own paths alone.** Attributes that show the same under each of them,
the same value or nothing, give it the same result or the same error; values may even differ in what
is inside an array or an object. And if an expression fails on a missing attribute, then that is
one of its paths, and it leads nowhere. -/
theorem reads_only_fields (e : Expression) (a : Attributes) :
    (∀ b, Attributes.AgreeOn e.fields a b → e.eval a = e.eval b)
      ∧ ∀ path, e.eval a = .error (.missingOperand path) →
          path ∈ e.fields ∧ a.get? path = none := by
  constructor
  · intro b h
    refine Expression.eval_congr fun c hc => Clause.eval_congr (h.mono ?_)
    exact fun path hpath => List.mem_flatMap.mpr ⟨c, hc, hpath⟩
  · intro path h
    have hne : e.clauses ≠ [] := by
      intro hnil
      rw [Expression.eval, hnil] at h
      cases h
    obtain ⟨c, hc, hfails⟩ := Expression.eval_eq_error hne h
    obtain ⟨hoperand, hnone⟩ := Clause.field_of_missingOperand hfails
    refine ⟨List.mem_flatMap.mpr ⟨c, hc, ?_⟩, hnone⟩
    rw [hoperand]
    exact List.mem_singleton_self path

/-- The theorem for two charges that share one attribute of a formula and lack the field behind
it. -/
theorem reads_only_fields_missing :
    let e : Expression :=
      ⟨[⟨false, .formula .sum [.field "count", .constant 2.0], .gt, .number 9.0, some .or⟩,
        ⟨true, .field "country", .eq, .text "MX", none⟩]⟩
    let a : Attributes := ⟨[("count", .number 3.0), ("amount", .number 1.0)]⟩
    let b : Attributes := ⟨[("tags", .array []), ("count", .number 3.0)]⟩
    Attributes.AgreeOn e.fields a b ∧ e.eval a = e.eval b
      ∧ e.eval b = .error (.missingOperand "country")
      ∧ "country" ∈ e.fields ∧ b.get? "country" = none := by
  intro e a b
  have hagree : Attributes.AgreeOn e.fields a b := by
    have hundotted : ∀ path ∈ e.fields, '.' ∉ path.toList := by decide
    have hkey : ∀ path ∈ e.fields, a.members.get? path = b.members.get? path :=
      List.forall_mem_cons.mpr ⟨rfl, List.forall_mem_singleton.mpr rfl⟩
    intro path hpath
    have hdot := hundotted path hpath
    rw [Attributes.get?_of_notMem hdot, Attributes.get?_of_notMem hdot, hkey path hpath]
  have hfails : e.eval b = .error (.missingOperand "country") := by decide +kernel
  exact ⟨hagree, (reads_only_fields e a).1 b hagree, hfails, (reads_only_fields e b).2 _ hfails⟩

end ChargeScreening
