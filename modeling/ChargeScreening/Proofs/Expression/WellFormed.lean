import ChargeScreening.Proofs.Expression.Lexing

/-!
# Expressions that rule text can spell

An expression is a tree and its text a row of tokens, and not every tree has a text of its own. A
path with a blank inside is two words, a leading `not` is always read as the negation, and the
connective of the last clause is not written at all.

## Main definitions

* `Operand.isWorded`, `Operand.hasCount`, `Literal.fits` — what a clause has to meet
* `Clause.WellFormed`, `Expression.WellFormed` — expressions that a text can spell
* `Expression.settled` — the expression with the connectives that its text shows
* `Expression.numbers` — the doubles in an expression

## Main results

* `map_settle` — settling changes nothing but connectives
-/

namespace ChargeScreening

/-! ### The parts of a clause -/

/-- Whether a formula operand is spelled as one token: a path has to be a word. -/
def FormulaArg.isWorded : FormulaArg → Bool
  | .field path => isWord path
  | .constant _ => true

/-- Whether an operand is spelled with words. A field that follows no `not` must not be that word
itself, which would be read as the negation. -/
def Operand.isWorded (negated : Bool) : Operand → Bool
  | .field path => isWord path && (negated || Text.asciiLower path != "not")
  | .formula _ args => args.all FormulaArg.isWorded

/-- Behind a `not`, words are all that an operand has to be spelled with. -/
theorem Operand.isWorded_behind_not {operand : Operand} {negated : Bool}
    (h : operand.isWorded negated = true) : operand.isWorded true = true := by
  cases operand with
  | field path =>
    rw [isWorded, Bool.and_eq_true] at h
    rw [isWorded, h.1]
    rfl
  | formula op args => exact h

/-- Whether a formula has as many operands as its operation takes. -/
def Operand.hasCount : Operand → Bool
  | .field _ => true
  | .formula op args => op.accepts args.length

/-- Whether a literal is a single number, text or truth value. -/
def Literal.isScalar : Literal → Bool
  | .list _ => false
  | _ => true

/-- Whether a literal can stand behind an operator: a list of scalars behind `in`, and a scalar
behind any other. -/
def Literal.fits (op : Operator) : Literal → Bool
  | .list items => op == .isIn && !items.isEmpty && items.all Literal.isScalar
  | _ => op != .isIn

/-- A scalar stands behind every operator but `in`. -/
theorem fits_of_isScalar {value : Literal} {op : Operator} (h : value.isScalar = true)
    (hop : op ≠ .isIn) : value.fits op = true := by
  cases value with
  | list items => cases h
  | number x => exact bne_iff_ne.mpr hop
  | text s => exact bne_iff_ne.mpr hop
  | bool b => exact bne_iff_ne.mpr hop

/-- A clause that a text can spell. -/
structure Clause.WellFormed (c : Clause) : Prop where
  /-- Its paths are words. -/
  worded : c.operand.isWorded c.negated = true
  /-- Its formula has the operands it needs. -/
  counted : c.operand.hasCount = true
  /-- Its literal is one that the operator takes. -/
  fitting : c.value.fits c.operator = true

/-- An expression that a text can spell. -/
structure Expression.WellFormed (e : Expression) : Prop where
  nonempty : e.clauses ≠ []
  clauses : ∀ c ∈ e.clauses, c.WellFormed

/-! ### The connectives that a text shows -/

/-- Clauses with the connectives that their text shows: `and` where none is given, and none on the
last clause. -/
def settle : List Clause → List Clause
  | [] => []
  | [c] => [{ c with connective := none }]
  | c :: d :: rest =>
    { c with connective := some (c.connective.getD .and) } :: settle (d :: rest)

/-- The expression with the connectives that its text shows. -/
def Expression.settled (e : Expression) : Expression :=
  ⟨settle e.clauses⟩

/-- Settling changes nothing but connectives. -/
theorem map_settle {α : Type} {f : Clause → α}
    (hf : ∀ (c : Clause) (joint : Option Connective), f { c with connective := joint } = f c)
    (cs : List Clause) : (settle cs).map f = cs.map f := by
  fun_induction settle cs with
  | case1 => rfl
  | case2 c => rw [List.map_singleton, List.map_singleton, hf]
  | case3 c d rest ih => rw [List.map_cons, List.map_cons, ih, hf]

/-- Settling keeps every clause. -/
theorem length_settle (cs : List Clause) : (settle cs).length = cs.length := by
  have hunits := map_settle (f := fun _ => ()) (fun _ _ => rfl) cs
  rw [← List.length_map (f := fun _ => ()), hunits, List.length_map]

/-! ### Numbers -/

mutual

/-- The numbers that a literal is written with. -/
def Literal.numbers : Literal → List Float
  | .number x => [x]
  | .list items => Literal.itemNumbers items
  | _ => []

/-- The numbers that the items of a list are written with. -/
def Literal.itemNumbers : List Literal → List Float
  | [] => []
  | item :: rest => item.numbers ++ Literal.itemNumbers rest

end

theorem Literal.itemNumbers_eq_flatMap (items : List Literal) :
    Literal.itemNumbers items = items.flatMap Literal.numbers := by
  induction items with
  | nil => rfl
  | cons item rest ih => rw [Literal.itemNumbers, ih, List.flatMap_cons]

theorem Literal.mem_itemNumbers {items : List Literal} {item : Literal} (hitem : item ∈ items)
    {x : Float} (hx : x ∈ item.numbers) : x ∈ Literal.itemNumbers items := by
  rw [Literal.itemNumbers_eq_flatMap]
  exact List.mem_flatMap.mpr ⟨item, hitem, hx⟩

/-- The numbers that a formula operand is written with. -/
def FormulaArg.numbers : FormulaArg → List Float
  | .field _ => []
  | .constant x => [x]

/-- The numbers that an operand is written with. -/
def Operand.numbers : Operand → List Float
  | .field _ => []
  | .formula _ args => args.flatMap FormulaArg.numbers

/-- The numbers that a clause is written with. -/
def Clause.numbers (c : Clause) : List Float :=
  c.operand.numbers ++ c.value.numbers

/-- The numbers that an expression is written with. -/
def Expression.numbers (e : Expression) : List Float :=
  e.clauses.flatMap Clause.numbers

end ChargeScreening
