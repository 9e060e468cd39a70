import ChargeScreening.Proofs.Expression.WellFormed

/-!
# The tokens of the canonical text

The text of an expression splits into exactly the tokens one would write down for it, one path or
keyword or number after the other. Everything is said of a piece in front of any text that does not
extend it, so that pieces can be put together.

## Main definitions

* `Spells` — a text that splits into tokens of given kinds, in front of anything closed
* `Operand.kinds`, `Literal.kinds`, `Clause.kinds`, `clauseKinds` — the token kinds to expect

## Main results

* `spells_renderClauses` — a chain of clauses splits into the token kinds to expect
-/

namespace ChargeScreening

/-! ### Texts in front of others -/

/-- In front of any closed text, the text adds tokens of these kinds and leaves the rest as it
is. -/
def Spells (s : String) (kinds : List TokenKind) : Prop :=
  ∀ rest others, Closed rest → Lexes rest others → Lexes (s.toList ++ rest) (kinds ++ others)

namespace Spells

theorem lexes {s : String} {kinds : List TokenKind} (h : Spells s kinds) :
    Lexes s.toList kinds := by
  have hs := h [] [] Closed.nil Lexes.nil
  rwa [List.append_nil, List.append_nil] at hs

theorem word {w : String} (hw : isWord w = true) : Spells w [.word w] :=
  fun _ _ hclosed hrest => Lexes.word hw hclosed hrest

theorem quoted (s : String) : Spells (Literal.quoted s) [.quoted s] :=
  fun _ _ _ hrest => Lexes.quoted s hrest

theorem number {x : Float} (hx : Decimal.Faithful x) :
    Spells (Decimal.ruleText x) [.number (Decimal.reread x)] :=
  fun _ _ hclosed hrest =>
    Lexes.number (Decimal.isPlainNumber_ruleText hx.finite) hx.readsBack.1 hclosed hrest

/-- Two texts with a blank between them. -/
theorem join {s t : String} {kinds others : List TokenKind} (hs : Spells s kinds)
    (ht : Spells t others) : Spells (s ++ " " ++ t) (kinds ++ others) := by
  intro rest more hclosed hrest
  have hrest' : Lexes (' ' :: (t.toList ++ rest)) (others ++ more) :=
    Lexes.blank (by decide) (ht rest more hclosed hrest)
  have hlexes := hs _ _ (Closed.cons (by decide) _) hrest'
  simpa [String.toList_append, List.append_assoc] using hlexes

/-- A text between brackets. -/
theorem enclosed {left right : Char} {s : String} {kinds : List TokenKind}
    {opening closing : TokenKind} (hleft : punctuation? left = some opening)
    (hright : punctuation? right = some closing) (hs : Spells s kinds) :
    Spells (String.singleton left ++ s ++ String.singleton right)
      (opening :: (kinds ++ [closing])) := by
  intro rest more _ hrest
  have hend : endsLexeme right = true := by simp [endsLexeme, hright]
  have hrest' : Lexes (right :: rest) (closing :: more) := Lexes.punctuation hright hrest
  have hlexes := Lexes.punctuation hleft (hs _ _ (Closed.cons hend rest) hrest')
  simpa [String.toList_append, List.append_assoc] using hlexes

/-- Texts with commas between them. -/
theorem separated {α : Type} {render : α → String} {kinds : α → List TokenKind} {items : List α}
    (hitems : ∀ a ∈ items, Spells (render a) (kinds a)) :
    Spells (String.intercalate "," (items.map render))
      (List.intercalate [.comma] (items.map kinds)) := by
  induction items with
  | nil =>
    intro rest more _ hrest
    simpa using hrest
  | cons a items ih =>
    cases items with
    | nil => simpa using hitems a (List.mem_cons_self ..)
    | cons b items =>
      intro rest more hclosed hrest
      have htail := ih (fun x hx => hitems x (List.mem_cons_of_mem _ hx)) rest more hclosed hrest
      have hcomma := Lexes.punctuation (show punctuation? ',' = some .comma from rfl) htail
      have hlexes := hitems a (List.mem_cons_self ..) _ _ (Closed.cons (by decide) _) hcomma
      simpa [String.toList_append, List.append_assoc] using hlexes

end Spells

/-! ### Operands -/

/-- The token kind of a formula operand. -/
def FormulaArg.kind : FormulaArg → TokenKind
  | .field path => .word path
  | .constant x => .number (Decimal.reread x)

/-- The token kinds of an operand. -/
def Operand.kinds : Operand → List TokenKind
  | .field path => [.word path]
  | .formula op args =>
    .word op.word :: .leftParen :: (List.intercalate [.comma] (args.map fun a => [a.kind])
      ++ [.rightParen])

theorem FormulaArg.spells_render {a : FormulaArg} (hword : a.isWorded = true)
    (hnumber : ∀ x ∈ a.numbers, Decimal.Faithful x) : Spells a.render [a.kind] := by
  cases a with
  | field path => exact Spells.word hword
  | constant x => exact Spells.number (hnumber x (List.mem_singleton_self x))

theorem MathOp.isWord_word (op : MathOp) : isWord op.word = true := by
  cases op <;> decide

/-- A formula is the word of its operation, a blank, and its operands in parentheses. -/
theorem Operand.render_formula (op : MathOp) (args : List FormulaArg) :
    (Operand.formula op args).render
      = op.word ++ " " ++ ("(" ++ String.intercalate "," (args.map FormulaArg.render) ++ ")") := by
  rw [Operand.render, show " (" = " " ++ "(" by decide]
  simp only [String.append_assoc]

theorem Operand.spells_render {operand : Operand} {negated : Bool}
    (hword : operand.isWorded negated = true)
    (hnumber : ∀ x ∈ operand.numbers, Decimal.Faithful x) :
    Spells operand.render operand.kinds := by
  cases operand with
  | field path => exact Spells.word (Bool.and_eq_true_iff.mp hword).1
  | formula op args =>
    have hargs : ∀ a ∈ args, Spells a.render [a.kind] := by
      intro a ha
      refine FormulaArg.spells_render (List.all_eq_true.mp hword a ha) fun x hx => hnumber x ?_
      exact List.mem_flatMap.mpr ⟨a, ha, hx⟩
    have hleft : punctuation? '(' = some .leftParen := rfl
    have hright : punctuation? ')' = some .rightParen := rfl
    have hcall := Spells.join (Spells.word op.isWord_word)
      (Spells.enclosed hleft hright (Spells.separated hargs))
    rw [Operand.render_formula]
    exact hcall

/-! ### Literals -/

/-- The token kinds of a scalar. -/
def Literal.scalarKinds : Literal → List TokenKind
  | .number x => [.number (Decimal.reread x)]
  | .text s => [.quoted s]
  | .bool b => [.word (Value.boolText b)]
  | .list _ => []

/-- The token kinds of a literal: those of a scalar, or of scalars in brackets. -/
def Literal.kinds : Literal → List TokenKind
  | .list items =>
    .leftBracket :: (List.intercalate [.comma] (items.map Literal.scalarKinds) ++ [.rightBracket])
  | value => value.scalarKinds

theorem Literal.spells_scalar {value : Literal} (hscalar : value.isScalar = true)
    (hnumber : ∀ x ∈ value.numbers, Decimal.Faithful x) :
    Spells value.render value.scalarKinds := by
  cases value with
  | number x => exact Spells.number (hnumber x (List.mem_singleton_self x))
  | text s => exact Spells.quoted s
  | bool b =>
    rw [Literal.render]
    exact Spells.word (by cases b <;> decide)
  | list items => cases hscalar

theorem Literal.renderItems_eq_map (items : List Literal) :
    Literal.renderItems items = items.map Literal.render := by
  induction items with
  | nil => rfl
  | cons item rest ih => rw [Literal.renderItems, ih, List.map_cons]

theorem Literal.spells_render {value : Literal} {op : Operator} (hfits : value.fits op = true)
    (hnumber : ∀ x ∈ value.numbers, Decimal.Faithful x) : Spells value.render value.kinds := by
  cases value with
  | number x => exact Literal.spells_scalar rfl hnumber
  | text s => exact Literal.spells_scalar rfl hnumber
  | bool b => exact Literal.spells_scalar rfl hnumber
  | list items =>
    have hscalars : ∀ item ∈ items, item.isScalar = true :=
      List.all_eq_true.mp (Bool.and_eq_true_iff.mp hfits).2
    have hitems : ∀ item ∈ items, Spells item.render item.scalarKinds := fun item hitem =>
      Literal.spells_scalar (hscalars item hitem) fun x hx =>
        hnumber x (Literal.mem_itemNumbers hitem hx)
    have hleft : punctuation? '[' = some .leftBracket := rfl
    have hright : punctuation? ']' = some .rightBracket := rfl
    have hlist := Spells.enclosed hleft hright (Spells.separated hitems)
    rw [Literal.render, Literal.renderItems_eq_map]
    exact hlist

/-! ### Clauses -/

/-- The token kinds of a clause, without its connective. -/
def Clause.kinds (c : Clause) : List TokenKind :=
  (if c.negated then [.word "not"] else [])
    ++ (c.operand.kinds ++ .word c.operator.word :: c.value.kinds)

/-- The token kinds of a chain of clauses. -/
def clauseKinds : List Clause → List TokenKind
  | [] => []
  | [c] => c.kinds
  | c :: d :: rest => c.kinds ++ .word (c.connective.getD .and).word :: clauseKinds (d :: rest)

theorem Operator.isWord_word (op : Operator) : isWord op.word = true := by
  cases op <;> decide

theorem Connective.isWord_word (joint : Connective) : isWord joint.word = true := by
  cases joint <;> decide

theorem Clause.spells_render {c : Clause} (hword : c.operand.isWorded true = true)
    (hfits : c.value.fits c.operator = true) (hnumber : ∀ x ∈ c.numbers, Decimal.Faithful x) :
    Spells c.render c.kinds := by
  have hoperand : Spells c.operand.render c.operand.kinds :=
    Operand.spells_render hword fun x hx => hnumber x (List.mem_append_left _ hx)
  have hvalue : Spells c.value.render c.value.kinds :=
    Literal.spells_render hfits fun x hx => hnumber x (List.mem_append_right _ hx)
  have hbody := Spells.join (Spells.join hoperand (Spells.word c.operator.isWord_word)) hvalue
  cases hneg : c.negated with
  | false =>
    simpa [Clause.render, Clause.kinds, hneg, String.append_assoc] using hbody
  | true =>
    have hnot := Spells.join (Spells.word (w := "not") (by decide)) hbody
    simpa [Clause.render, Clause.kinds, hneg, String.append_assoc] using hnot

/-- **The text of a chain of clauses splits into the tokens to expect.** -/
theorem spells_renderClauses {cs : List Clause}
    (hword : ∀ c ∈ cs, c.operand.isWorded true = true)
    (hfits : ∀ c ∈ cs, c.value.fits c.operator = true)
    (hnumber : ∀ c ∈ cs, ∀ x ∈ c.numbers, Decimal.Faithful x) :
    Spells (renderClauses cs) (clauseKinds cs) := by
  induction cs with
  | nil => exact fun _ _ _ hrest => hrest
  | cons c cs ih =>
    have hc : Spells c.render c.kinds :=
      Clause.spells_render (hword c (List.mem_cons_self ..)) (hfits c (List.mem_cons_self ..))
        (hnumber c (List.mem_cons_self ..))
    have hcs := ih (fun d hd => hword d (List.mem_cons_of_mem _ hd))
      (fun d hd => hfits d (List.mem_cons_of_mem _ hd))
      (fun d hd => hnumber d (List.mem_cons_of_mem _ hd))
    cases cs with
    | nil => exact hc
    | cons d rest =>
      have hjoint := Spells.word (c.connective.getD .and).isWord_word
      have hchain := Spells.join (Spells.join hc hjoint) hcs
      simpa [renderClauses, clauseKinds, String.append_assoc] using hchain

end ChargeScreening
