import ChargeScreening.Expression.Parser

/-!
# The grammar of rule expressions

```
expression ::= clause (connective clause)*
clause     ::= ["not"] operand operator value
operand    ::= path | operation "(" argument ("," argument)+ ")"
argument   ::= path | number
value      ::= scalar | "[" scalar ("," scalar)* "]"
scalar     ::= number | quoted text | "true" | "false"
```

The grammar is a relation between whole rows of token kinds and what they stand for. It cuts a row
into parts wherever it likes, leaves nothing over, and knows neither errors nor a reading order.

## Main definitions

* `Operator.spellings`, `Connective.spellings`, `Keyword` — how keywords are written
* `Separated` — one or more items with commas between them
* `DerivesArg`, `DerivesScalar`, `DerivesOperand`, `DerivesValue`, `DerivesClause` — the parts
* `DerivesChain`, `Derives` — what a row of token kinds stands for

## Main results

* `Operator.ofWord?_iff_keyword`, `Connective.ofWord?_iff_keyword`, `MathOp.ofWord?_eq_some_iff`,
  `formulaArg?_eq_some_iff`, `scalar?_eq_some_iff` — what the reader makes of one token

## Implementation notes

Blanks around an operator, a connective or the name of an operation do not count, as they do not
for the reader. A word that is cut out of a text has none.
-/

namespace ChargeScreening

/-! ### Keywords -/

/-- How an operator is written, in lower case. -/
def Operator.spellings : Operator → List String
  | .eq => ["eq", "=="]
  | .ne => ["ne", "!="]
  | .lt => ["lt", "<"]
  | .le => ["le", "<="]
  | .gt => ["gt", ">"]
  | .ge => ["ge", ">="]
  | .co => ["co"]
  | .ew => ["ew"]
  | .isIn => ["in"]

/-- How a connective is written, in lower case. -/
def Connective.spellings : Connective → List String
  | .and => ["and", "&&"]
  | .or => ["or", "||"]

/-- A word in any case, or a symbol, that is one of some spellings. -/
inductive Keyword (spellings : List String) : TokenKind → Prop
  | word {w : String} (h : Text.asciiLower (Text.trim w) ∈ spellings) : Keyword spellings (.word w)
  | symbol {s : Symbol} (h : s.spelling ∈ spellings) : Keyword spellings (.symbol s)

/-! ### The productions -/

/-- One or more items, each a single token, with commas between them. -/
inductive Separated {α : Type} (item : TokenKind → α → Prop) : List TokenKind → List α → Prop
  | single {kind : TokenKind} {a : α} (h : item kind a) : Separated item [kind] [a]
  | more {kind : TokenKind} {a : α} {kinds : List TokenKind} {rest : List α} (h : item kind a)
      (hrest : Separated item kinds rest) : Separated item (kind :: .comma :: kinds) (a :: rest)

/-- An operand of a formula: a path or a number. -/
inductive DerivesArg : TokenKind → FormulaArg → Prop
  | field (path : String) : DerivesArg (.word path) (.field path)
  | constant (x : Float) : DerivesArg (.number x) (.constant x)

/-- A scalar: a number, a quoted text, or a truth value in any case. -/
inductive DerivesScalar : TokenKind → Literal → Prop
  | number (x : Float) : DerivesScalar (.number x) (.number x)
  | text (s : String) : DerivesScalar (.quoted s) (.text s)
  | yes {w : String} (h : Text.asciiLower w = "true") : DerivesScalar (.word w) (.bool true)
  | no {w : String} (h : Text.asciiLower w = "false") : DerivesScalar (.word w) (.bool false)

/-- The left-hand side of a clause: a path, or an operation in any case with its operands in
parentheses, of which there are two or more, and just two for a subtraction. -/
inductive DerivesOperand : List TokenKind → Operand → Prop
  | field (path : String) : DerivesOperand [.word path] (.field path)
  | formula {w : String} {op : MathOp} {kinds : List TokenKind} {args : List FormulaArg}
      (hop : Text.asciiUpper (Text.trim w) = op.word) (hargs : Separated DerivesArg kinds args)
      (hmany : 2 ≤ args.length) (hexact : op = .subtract → args.length = 2) :
      DerivesOperand (.word w :: .leftParen :: (kinds ++ [.rightParen])) (.formula op args)

/-- The right-hand side of a clause: a list in brackets behind `in`, and a single scalar behind any
other operator. -/
inductive DerivesValue : Operator → List TokenKind → Literal → Prop
  | scalar {op : Operator} {kind : TokenKind} {value : Literal} (hop : op ≠ .isIn)
      (h : DerivesScalar kind value) : DerivesValue op [kind] value
  | list {kinds : List TokenKind} {items : List Literal} (h : Separated DerivesScalar kinds items) :
      DerivesValue .isIn (.leftBracket :: (kinds ++ [.rightBracket])) (.list items)

/-- A clause without its connective. A `not` in front is the negation, and is never taken for a
path. -/
inductive DerivesClause : List TokenKind → Clause → Prop
  | plain {front back : List TokenKind} {kind : TokenKind} {operand : Operand} {op : Operator}
      {value : Literal} (hfirst : ∀ w, front.head? = some (.word w) → Text.asciiLower w ≠ "not")
      (hoperand : DerivesOperand front operand) (hop : Keyword op.spellings kind)
      (hvalue : DerivesValue op back value) :
      DerivesClause (front ++ kind :: back) ⟨false, operand, op, value, none⟩
  | negated {w : String} {front back : List TokenKind} {kind : TokenKind} {operand : Operand}
      {op : Operator} {value : Literal} (hnot : Text.asciiLower w = "not")
      (hoperand : DerivesOperand front operand) (hop : Keyword op.spellings kind)
      (hvalue : DerivesValue op back value) :
      DerivesClause (.word w :: (front ++ kind :: back)) ⟨true, operand, op, value, none⟩

/-- One or more clauses with connectives between them. A connective is kept with the clause in
front of it, and the last clause has none. -/
inductive DerivesChain : List TokenKind → List Clause → Prop
  | last {kinds : List TokenKind} {c : Clause} (h : DerivesClause kinds c) : DerivesChain kinds [c]
  | next {front back : List TokenKind} {kind : TokenKind} {c : Clause} {joint : Connective}
      {cs : List Clause} (h : DerivesClause front c) (hjoint : Keyword joint.spellings kind)
      (hrest : DerivesChain back cs) :
      DerivesChain (front ++ kind :: back) ({ c with connective := some joint } :: cs)

/-- What a row of token kinds stands for. -/
def Derives (kinds : List TokenKind) (e : Expression) : Prop :=
  DerivesChain kinds e.clauses

/-! ### What rows begin with -/

theorem Separated.exists_head {α : Type} {item : TokenKind → α → Prop} {kinds : List TokenKind}
    {items : List α} (h : Separated item kinds items) :
    ∃ kind a, kinds.head? = some kind ∧ item kind a := by
  cases h with
  | single h => exact ⟨_, _, rfl, h⟩
  | more h => exact ⟨_, _, rfl, h⟩

theorem DerivesOperand.ne_nil {kinds : List TokenKind} {operand : Operand}
    (h : DerivesOperand kinds operand) : kinds ≠ [] := by
  cases h with
  | field path => exact List.cons_ne_nil _ _
  | formula => exact List.cons_ne_nil _ _

theorem DerivesClause.ne_nil {kinds : List TokenKind} {c : Clause} (h : DerivesClause kinds c) :
    kinds ≠ [] := by
  cases h with
  | plain => exact List.append_ne_nil_of_right_ne_nil _ (List.cons_ne_nil _ _)
  | negated => exact List.cons_ne_nil _ _

theorem DerivesChain.ne_nil {kinds : List TokenKind} {cs : List Clause}
    (h : DerivesChain kinds cs) : kinds ≠ [] := by
  cases h with
  | last h => exact h.ne_nil
  | next => exact List.append_ne_nil_of_right_ne_nil _ (List.cons_ne_nil _ _)

/-- A keyword is no parenthesis. -/
theorem Keyword.ne_leftParen {spellings : List String} {kind : TokenKind}
    (h : Keyword spellings kind) : kind ≠ .leftParen := by
  cases h with
  | word => exact nofun
  | symbol => exact nofun

/-! ### Single tokens as the reader takes them -/

theorem Operator.ofWord?_eq_some_iff {s : String} {op : Operator} :
    Operator.ofWord? s = some op ↔ Text.asciiLower (Text.trim s) ∈ op.spellings := by
  rw [Operator.ofWord?]
  constructor
  · intro h
    split at h <;> cases h <;> rename_i heq <;> rw [heq] <;> decide
  · intro h
    generalize Text.asciiLower (Text.trim s) = t at h ⊢
    revert t
    cases op <;> decide

theorem Connective.ofWord?_eq_some_iff {s : String} {joint : Connective} :
    Connective.ofWord? s = some joint ↔ Text.asciiLower (Text.trim s) ∈ joint.spellings := by
  rw [Connective.ofWord?]
  constructor
  · intro h
    split at h <;> cases h <;> rename_i heq <;> rw [heq] <;> decide
  · intro h
    generalize Text.asciiLower (Text.trim s) = t at h ⊢
    revert t
    cases joint <;> decide

theorem MathOp.ofWord?_eq_some_iff {s : String} {op : MathOp} :
    MathOp.ofWord? s = some op ↔ Text.asciiUpper (Text.trim s) = op.word := by
  rw [MathOp.ofWord?]
  constructor
  · intro h
    split at h <;> cases h <;> assumption
  · intro h
    rw [h]
    cases op <;> rfl

/-- A token is a keyword just if its text, which other tokens lack, is one of the spellings. -/
theorem keyword_iff {spellings : List String} (hempty : "" ∉ spellings) {kind : TokenKind} :
    Keyword spellings kind ↔ Text.asciiLower (Text.trim kind.wordText) ∈ spellings := by
  have hsymbol (s : Symbol) : Text.asciiLower (Text.trim s.spelling) = s.spelling := by
    cases s <;> decide
  constructor
  · intro h
    cases h with
    | word h => exact h
    | symbol h => rwa [TokenKind.wordText, hsymbol]
  · intro h
    cases kind with
    | word w => exact .word h
    | symbol s =>
      rw [TokenKind.wordText, hsymbol] at h
      exact .symbol h
    | _ =>
      have hnone : Text.asciiLower (Text.trim "") = "" := by decide
      exact absurd (hnone ▸ h) hempty

theorem Operator.ofWord?_iff_keyword {kind : TokenKind} {op : Operator} :
    Operator.ofWord? kind.wordText = some op ↔ Keyword op.spellings kind := by
  rw [Operator.ofWord?_eq_some_iff, keyword_iff (by cases op <;> decide)]

theorem Connective.ofWord?_iff_keyword {kind : TokenKind} {joint : Connective} :
    Connective.ofWord? kind.wordText = some joint ↔ Keyword joint.spellings kind := by
  rw [Connective.ofWord?_eq_some_iff, keyword_iff (by cases joint <;> decide)]

theorem isKeyword_iff {kind : TokenKind} {keyword : String} :
    kind.isKeyword keyword = true ↔ ∃ w, kind = .word w ∧ Text.asciiLower w = keyword := by
  cases kind <;> simp [TokenKind.isKeyword]

theorem formulaArg?_eq_some_iff {kind : TokenKind} {arg : FormulaArg} :
    kind.formulaArg? = some arg ↔ DerivesArg kind arg := by
  constructor
  · intro h
    cases kind <;> cases h
    · exact .field _
    · exact .constant _
  · rintro (_ | _) <;> rfl

theorem scalar?_eq_some_iff {kind : TokenKind} {value : Literal} :
    kind.scalar? = some value ↔ DerivesScalar kind value := by
  constructor
  · intro h
    unfold TokenKind.scalar? at h
    split at h
    · cases h
      exact .number _
    · cases h
      exact .text _
    · split at h
      · next hyes =>
        cases h
        exact .yes (eq_of_beq hyes)
      · split at h
        · next hno =>
          cases h
          exact .no (eq_of_beq hno)
        · cases h
    · cases h
  · intro h
    cases h with
    | number x => rfl
    | text s => rfl
    | yes h => simp [TokenKind.scalar?, h]
    | no h => simp [TokenKind.scalar?, h]

theorem MathOp.accepts_iff {op : MathOp} {count : Nat} :
    op.accepts count = true ↔ 2 ≤ count ∧ (op = .subtract → count = 2) := by
  have hsame : 2 = count ↔ count = 2 := eq_comm
  cases op <;> simp [MathOp.accepts, MathOp.arity?, hsame]

end ChargeScreening
