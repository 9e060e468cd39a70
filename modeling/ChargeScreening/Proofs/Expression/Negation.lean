import ChargeScreening.Proofs.Expression.Pieces
import ChargeScreening.Proofs.Expression.Roundtrip

/-!
# The word `not`

At the front of a clause the word `not` is always the negation, in any case. So it can be put in
front of a text that starts with none, and negates the first clause. And a field of that name can be
read only behind another `not`: without one, the reader takes the field for the negation, the
operator for the field, and finds no operator.

## Main results

* `parse_not` — a `not` in front of a text
* `parse_render_eq_ok_iff` — a text spelled with words is read just if no field is taken for `not`
-/

namespace ChargeScreening

/-! ### In front of a text -/

/-- A clause that starts with no `not` is negated by one. -/
theorem DerivesClause.negate {kinds : List TokenKind} {c : Clause} (h : DerivesClause kinds c)
    (hplain : c.negated = false) :
    DerivesClause (.word "not" :: kinds) { c with negated := true } := by
  cases h with
  | plain hfirst hoperand hop hvalue => exact .negated (by decide) hoperand hop hvalue
  | negated => cases hplain

theorem DerivesChain.negate {kinds : List TokenKind} {c : Clause} {cs : List Clause}
    (h : DerivesChain kinds (c :: cs)) (hplain : c.negated = false) :
    DerivesChain (.word "not" :: kinds) ({ c with negated := true } :: cs) := by
  cases h with
  | last h => exact .last (h.negate hplain)
  | next h hjoint hrest => exact .next (h.negate hplain) hjoint hrest

/-- **A `not` in front of a text negates its first clause**, if that starts with none. -/
theorem parse_not {text : String} {c : Clause} {cs : List Clause}
    (h : Expression.parse text = .ok ⟨c :: cs⟩) (hplain : c.negated = false) :
    Expression.parse ("not " ++ text) = .ok ⟨{ c with negated := true } :: cs⟩ := by
  obtain ⟨ts, hts, hderives⟩ := exists_tokens_of_parse h
  have hspelled : ("not " ++ text).toList = "not".toList ++ ' ' :: text.toList := by
    rw [String.toList_append]
    rfl
  have hlexes : Lexes ("not " ++ text).toList (.word "not" :: ts.map Token.kind) := by
    rw [hspelled]
    exact Lexes.word (by decide) (Closed.cons (by decide) _)
      (Lexes.blank (by decide) (lexes_of_tokensFrom hts))
  obtain ⟨ts', hparse, hkinds⟩ := parse_of_lexes hlexes (List.cons_ne_nil _ _)
  rw [hparse, ofTokens_eq_ok_iff, hkinds]
  exact DerivesChain.negate hderives hplain

/-! ### In the place of a field -/

/-- No literal starts with an operator or with a parenthesis. -/
theorem Literal.exists_kinds (value : Literal) :
    ∃ kind others, value.kinds = kind :: others ∧ Operator.ofWord? kind.wordText = none
      ∧ kind ≠ .leftParen := by
  have hempty : Operator.ofWord? "" = none := by decide
  cases value with
  | number x => exact ⟨_, _, rfl, hempty, nofun⟩
  | text s => exact ⟨_, _, rfl, hempty, nofun⟩
  | bool b => exact ⟨_, _, rfl, by cases b <;> decide, nofun⟩
  | list items => exact ⟨_, _, rfl, hempty, nofun⟩

/-- What an operand spelled with words is that must not stand behind no `not`. -/
theorem Operand.eq_field_of_not_isWorded {operand : Operand} {negated : Bool}
    (hword : operand.isWorded true = true) (hnot : operand.isWorded negated = false) :
    negated = false ∧ ∃ path, operand = .field path ∧ Text.asciiLower path = "not" := by
  cases operand with
  | formula op args => exact absurd (hnot.symm.trans hword) (by decide)
  | field path =>
    rw [isWorded, Bool.true_or, Bool.and_true] at hword
    rw [isWorded, hword, Bool.true_and, Bool.or_eq_false_iff, bne_eq_false_iff_eq] at hnot
    exact ⟨hnot.1, path, rfl, hnot.2⟩

/-- A field that is the word `not` is read as the negation, and then the operator is missing. -/
theorem readClause_of_not_isWorded {c : Clause} (hword : c.operand.isWorded true = true)
    (hnot : c.operand.isWorded c.negated = false) {ts : List Token} {others : List TokenKind}
    (h : ts.map Token.kind = c.kinds ++ others) : ∃ err, readClause ts = .error err := by
  obtain ⟨hneg, path, hoperand, hpath⟩ := Operand.eq_field_of_not_isWorded hword hnot
  obtain ⟨kind, more, hkinds, hoperator, hparen⟩ := c.value.exists_kinds
  have hrow : ts.map Token.kind
      = .word path :: .word c.operator.word :: kind :: (more ++ others) := by
    rw [h, Clause.kinds, hneg, hoperand, Operand.kinds, hkinds]
    rfl
  obtain ⟨first, _, rfl, hfirst, h₁⟩ := List.map_eq_cons_iff.mp hrow
  obtain ⟨⟨_, position⟩, _, rfl, rfl, h₂⟩ := List.map_eq_cons_iff.mp h₁
  obtain ⟨third, rest, rfl, rfl, -⟩ := List.map_eq_cons_iff.mp h₂
  have hread : readNot (first :: ⟨.word c.operator.word, position⟩ :: third :: rest)
      = (true, ⟨.word c.operator.word, position⟩ :: third :: rest) := by
    rw [readNot, if_pos (isKeyword_iff.mpr ⟨path, hfirst, hpath⟩)]
  have hfield : readOperand (⟨.word c.operator.word, position⟩ :: third :: rest)
      = .ok (.field c.operator.word, third :: rest) := by
    have hderives : DerivesOperand ([⟨.word c.operator.word, position⟩].map Token.kind)
        (.field c.operator.word) := .field _
    refine readOperand_of_derivesOperand hderives fun t ht => ?_
    cases ht
    exact hparen
  refine ⟨third.unexpected .operator, ?_⟩
  simp only [readClause, hread, hfield, readOperator, hoperator]

theorem readClauses_of_error {ts : List Token} {err : ParseError}
    (h : readClause ts = .error err) : readClauses ts = .error err := by
  rw [readClauses]
  split
  · next e he =>
    rw [h] at he
    cases he
    rfl
  · next he =>
    rw [h] at he
    cases he

/-- A chain of clauses that are spelled with words is read only if none of them has a field that is
taken for the negation. -/
theorem isWorded_of_readClauses {cs cs' : List Clause}
    (hword : ∀ c ∈ cs, c.operand.isWorded true = true)
    (hfits : ∀ c ∈ cs, c.value.fits c.operator = true) {ts : List Token}
    (h : ts.map Token.kind = clauseKinds cs) (hread : readClauses ts = .ok cs') :
    ∀ c ∈ cs, c.operand.isWorded c.negated = true := by
  induction cs generalizing ts cs' with
  | nil => exact nofun
  | cons c cs ih =>
    obtain ⟨others, hkinds⟩ : ∃ others, clauseKinds (c :: cs) = c.kinds ++ others := by
      cases cs with
      | nil => exact ⟨[], (List.append_nil _).symm⟩
      | cons d cs => exact ⟨_, rfl⟩
    have hfirst : c.operand.isWorded c.negated = true := by
      by_contra hnot
      obtain ⟨err, herr⟩ := readClause_of_not_isWorded (hword c (List.mem_cons_self ..))
        (Bool.eq_false_iff.mpr hnot) (h.trans hkinds)
      rw [readClauses_of_error herr] at hread
      cases hread
    refine List.forall_mem_cons.mpr ⟨hfirst, ?_⟩
    cases cs with
    | nil => exact nofun
    | cons d cs =>
      obtain ⟨left, hclause, hleft⟩ := readClause_kinds hfirst (hfits c (List.mem_cons_self ..)) h
      obtain ⟨rest, hjoint, hrest⟩ := readJoint_kinds hleft
      rw [readClauses_of_readClause hclause, hjoint] at hread
      cases hcount : c.operand.checkCount with
      | error e =>
        rw [hcount] at hread
        cases hread
      | ok u =>
        rw [hcount] at hread
        cases htail : readClauses rest with
        | error e =>
          simp only [bind, Except.bind, htail] at hread
          cases hread
        | ok tail =>
          exact ih (fun x hx => hword x (List.mem_cons_of_mem _ hx))
            (fun x hx => hfits x (List.mem_cons_of_mem _ hx)) hrest htail

/-- **A text that is spelled with words is read just if no field is taken for the negation.** -/
theorem parse_render_eq_ok_iff {e : Expression} (hne : e.clauses ≠ [])
    (hword : ∀ c ∈ e.clauses, c.operand.isWorded true = true)
    (hcount : ∀ c ∈ e.clauses, c.operand.hasCount = true)
    (hfits : ∀ c ∈ e.clauses, c.value.fits c.operator = true)
    (hfinite : ∀ x ∈ e.numbers, x.isFinite = true) :
    (∃ e', Expression.parse e.render = .ok e')
      ↔ ∀ c ∈ e.clauses, c.operand.isWorded c.negated = true := by
  have hnumber : ∀ x ∈ e.numbers, Decimal.Faithful x :=
    fun x hx => Decimal.faithful_of_isFinite (hfinite x hx)
  constructor
  · rintro ⟨e', hparse⟩
    obtain ⟨ts, hread, hts⟩ := parse_render_eq_ofTokens hne hword hfits hnumber
    rw [hread] at hparse
    obtain ⟨cs, hcs, -⟩ := exists_of_map_eq_ok hparse
    exact isWorded_of_readClauses hword hfits hts hcs
  · intro hplain
    exact ⟨_, parse_render_eq_settled
      ⟨hne, fun c hc => ⟨hplain c hc, hcount c hc, hfits c hc⟩⟩ hnumber⟩

end ChargeScreening
