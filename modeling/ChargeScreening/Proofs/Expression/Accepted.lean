import ChargeScreening.Proofs.Expression.Parsing

/-!
# What the reader accepts

Whatever text the reader accepts, the expression it returns is well formed: the reader takes paths
from tokens, and a token is a word only if it is spelled as one. So a text can never smuggle in a
path that would read differently when it is written out again.

## Main definitions

* `Worded` — tokens whose words are spelled as words

## Main results

* `parse_wellFormed` — every parsed expression is well formed
-/

namespace ChargeScreening

/-! ### Counts of operands -/

theorem checkArity_eq_ok_iff (op : MathOp) (count : Nat) :
    checkArity op count = .ok () ↔ op.accepts count = true := by
  rw [checkArity, MathOp.accepts]
  by_cases h : count < 2
  · have hfew : ¬2 ≤ count := by omega
    simp [h, hfew]
  · have hmany : 2 ≤ count := by omega
    cases op.arity? with
    | none => simp [h, hmany]
    | some arity =>
      by_cases ha : count = arity
      · subst ha
        simp [h, hmany]
      · have ha' : ¬arity = count := fun heq => ha heq.symm
        simp [h, ha, ha']

/-! ### Tokens with words -/

/-- Tokens whose words are spelled as words. -/
def Worded (ts : List Token) : Prop :=
  ∀ t ∈ ts, ∀ w, t.kind = .word w → isWord w = true

theorem Worded.tail {t : Token} {ts : List Token} (h : Worded (t :: ts)) : Worded ts :=
  fun s hs => h s (List.mem_cons_of_mem _ hs)

theorem Worded.head {t : Token} {ts : List Token} (h : Worded (t :: ts)) {w : String}
    (hw : t.kind = .word w) : isWord w = true :=
  h t (List.mem_cons_self ..) w hw

theorem isWorded_of_formulaArg? {t : Token} {ts : List Token} (h : Worded (t :: ts))
    {arg : FormulaArg} (harg : t.kind.formulaArg? = some arg) : arg.isWorded = true := by
  unfold TokenKind.formulaArg? at harg
  split at harg
  · next w hw =>
    cases harg
    exact h.head hw
  · cases harg
    rfl
  · cases harg

theorem readArgs_worded {ts rest : List Token} {args : List FormulaArg} (hts : Worded ts)
    (h : readArgs ts = .ok (args, rest)) :
    args.all FormulaArg.isWorded = true ∧ Worded rest := by
  fun_induction readArgs ts generalizing args rest with
  | case1 | case2 | case3 | case4 | case7 => cases h
  | case5 t s left arg harg _ ih =>
    cases hleft : readArgs left with
    | error e =>
      rw [hleft] at h
      cases h
    | ok p =>
      obtain ⟨args', rest'⟩ := p
      rw [hleft] at h
      cases h
      obtain ⟨hargs, hrest⟩ := ih hts.tail.tail hleft
      rw [List.all_cons, isWorded_of_formulaArg? hts harg, hargs]
      exact ⟨rfl, hrest⟩
  | case6 t s left arg harg _ =>
    cases h
    rw [List.all_cons, isWorded_of_formulaArg? hts harg]
    exact ⟨rfl, hts.tail.tail⟩

theorem readCall_worded {ts rest : List Token} {args : List FormulaArg} (hts : Worded ts)
    (h : readCall ts = .ok (args, rest)) :
    args.all FormulaArg.isWorded = true ∧ Worded rest := by
  unfold readCall at h
  split at h
  · cases h
    exact ⟨rfl, hts.tail⟩
  · exact readArgs_worded hts h

/-- An operand that is read has words for paths and the operands it needs. Read behind no `not`,
it is not that word, since the reader would have taken it for the negation. -/
theorem readOperand_worded {ts rest : List Token} {operand : Operand} (hts : Worded ts)
    (h : readOperand ts = .ok (operand, rest)) (negated : Bool)
    (hnot : negated = false → ∀ t ∈ ts.head?, t.kind.isKeyword "not" = false) :
    operand.isWorded negated = true ∧ operand.hasCount = true ∧ Worded rest := by
  unfold readOperand at h
  split at h
  · cases h
  · split at h
    · next op hop =>
      rw [readFormula] at h
      split at h
      · cases h
      · next args left hcall =>
        cases hcount : checkArity op args.length with
        | error e =>
          rw [hcount] at h
          cases h
        | ok u =>
          rw [hcount] at h
          cases h
          obtain ⟨hargs, hrest⟩ := readCall_worded hts.tail.tail hcall
          exact ⟨hargs, (checkArity_eq_ok_iff op _).mp hcount, hrest⟩
    · cases h
  · next name position left _ =>
    cases h
    refine ⟨?_, rfl, hts.tail⟩
    rw [Operand.isWorded, hts.head rfl, Bool.true_and]
    cases negated with
    | true => rfl
    | false =>
      have hname := hnot rfl _ rfl
      simpa [TokenKind.isKeyword] using hname
  · cases h

/-! ### Literals -/

theorem isScalar_of_scalar? {kind : TokenKind} {value : Literal} (h : kind.scalar? = some value) :
    value.isScalar = true := by
  unfold TokenKind.scalar? at h
  split at h
  · cases h
    rfl
  · cases h
    rfl
  · split at h
    · cases h
      rfl
    · split at h <;> cases h
      rfl
  · cases h

theorem readItems_scalars {ts rest : List Token} {items : List Literal} (hts : Worded ts)
    (h : readItems ts = .ok (items, rest)) :
    items ≠ [] ∧ items.all Literal.isScalar = true ∧ Worded rest := by
  fun_induction readItems ts generalizing items rest with
  | case1 | case2 | case3 | case4 | case7 => cases h
  | case5 t s left item hitem _ ih =>
    cases hleft : readItems left with
    | error e =>
      rw [hleft] at h
      cases h
    | ok p =>
      obtain ⟨items', rest'⟩ := p
      rw [hleft] at h
      cases h
      obtain ⟨-, hitems, hrest⟩ := ih hts.tail.tail hleft
      rw [List.all_cons, isScalar_of_scalar? hitem, hitems]
      exact ⟨List.cons_ne_nil _ _, rfl, hrest⟩
  | case6 t s left item hitem _ =>
    cases h
    rw [List.all_cons, isScalar_of_scalar? hitem]
    exact ⟨List.cons_ne_nil _ _, rfl, hts.tail.tail⟩

theorem readValue_fits {ts rest : List Token} {op : Operator} {value : Literal} (hts : Worded ts)
    (h : readValue op ts = .ok (value, rest)) : value.fits op = true ∧ Worded rest := by
  rw [readValue] at h
  split at h
  · next hop =>
    unfold readList at h
    split at h
    · cases h
    · next position left =>
      cases hitems : readItems left with
      | error e =>
        rw [hitems] at h
        cases h
      | ok p =>
        obtain ⟨items, rest'⟩ := p
        rw [hitems] at h
        cases h
        obtain ⟨hne, hscalars, hrest⟩ := readItems_scalars hts.tail hitems
        refine ⟨?_, hrest⟩
        simp [Literal.fits, hop, hne, hscalars]
    · cases h
  · next hop =>
    unfold readScalar at h
    split at h
    · cases h
    · cases h
    · split at h
      · next hscalar =>
        cases h
        exact ⟨fits_of_isScalar (isScalar_of_scalar? hscalar) hop, hts.tail⟩
      · cases h

/-! ### Clauses -/

theorem readNot_worded {ts : List Token} (hts : Worded ts) : Worded (readNot ts).2 := by
  cases ts with
  | nil => exact hts
  | cons t rest =>
    rw [readNot]
    split
    · exact hts.tail
    · exact hts

/-- Behind a clause that starts with no `not`, the next token is not that word. -/
theorem isKeyword_readNot {ts : List Token} (h : (readNot ts).1 = false) :
    ∀ t ∈ (readNot ts).2.head?, t.kind.isKeyword "not" = false := by
  cases ts with
  | nil =>
    intro t ht
    cases ht
  | cons t rest =>
    rw [readNot] at h ⊢
    split at h
    · cases h
    · next hnot =>
      intro s hs
      rw [if_neg hnot] at hs
      cases hs
      exact Bool.eq_false_iff.mpr hnot

theorem readOperator_worded {ts rest : List Token} {op : Operator} (hts : Worded ts)
    (h : readOperator ts = .ok (op, rest)) : Worded rest := by
  unfold readOperator at h
  split at h
  · cases h
  · split at h <;> cases h
    exact hts.tail

/-- The parts of a clause that is read. -/
theorem readClause_parts {ts rest : List Token} {c : Clause} (h : readClause ts = .ok (c, rest)) :
    ∃ ts₁ ts₂, readOperand (readNot ts).2 = .ok (c.operand, ts₁)
      ∧ readOperator ts₁ = .ok (c.operator, ts₂) ∧ readValue c.operator ts₂ = .ok (c.value, rest)
      ∧ c.negated = (readNot ts).1 ∧ c.connective = none := by
  rw [readClause] at h
  cases hoperand : readOperand (readNot ts).2 with
  | error e =>
    simp only [hoperand] at h
    cases h
  | ok p =>
    obtain ⟨operand, ts₁⟩ := p
    simp only [hoperand] at h
    cases hoperator : readOperator ts₁ with
    | error e =>
      simp only [hoperator] at h
      cases h
    | ok p =>
      obtain ⟨op, ts₂⟩ := p
      simp only [hoperator] at h
      cases hvalue : readValue op ts₂ with
      | error e =>
        simp only [hvalue] at h
        cases h
      | ok p =>
        obtain ⟨value, ts₃⟩ := p
        simp only [hvalue] at h
        cases h
        exact ⟨ts₁, ts₂, rfl, hoperator, hvalue, rfl, rfl⟩

/-- A clause that is read is well formed. -/
theorem readClause_wellFormed {ts rest : List Token} {c : Clause} (hts : Worded ts)
    (h : readClause ts = .ok (c, rest)) : c.WellFormed ∧ Worded rest := by
  obtain ⟨ts₁, ts₂, hoperand, hoperator, hvalue, hneg, -⟩ := readClause_parts h
  obtain ⟨hword, hcount, hts₁⟩ := readOperand_worded (readNot_worded hts) hoperand c.negated
    fun hfalse => isKeyword_readNot (hneg ▸ hfalse)
  obtain ⟨hfits, hrest⟩ := readValue_fits (readOperator_worded hts₁ hoperator) hvalue
  exact ⟨⟨hword, hcount, hfits⟩, hrest⟩

theorem readJoint_worded {ts rest : List Token} {joint : Connective} (hts : Worded ts)
    (h : readJoint ts = .ok (some (joint, rest))) : Worded rest := by
  unfold readJoint at h
  split at h
  · cases h
  · split at h
    · cases h
    · split at h <;> cases h
      exact hts.tail

/-- A chain of clauses that is read is not empty, and all its clauses are well formed. -/
theorem readClauses_wellFormed {ts : List Token} {cs : List Clause} (hts : Worded ts)
    (h : readClauses ts = .ok cs) : cs ≠ [] ∧ ∀ c ∈ cs, c.WellFormed := by
  fun_induction readClauses ts generalizing cs with
  | case1 => cases h
  | case2 => cases h
  | case3 ts c left hclause =>
    cases h
    refine ⟨List.cons_ne_nil _ _, fun d hd => ?_⟩
    rw [List.mem_singleton.mp hd]
    exact (readClause_wellFormed hts hclause).1
  | case4 ts c left hclause joint rest hjoint ih =>
    obtain ⟨hc, hleft⟩ := readClause_wellFormed hts hclause
    cases hrest : readClauses rest with
    | error e =>
      rw [hrest] at h
      cases h
    | ok cs' =>
      rw [hrest] at h
      cases h
      refine ⟨List.cons_ne_nil _ _, fun d hd => ?_⟩
      rcases List.mem_cons.mp hd with rfl | hd
      · exact ⟨hc.worded, hc.counted, hc.fitting⟩
      · exact (ih (readJoint_worded hleft hjoint) hrest).2 d hd

/-- **Every parsed expression is well formed.** -/
theorem parse_wellFormed {text : String} {e : Expression} (h : Expression.parse text = .ok e) :
    e.WellFormed := by
  rw [Expression.parse] at h
  split at h
  · cases h
  · split at h
    · cases h
    · next ts htokens =>
      have hts : Worded ts := fun t ht w hw => isWord_of_mem_tokens htokens ht hw
      rw [Expression.ofTokens] at h
      cases hread : readClauses ts with
      | error e =>
        rw [hread] at h
        cases h
      | ok cs =>
        rw [hread] at h
        cases h
        obtain ⟨hne, hclauses⟩ := readClauses_wellFormed hts hread
        exact ⟨hne, hclauses⟩

end ChargeScreening
