import ChargeScreening.Proofs.Expression.Accepted
import ChargeScreening.Proofs.Expression.Grammar
import Mathlib.Data.List.Induction

/-!
# The reader accepts the grammar

The reader goes from left to right and never looks further than one token, and still accepts all
that the grammar derives. For each part, the reader succeeds just if some tokens at the front derive
it, and then it takes off these. The only look ahead is that of a path at a parenthesis, and the
operator that follows a path in the grammar is none.

## Main results

* `readSeparated_eq_ok_iff` — readers of items with commas between them
* `readClause_eq_ok_iff` — the reader of a clause takes off the front what derives one
* `ofTokens_eq_ok_iff_derives` — tokens are read as an expression just if they derive it
-/

namespace ChargeScreening

/-! ### Items with commas between them -/

/-- A reader that takes an item and then either goes on behind a comma or stops behind a closing
token takes off the front what derives its items. -/
theorem readSeparated_eq_ok_iff {α : Type} {item : TokenKind → α → Prop} {closing : TokenKind}
    {read : List Token → Except ParseError (List α × List Token)}
    (hnil : ∀ p, read [] ≠ .ok p) (hsingle : ∀ t p, read [t] ≠ .ok p)
    (hcons : ∀ t s left items rest, read (t :: s :: left) = .ok (items, rest)
      ↔ ∃ a, item t.kind a
        ∧ ((s.kind = .comma ∧ ∃ more, read left = .ok (more, rest) ∧ items = a :: more)
          ∨ (s.kind = closing ∧ items = [a] ∧ left = rest)))
    {ts rest : List Token} {items : List α} :
    read ts = .ok (items, rest) ↔ ∃ front close, ts = front ++ close :: rest
      ∧ close.kind = closing ∧ Separated item (front.map Token.kind) items := by
  constructor
  · intro h
    induction ts using List.twoStepInduction generalizing items with
    | nil => exact absurd h (hnil _)
    | singleton t => exact absurd h (hsingle t _)
    | cons_cons t s left ih _ =>
      obtain ⟨a, ha, ⟨hcomma, more, hmore, rfl⟩ | ⟨hclose, rfl, rfl⟩⟩ := (hcons ..).mp h
      · obtain ⟨front, close, rfl, hclose, hfront⟩ := ih hmore
        refine ⟨t :: s :: front, close, rfl, hclose, ?_⟩
        rw [List.map_cons, List.map_cons, hcomma]
        exact .more ha hfront
      · exact ⟨[t], s, rfl, hclose, .single ha⟩
  · rintro ⟨front, close, rfl, hclose, h⟩
    generalize hkinds : front.map Token.kind = kinds at h
    induction h generalizing front with
    | single ha =>
      obtain ⟨t, rfl, rfl⟩ := List.map_eq_singleton_iff.mp hkinds
      exact (hcons ..).mpr ⟨_, ha, .inr ⟨hclose, rfl, rfl⟩⟩
    | more ha hrest ih =>
      obtain ⟨t, ts, rfl, rfl, hts⟩ := List.map_eq_cons_iff.mp hkinds
      obtain ⟨s, front, rfl, hcomma, hfront⟩ := List.map_eq_cons_iff.mp hts
      exact (hcons ..).mpr ⟨_, ha, .inl ⟨hcomma, _, ih front hfront, rfl⟩⟩

theorem readArgs_eq_ok_iff {ts rest : List Token} {args : List FormulaArg} :
    readArgs ts = .ok (args, rest) ↔ ∃ front close, ts = front ++ close :: rest
      ∧ close.kind = .rightParen ∧ Separated DerivesArg (front.map Token.kind) args := by
  refine readSeparated_eq_ok_iff (fun p h => by cases h) (fun t p => ?_)
    fun t s left items rest => ?_
  · rw [readArgs]
    split <;> intro h <;> cases h
  · rw [readArgs]
    simp only [← formulaArg?_eq_some_iff]
    cases t.kind.formulaArg? with
    | none => simp
    | some arg =>
      -- Only a comma goes on, and only the closing token stops.
      cases hs : s.kind <;> cases readArgs left <;> grind [Except.map]

theorem readItems_eq_ok_iff {ts rest : List Token} {items : List Literal} :
    readItems ts = .ok (items, rest) ↔ ∃ front close, ts = front ++ close :: rest
      ∧ close.kind = .rightBracket ∧ Separated DerivesScalar (front.map Token.kind) items := by
  refine readSeparated_eq_ok_iff (fun p h => by cases h) (fun t p => ?_)
    fun t s left items rest => ?_
  · rw [readItems]
    split <;> intro h <;> cases h
  · rw [readItems]
    simp only [← scalar?_eq_some_iff]
    cases t.kind.scalar? with
    | none => simp
    | some item =>
      -- Only a comma goes on, and only the closing token stops.
      cases hs : s.kind <;> cases readItems left <;> grind [Except.map]

/-! ### Operands -/

/-- Items that begin with no parenthesis are read as the operands of a formula. -/
theorem readCall_eq_readArgs {front rest : List Token} {args : List FormulaArg}
    (h : Separated DerivesArg (front.map Token.kind) args) :
    readCall (front ++ rest) = readArgs (front ++ rest) := by
  obtain ⟨kind, arg, hhead, harg⟩ := h.exists_head
  obtain ⟨t, front, rfl⟩ := List.exists_cons_of_ne_nil (l := front) (by rintro rfl; cases hhead)
  cases hhead
  rw [List.cons_append, readCall]
  rintro position left heq
  cases heq
  cases harg

theorem readFormula_eq_ok_iff {op : MathOp} {ts rest : List Token} {operand : Operand} :
    readFormula op ts = .ok (operand, rest) ↔ ∃ front close args, ts = front ++ close :: rest
      ∧ close.kind = .rightParen ∧ Separated DerivesArg (front.map Token.kind) args
      ∧ op.accepts args.length = true ∧ operand = .formula op args := by
  rw [readFormula]
  constructor
  · intro h
    split at h
    · cases h
    · next args left hcall =>
      cases hcount : checkArity op args.length with
      | error e =>
        rw [hcount] at h
        cases h
      | ok u =>
        rw [hcount] at h
        cases h
        have haccepts := (checkArity_eq_ok_iff op _).mp hcount
        unfold readCall at hcall
        split at hcall
        · cases hcall
          cases op <;> cases haccepts
        · obtain ⟨front, close, rfl, hclose, hargs⟩ := readArgs_eq_ok_iff.mp hcall
          exact ⟨front, close, args, rfl, hclose, hargs, haccepts, rfl⟩
  · rintro ⟨front, close, args, rfl, hclose, hargs, haccepts, rfl⟩
    rw [readCall_eq_readArgs hargs, readArgs_eq_ok_iff.mpr ⟨front, close, rfl, hclose, hargs⟩]
    simp only [(checkArity_eq_ok_iff op _).mpr haccepts]
    rfl

theorem derivesOperand_of_readOperand {ts rest : List Token} {operand : Operand}
    (h : readOperand ts = .ok (operand, rest)) :
    ∃ front, ts = front ++ rest ∧ DerivesOperand (front.map Token.kind) operand := by
  unfold readOperand at h
  split at h
  · cases h
  · next name position place left =>
    split at h
    · next op hop =>
      obtain ⟨front, close, args, rfl, hclose, hargs, haccepts, rfl⟩ := readFormula_eq_ok_iff.mp h
      obtain ⟨hmany, hexact⟩ := MathOp.accepts_iff.mp haccepts
      refine ⟨⟨.word name, position⟩ :: ⟨.leftParen, place⟩ :: (front ++ [close]), by simp, ?_⟩
      rw [List.map_cons, List.map_cons, List.map_append, List.map_singleton, hclose]
      exact .formula (MathOp.ofWord?_eq_some_iff.mp hop) hargs hmany hexact
    · cases h
  · next name position left _ =>
    cases h
    exact ⟨[⟨.word name, position⟩], rfl, .field name⟩
  · cases h

/-- An operand is read off the front of any tokens that go on with no parenthesis. -/
theorem readOperand_of_derivesOperand {front rest : List Token} {operand : Operand}
    (h : DerivesOperand (front.map Token.kind) operand)
    (hnext : ∀ t ∈ rest.head?, t.kind ≠ .leftParen) :
    readOperand (front ++ rest) = .ok (operand, rest) := by
  generalize hkinds : front.map Token.kind = kinds at h
  cases h with
  | field path =>
    obtain ⟨⟨kind, position⟩, rfl, rfl⟩ := List.map_eq_singleton_iff.mp hkinds
    rw [List.singleton_append, readOperand]
    rintro place left rfl
    exact hnext _ rfl rfl
  | formula hop hargs hmany hexact =>
    obtain ⟨⟨kind, position⟩, ts, rfl, rfl, hts⟩ := List.map_eq_cons_iff.mp hkinds
    obtain ⟨⟨kind', place⟩, ts, rfl, rfl, hback⟩ := List.map_eq_cons_iff.mp hts
    obtain ⟨front, last, rfl, rfl, hlast⟩ := List.map_eq_append_iff.mp hback
    obtain ⟨close, rfl, hclose⟩ := List.map_eq_singleton_iff.mp hlast
    simp only [List.cons_append, readOperand, MathOp.ofWord?_eq_some_iff.mpr hop]
    exact readFormula_eq_ok_iff.mpr ⟨front, close, _, by simp, hclose, hargs,
      MathOp.accepts_iff.mpr ⟨hmany, hexact⟩, rfl⟩

/-! ### Operators and values -/

theorem readOperator_eq_ok_iff {ts rest : List Token} {op : Operator} :
    readOperator ts = .ok (op, rest) ↔ ∃ t, ts = t :: rest ∧ Keyword op.spellings t.kind := by
  constructor
  · intro h
    unfold readOperator at h
    split at h
    · cases h
    · next t left =>
      split at h <;> cases h
      exact ⟨t, rfl, Operator.ofWord?_iff_keyword.mp (by assumption)⟩
  · rintro ⟨t, rfl, hop⟩
    simp only [readOperator, Operator.ofWord?_iff_keyword.mpr hop]

theorem readList_eq_ok_iff {ts rest : List Token} {value : Literal} :
    readList ts = .ok (value, rest) ↔ ∃ open' left items, ts = open' :: left
      ∧ open'.kind = .leftBracket ∧ readItems left = .ok (items, rest) ∧ value = .list items := by
  unfold readList
  constructor
  · intro h
    split at h
    · cases h
    · next position left =>
      cases hitems : readItems left with
      | error e =>
        rw [hitems] at h
        cases h
      | ok p =>
        rw [hitems] at h
        cases h
        exact ⟨_, left, p.1, rfl, rfl, hitems, rfl⟩
    · cases h
  · rintro ⟨⟨kind, position⟩, left, items, rfl, rfl, hitems, rfl⟩
    simp only [hitems, Except.map]

theorem readScalar_eq_ok_iff {ts rest : List Token} {value : Literal} :
    readScalar ts = .ok (value, rest) ↔ ∃ t, ts = t :: rest ∧ DerivesScalar t.kind value := by
  simp only [← scalar?_eq_some_iff]
  unfold readScalar
  constructor
  · intro h
    split at h
    · cases h
    · cases h
    · next t left _ =>
      split at h <;> cases h
      exact ⟨t, rfl, by assumption⟩
  · rintro ⟨t, rfl, hvalue⟩
    have hbracket : t.kind ≠ .leftBracket := by
      intro heq
      rw [heq] at hvalue
      cases hvalue
    split
    · next heq => cases heq
    · next heq =>
      cases heq
      exact absurd rfl hbracket
    · next heq =>
      cases heq
      rw [hvalue]

theorem readValue_eq_ok_iff {op : Operator} {ts rest : List Token} {value : Literal} :
    readValue op ts = .ok (value, rest) ↔ ∃ front, ts = front ++ rest
      ∧ DerivesValue op (front.map Token.kind) value := by
  rw [readValue]
  split
  · next hop =>
    subst hop
    rw [readList_eq_ok_iff]
    constructor
    · rintro ⟨open', left, items, rfl, hopen, hitems, rfl⟩
      obtain ⟨front, close, rfl, hclose, hfront⟩ := readItems_eq_ok_iff.mp hitems
      refine ⟨open' :: (front ++ [close]), by simp, ?_⟩
      rw [List.map_cons, List.map_append, List.map_singleton, hopen, hclose]
      exact .list hfront
    · rintro ⟨front, rfl, h⟩
      generalize hkinds : front.map Token.kind = kinds at h
      cases h with
      | scalar hop => exact absurd rfl hop
      | list hitems =>
        obtain ⟨open', ts, rfl, hopen, hts⟩ := List.map_eq_cons_iff.mp hkinds
        obtain ⟨front, last, rfl, rfl, hlast⟩ := List.map_eq_append_iff.mp hts
        obtain ⟨close, rfl, hclose⟩ := List.map_eq_singleton_iff.mp hlast
        exact ⟨open', _, _, rfl, hopen,
          readItems_eq_ok_iff.mpr ⟨front, close, by simp, hclose, hitems⟩, rfl⟩
  · next hop =>
    rw [readScalar_eq_ok_iff]
    constructor
    · rintro ⟨t, rfl, hvalue⟩
      exact ⟨[t], rfl, .scalar hop hvalue⟩
    · rintro ⟨front, rfl, h⟩
      generalize hkinds : front.map Token.kind = kinds at h
      cases h with
      | scalar _ hvalue =>
        obtain ⟨t, rfl, rfl⟩ := List.map_eq_singleton_iff.mp hkinds
        exact ⟨t, rfl, hvalue⟩
      | list => exact absurd rfl hop


/-! ### Clauses -/

/-- A clause begins with `not`, which is then taken off, or with something else. -/
theorem readNot_cases (ts : List Token) :
    (∃ t rest, ts = t :: rest ∧ t.kind.isKeyword "not" = true ∧ readNot ts = (true, rest))
      ∨ (∀ t ∈ ts.head?, t.kind.isKeyword "not" = false) ∧ readNot ts = (false, ts) := by
  cases ts with
  | nil => exact .inr ⟨nofun, rfl⟩
  | cons t rest =>
    rw [readNot]
    split
    · next hnot => exact .inl ⟨t, rest, rfl, hnot, rfl⟩
    · next hnot =>
      refine .inr ⟨fun s hs => ?_, rfl⟩
      cases hs
      exact Bool.eq_false_iff.mpr hnot

/-- The parts of a clause behind its `not` are read one after the other. -/
theorem readClause_of_parts {ts rest : List Token} {front back : List Token} {t : Token}
    {operand : Operand} {op : Operator} {value : Literal}
    (hnot : (readNot ts).2 = front ++ t :: (back ++ rest))
    (hoperand : DerivesOperand (front.map Token.kind) operand) (hop : Keyword op.spellings t.kind)
    (hvalue : DerivesValue op (back.map Token.kind) value) :
    readClause ts = .ok (⟨(readNot ts).1, operand, op, value, none⟩, rest) := by
  have hfirst : readOperand (front ++ t :: (back ++ rest)) = .ok (operand, t :: (back ++ rest)) :=
    readOperand_of_derivesOperand hoperand fun s hs => by
      cases hs
      exact hop.ne_leftParen
  have hnext : readOperator (t :: (back ++ rest)) = .ok (op, back ++ rest) :=
    readOperator_eq_ok_iff.mpr ⟨t, rfl, hop⟩
  have hlast : readValue op (back ++ rest) = .ok (value, rest) :=
    readValue_eq_ok_iff.mpr ⟨back, rfl, hvalue⟩
  simp only [readClause, hnot, hfirst, hnext, hlast]

theorem readClause_of_derivesClause {front : List Token} {c : Clause}
    (h : DerivesClause (front.map Token.kind) c) (rest : List Token) :
    readClause (front ++ rest) = .ok (c, rest) := by
  generalize hkinds : front.map Token.kind = kinds at h
  cases h with
  | plain hfirst hoperand hop hvalue =>
    obtain ⟨first, ts, rfl, rfl, hts⟩ := List.map_eq_append_iff.mp hkinds
    obtain ⟨t, back, rfl, rfl, rfl⟩ := List.map_eq_cons_iff.mp hts
    have hnot : readNot (first ++ t :: back ++ rest) = (false, first ++ t :: back ++ rest) := by
      obtain ⟨s, first, rfl⟩ := List.exists_cons_of_ne_nil
        (fun hnil => hoperand.ne_nil (List.map_eq_nil_iff.mpr hnil))
      refine if_neg fun hkeyword => ?_
      obtain ⟨w, hw, hlower⟩ := isKeyword_iff.mp hkeyword
      exact hfirst w (congrArg some hw) hlower
    rw [readClause_of_parts (by rw [hnot, List.append_assoc, List.cons_append]) hoperand hop hvalue,
      hnot]
  | negated hw hoperand hop hvalue =>
    obtain ⟨s, ts, rfl, hs, hts⟩ := List.map_eq_cons_iff.mp hkinds
    obtain ⟨first, ts, rfl, rfl, hback⟩ := List.map_eq_append_iff.mp hts
    obtain ⟨t, back, rfl, rfl, rfl⟩ := List.map_eq_cons_iff.mp hback
    have hnot : readNot (s :: (first ++ t :: back) ++ rest) = (true, first ++ t :: back ++ rest) :=
      if_pos (isKeyword_iff.mpr ⟨_, hs, hw⟩)
    rw [readClause_of_parts (by rw [hnot, List.append_assoc, List.cons_append]) hoperand hop hvalue,
      hnot]

/-- **The reader of a clause takes off the front what derives one.** -/
theorem readClause_eq_ok_iff {ts rest : List Token} {c : Clause} :
    readClause ts = .ok (c, rest) ↔ ∃ front, ts = front ++ rest
      ∧ DerivesClause (front.map Token.kind) c := by
  constructor
  · intro h
    obtain ⟨negated, operand, op, value, joint⟩ := c
    obtain ⟨ts₁, ts₂, hfst, hsnd, hthird, rfl, rfl⟩ := readClause_parts h
    obtain ⟨front, hfront, hoperand⟩ := derivesOperand_of_readOperand hfst
    obtain ⟨t, rfl, hop⟩ := readOperator_eq_ok_iff.mp hsnd
    obtain ⟨back, rfl, hvalue⟩ := readValue_eq_ok_iff.mp hthird
    obtain ⟨s, left, rfl, hs, hnot⟩ | ⟨hfirst, hnot⟩ := readNot_cases ts <;>
      simp only [hnot] at hfront ⊢
    · obtain ⟨w, hw, hlower⟩ := isKeyword_iff.mp hs
      refine ⟨s :: (front ++ t :: back), by simp [hfront], ?_⟩
      rw [List.map_cons, List.map_append, List.map_cons, hw]
      exact .negated hlower hoperand hop hvalue
    · refine ⟨front ++ t :: back, by simp [hfront], ?_⟩
      rw [List.map_append, List.map_cons]
      refine .plain (fun w hw hlower => ?_) hoperand hop hvalue
      obtain ⟨s, hs, hkind⟩ := Option.map_eq_some_iff.mp (List.head?_map ▸ hw)
      have hhead : s ∈ ts.head? := by
        rw [hfront, List.head?_append, hs]
        rfl
      exact absurd (isKeyword_iff.mpr ⟨w, hkind, hlower⟩) (by simp [hfirst s hhead])
  · rintro ⟨front, rfl, h⟩
    exact readClause_of_derivesClause h rest

/-! ### Chains of clauses -/

theorem readJoint_eq_none_iff {ts : List Token} : readJoint ts = .ok none ↔ ts = [] := by
  constructor
  · intro h
    unfold readJoint at h
    split at h
    · rfl
    · split at h
      · cases h
      · split at h <;> cases h
  · rintro rfl
    rfl

theorem readJoint_eq_some_iff {ts rest : List Token} {joint : Connective} :
    readJoint ts = .ok (some (joint, rest)) ↔ ∃ t, ts = t :: rest
      ∧ Keyword joint.spellings t.kind ∧ rest ≠ [] := by
  constructor
  · intro h
    unfold readJoint at h
    split at h
    · cases h
    · split at h
      · cases h
      · next hjoint =>
        split at h <;> cases h
        next hrest =>
        exact ⟨_, rfl, Connective.ofWord?_iff_keyword.mp hjoint, by simpa using hrest⟩
  · rintro ⟨t, rfl, hjoint, hrest⟩
    simp [readJoint, Connective.ofWord?_iff_keyword.mpr hjoint, hrest]

/-- The clauses that tokens are read as are just what they derive. -/
theorem readClauses_eq_ok_iff {ts : List Token} {cs : List Clause} :
    readClauses ts = .ok cs ↔ DerivesChain (ts.map Token.kind) cs := by
  constructor
  · intro h
    fun_induction readClauses ts generalizing cs with
    | case1 => cases h
    | case2 => cases h
    | case3 ts c left hclause hjoint =>
      cases h
      cases readJoint_eq_none_iff.mp hjoint
      obtain ⟨front, rfl, hc⟩ := readClause_eq_ok_iff.mp hclause
      rw [List.append_nil]
      exact .last hc
    | case4 ts c left hclause joint rest hjoint ih =>
      cases hrest : readClauses rest with
      | error e =>
        rw [hrest] at h
        cases h
      | ok cs' =>
        rw [hrest] at h
        cases h
        obtain ⟨front, rfl, hc⟩ := readClause_eq_ok_iff.mp hclause
        obtain ⟨t, rfl, hjoint, -⟩ := readJoint_eq_some_iff.mp hjoint
        rw [List.map_append, List.map_cons]
        exact .next hc hjoint (ih hrest)
  · intro h
    generalize hkinds : ts.map Token.kind = kinds at h
    induction h generalizing ts with
    | last hc =>
      subst hkinds
      have hclause := readClause_of_derivesClause hc []
      rw [List.append_nil] at hclause
      exact readClauses_of_readClause (u := .ok ()) hclause
    | next hc hjoint hrest ih =>
      obtain ⟨front, ts, rfl, rfl, hts⟩ := List.map_eq_append_iff.mp hkinds
      obtain ⟨t, rest, rfl, rfl, hback⟩ := List.map_eq_cons_iff.mp hts
      have hne : rest ≠ [] := fun hnil => hrest.ne_nil (by rw [← hback, hnil, List.map_nil])
      rw [readClauses_of_readClause (u := .ok ()) (readClause_of_derivesClause hc (t :: rest)),
        readJoint_eq_some_iff.mpr ⟨t, rfl, hjoint, hne⟩]
      simp only [bind, Except.bind, ih hback, pure, Except.pure]

/-! ### Expressions -/

theorem ofTokens_eq_ok_iff {ts : List Token} {e : Expression} :
    Expression.ofTokens ts = .ok e ↔ Derives (ts.map Token.kind) e := by
  rw [Derives, ← readClauses_eq_ok_iff, Expression.ofTokens]
  cases readClauses ts with
  | error err =>
    constructor
    · intro h
      cases h
    · intro h
      cases h
  | ok cs =>
    constructor
    · rintro h
      cases h
      rfl
    · rintro h
      cases h
      rfl

/-- A row of token kinds stands for at most one expression. -/
theorem Derives.unique {kinds : List TokenKind} {e e' : Expression} (h : Derives kinds e)
    (h' : Derives kinds e') : e' = e := by
  -- The reader gives one result for any tokens of these kinds.
  obtain ⟨ts, rfl⟩ : ∃ ts : List Token, ts.map Token.kind = kinds :=
    ⟨kinds.map fun kind => ⟨kind, 0⟩, by simp [Function.comp_def]⟩
  exact Except.ok.inj ((ofTokens_eq_ok_iff.mpr h').symm.trans (ofTokens_eq_ok_iff.mpr h))

/-- **The reader accepts just what the grammar derives.** Tokens are read as an expression if and
only if all of them derive it, so that none is left over. They derive no other expression. A text
with these tokens is parsed the same way. -/
theorem ofTokens_eq_ok_iff_derives (ts : List Token) (e : Expression) :
    (Expression.ofTokens ts = .ok e ↔ Derives (ts.map Token.kind) e)
      ∧ (∀ e', Derives (ts.map Token.kind) e → Derives (ts.map Token.kind) e' → e' = e)
      ∧ ∀ text, tokenize text = .ok ts →
        (Expression.parse text = .ok e ↔ Derives (ts.map Token.kind) e) := by
  refine ⟨ofTokens_eq_ok_iff, fun e' h h' => h.unique h', fun text htokens => ?_⟩
  rw [← ofTokens_eq_ok_iff]
  rcases eq_or_ne ts [] with rfl | hne
  · -- Without tokens the text may be refused before it is read, but nothing derives no tokens.
    have hnone : ¬Expression.ofTokens [] = .ok e :=
      fun h => DerivesChain.ne_nil (ofTokens_eq_ok_iff.mp h) rfl
    refine iff_of_false (fun hparse => ?_) hnone
    rw [Expression.parse] at hparse
    split at hparse
    · cases hparse
    · rw [htokens] at hparse
      exact hnone hparse
  · rw [parse_eq_ofTokens htokens hne]

/-- A negated sum joined to a list in mixed case: all tokens derive the two clauses, whose `not` is
a negation, and the text is parsed to them. -/
theorem parse_negated_sum_or_list :
    let ts : List Token := [⟨.word "not", 0⟩, ⟨.word "Sum", 4⟩, ⟨.leftParen, 8⟩, ⟨.word "a", 9⟩,
      ⟨.comma, 10⟩, ⟨.number (-2), 11⟩, ⟨.rightParen, 13⟩, ⟨.symbol .atLeast, 14⟩, ⟨.number 1, 16⟩,
      ⟨.word "OR", 18⟩, ⟨.word "b", 21⟩, ⟨.word "IN", 23⟩, ⟨.leftBracket, 26⟩, ⟨.quoted "x", 27⟩,
      ⟨.comma, 30⟩, ⟨.word "TRUE", 31⟩, ⟨.rightBracket, 35⟩]
    let e : Expression := ⟨[
      ⟨true, .formula .sum [.field "a", .constant (-2)], .ge, .number 1, some .or⟩,
      ⟨false, .field "b", .isIn, .list [.text "x", .bool true], none⟩]⟩
    Derives (ts.map Token.kind) e ∧ Expression.ofTokens ts = .ok e
      ∧ Expression.parse "not Sum (a,-2)>=1 OR b IN [\"x\",TRUE]" = .ok e := by
  intro ts e
  have hargs : Separated DerivesArg [.word "a", .comma, .number (-2)]
      [.field "a", .constant (-2)] := .more (.field _) (.single (.constant _))
  have hsum : DerivesOperand _ (.formula .sum _) :=
    .formula (show Text.asciiUpper (Text.trim "Sum") = "SUM" by decide) hargs (Nat.le_refl 2) nofun
  have hfirst : DerivesClause _ ⟨true, _, .ge, .number 1, none⟩ :=
    .negated (show Text.asciiLower "not" = "not" by decide) hsum (.symbol (s := .atLeast) (by decide))
      (.scalar nofun (.number 1))
  have hitems : Separated DerivesScalar [.quoted "x", .comma, .word "TRUE"]
      [.text "x", .bool true] := .more (.text _) (.single (.yes (by decide)))
  have hsecond : DerivesClause _ ⟨false, .field "b", .isIn, _, none⟩ :=
    .plain (by rintro w ⟨⟩; decide) (.field "b") (.word (w := "IN") (by decide)) (.list hitems)
  have hderives : Derives (ts.map Token.kind) e :=
    .next hfirst (.word (w := "OR") (by decide)) (.last hsecond)
  obtain ⟨hread, -, hparse⟩ := ofTokens_eq_ok_iff_derives ts e
  have htokens : tokenize "not Sum (a,-2)>=1 OR b IN [\"x\",TRUE]" = .ok ts := by decide +kernel
  exact ⟨hderives, hread.mpr hderives, (hparse _ htokens).mpr hderives⟩

end ChargeScreening
