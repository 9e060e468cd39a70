import ChargeScreening.Proofs.Expression.Pieces
import ChargeScreening.Proofs.Expression.Roundtrip
import Mathlib.Data.List.Basic

/-!
# Text in canonical form

A text that is read and written out again is in canonical form: one spelling of each keyword, one
blank between words, double quotes, and each number by its shortest digits. To read it once more
changes nothing if all numbers are finite. A number too large for a double is read as an infinity,
and what an infinity is written as is no number. So no number that is not finite is ever read from
canonical form, and an expression with one is not what its text reads as.

## Main results

* `number_mem_of_derives` — each number of an expression is a token of its text
* `settle_of_derivesChain` — the connectives of an expression that is read are those its text shows
* `isFinite_of_parse_render` — the numbers that are read from canonical form are finite
* `parse_render_stable_iff` — canonical form is stable just if all numbers are finite
-/

namespace ChargeScreening

/-! ### The numbers of a row of token kinds -/

/-- Each item of a separated row is one of its tokens. -/
theorem Separated.exists_of_mem {α : Type} {item : TokenKind → α → Prop} {kinds : List TokenKind}
    {items : List α} (h : Separated item kinds items) {a : α} (ha : a ∈ items) :
    ∃ kind ∈ kinds, item kind a := by
  induction h with
  | single h =>
    rw [List.mem_singleton.mp ha]
    exact ⟨_, List.mem_singleton_self _, h⟩
  | more h _ ih =>
    rcases List.mem_cons.mp ha with rfl | ha
    · exact ⟨_, List.mem_cons_self .., h⟩
    · obtain ⟨kind, hkind, hitem⟩ := ih ha
      exact ⟨kind, List.mem_cons_of_mem _ (List.mem_cons_of_mem _ hkind), hitem⟩

section Numbers

variable {kind : TokenKind} {kinds : List TokenKind} {x : Float}

theorem DerivesArg.eq_number {arg : FormulaArg} (h : DerivesArg kind arg) (hx : x ∈ arg.numbers) :
    kind = .number x := by
  cases h with
  | field path => cases hx
  | constant y => rw [List.mem_singleton.mp hx]

theorem DerivesScalar.eq_number {value : Literal} (h : DerivesScalar kind value)
    (hx : x ∈ value.numbers) : kind = .number x := by
  cases h with
  | number y => rw [List.mem_singleton.mp hx]
  | text s => cases hx
  | yes h => cases hx
  | no h => cases hx

theorem DerivesOperand.number_mem {operand : Operand} (h : DerivesOperand kinds operand)
    (hx : x ∈ operand.numbers) : .number x ∈ kinds := by
  cases h with
  | field path => cases hx
  | formula hop hargs =>
    obtain ⟨arg, harg, hx⟩ := List.mem_flatMap.mp hx
    obtain ⟨kind, hkind, hderives⟩ := hargs.exists_of_mem harg
    rw [← hderives.eq_number hx]
    exact List.mem_cons_of_mem _ (List.mem_cons_of_mem _ (List.mem_append_left _ hkind))

theorem DerivesValue.number_mem {op : Operator} {value : Literal} (h : DerivesValue op kinds value)
    (hx : x ∈ value.numbers) : .number x ∈ kinds := by
  cases h with
  | scalar hop h =>
    rw [h.eq_number hx]
    exact List.mem_singleton_self _
  | list h =>
    rw [Literal.numbers, Literal.itemNumbers_eq_flatMap] at hx
    obtain ⟨item, hitem, hx⟩ := List.mem_flatMap.mp hx
    obtain ⟨kind, hkind, hderives⟩ := h.exists_of_mem hitem
    rw [← hderives.eq_number hx]
    exact List.mem_cons_of_mem _ (List.mem_append_left _ hkind)

theorem DerivesClause.number_mem {c : Clause} (h : DerivesClause kinds c) (hx : x ∈ c.numbers) :
    .number x ∈ kinds := by
  have hparts {front back : List TokenKind} {kind : TokenKind} (hfront : .number x ∈ front
      ∨ .number x ∈ back) : .number x ∈ front ++ kind :: back :=
    hfront.elim (List.mem_append_left _) fun hback =>
      List.mem_append_right _ (List.mem_cons_of_mem _ hback)
  cases h with
  | plain _ hoperand _ hvalue =>
    exact hparts ((List.mem_append.mp hx).imp hoperand.number_mem hvalue.number_mem)
  | negated _ hoperand _ hvalue =>
    exact List.mem_cons_of_mem _
      (hparts ((List.mem_append.mp hx).imp hoperand.number_mem hvalue.number_mem))

theorem DerivesChain.number_mem {cs : List Clause} (h : DerivesChain kinds cs)
    (hx : x ∈ cs.flatMap Clause.numbers) : .number x ∈ kinds := by
  induction h with
  | last h =>
    rw [List.flatMap_singleton] at hx
    exact h.number_mem hx
  | next h _ _ ih =>
    rw [List.flatMap_cons] at hx
    rcases List.mem_append.mp hx with hx | hx
    · exact List.mem_append_left _ (h.number_mem hx)
    · exact List.mem_append_right _ (List.mem_cons_of_mem _ (ih hx))

/-- **Each number of an expression is a token of the row that stands for it.** -/
theorem number_mem_of_derives {e : Expression} (h : Derives kinds e) (hx : x ∈ e.numbers) :
    .number x ∈ kinds :=
  DerivesChain.number_mem h hx

end Numbers

/-! ### Connectives -/

theorem DerivesClause.connective_eq {kinds : List TokenKind} {c : Clause}
    (h : DerivesClause kinds c) : c.connective = none := by
  cases h <;> rfl

/-- The connectives of clauses that are read are those that their text shows. -/
theorem settle_of_derivesChain {kinds : List TokenKind} {cs : List Clause}
    (h : DerivesChain kinds cs) : settle cs = cs := by
  induction h with
  | @last _ c h => rw [settle, ← h.connective_eq]
  | @next _ _ _ _ _ cs _ _ hrest ih =>
    cases cs with
    | nil => cases hrest
    | cons d cs => rw [settle, ih, Option.getD_some]

theorem settled_of_parse {text : String} {e : Expression} (h : Expression.parse text = .ok e) :
    e.settled = e := by
  obtain ⟨ts, -, hderives⟩ := exists_tokens_of_parse h
  rw [Expression.settled, settle_of_derivesChain hderives]

theorem renderClauses_cons_cons (c d : Clause) (cs : List Clause) :
    renderClauses (c :: d :: cs)
      = c.render ++ " " ++ (c.connective.getD .and).word ++ " " ++ renderClauses (d :: cs) :=
  rfl

/-- Text shows no more of the connectives than is kept of them. -/
theorem renderClauses_settle (cs : List Clause) : renderClauses (settle cs) = renderClauses cs := by
  fun_induction settle cs with
  | case1 => rfl
  | case2 c => rfl
  | case3 c d rest ih =>
    rw [renderClauses_cons_cons, ← ih]
    cases rest <;> rfl

/-! ### Numbers as their text reads -/

theorem FormulaArg.render_reread {a : FormulaArg} (h : ∀ x ∈ a.numbers, x.isFinite = true) :
    a.reread.render = a.render := by
  cases a with
  | field path => rfl
  | constant x => exact Decimal.ruleText_reread (h x (List.mem_singleton_self x))

theorem Operand.render_reread {operand : Operand}
    (h : ∀ x ∈ operand.numbers, x.isFinite = true) : operand.reread.render = operand.render := by
  cases operand with
  | field path => rfl
  | formula op args =>
    have hargs : (args.map FormulaArg.reread).map FormulaArg.render
        = args.map FormulaArg.render := by
      rw [List.map_map]
      exact List.map_congr_left fun a ha =>
        FormulaArg.render_reread fun x hx => h x (List.mem_flatMap.mpr ⟨a, ha, hx⟩)
    rw [Operand.reread, Operand.render, Operand.render, hargs]

theorem Literal.render_rereadScalar {value : Literal}
    (h : ∀ x ∈ value.numbers, x.isFinite = true) : value.rereadScalar.render = value.render := by
  cases value with
  | number x => exact Decimal.ruleText_reread (h x (List.mem_singleton_self x))
  | text s => rfl
  | bool b => rfl
  | list items => rfl

theorem Literal.render_reread {value : Literal} (h : ∀ x ∈ value.numbers, x.isFinite = true) :
    value.reread.render = value.render := by
  cases value with
  | number x => exact Literal.render_rereadScalar h
  | text s => rfl
  | bool b => rfl
  | list items =>
    have hitems : (items.map Literal.rereadScalar).map Literal.render
        = items.map Literal.render := by
      rw [List.map_map]
      exact List.map_congr_left fun item hitem =>
        Literal.render_rereadScalar fun x hx => h x (Literal.mem_itemNumbers hitem hx)
    rw [Literal.reread, Literal.render, Literal.render, Literal.renderItems_eq_map,
      Literal.renderItems_eq_map, hitems]

theorem Clause.render_reread {c : Clause} (h : ∀ x ∈ c.numbers, x.isFinite = true) :
    c.reread.render = c.render := by
  have hoperand : c.operand.reread.render = c.operand.render :=
    Operand.render_reread fun x hx => h x (List.mem_append_left _ hx)
  have hvalue : c.value.reread.render = c.value.render :=
    Literal.render_reread fun x hx => h x (List.mem_append_right _ hx)
  rw [Clause.render, Clause.render, Clause.reread, hoperand, hvalue]

theorem renderClauses_reread {cs : List Clause}
    (h : ∀ c ∈ cs, ∀ x ∈ c.numbers, x.isFinite = true) :
    renderClauses (cs.map Clause.reread) = renderClauses cs := by
  induction cs with
  | nil => rfl
  | cons c cs ih =>
    have hc : c.reread.render = c.render := Clause.render_reread (h c (List.mem_cons_self ..))
    have hcs := ih fun d hd => h d (List.mem_cons_of_mem _ hd)
    cases cs with
    | nil => exact hc
    | cons d rest =>
      rw [List.map_cons] at hcs
      rw [List.map_cons, List.map_cons, renderClauses_cons_cons, renderClauses_cons_cons, hc, hcs]
      rfl

/-! ### What is read back -/

theorem Operand.isWord_of_mem_fields {operand : Operand} {negated : Bool}
    (h : operand.isWorded negated = true) {path : String} (hpath : path ∈ operand.fields) :
    isWord path = true := by
  cases operand with
  | field name =>
    rw [List.mem_singleton.mp hpath]
    exact (Bool.and_eq_true_iff.mp h).1
  | formula op args =>
    obtain ⟨arg, harg, hfield⟩ := List.mem_filterMap.mp hpath
    cases arg with
    | field name =>
      cases hfield
      exact List.all_eq_true.mp h _ harg
    | constant x => cases hfield

/-- If all paths are words, no piece of a text splits into a number that is not finite. -/
theorem piecewise_isFinite : Piecewise fun paths kinds =>
    (∀ path ∈ paths, isWord path = true) → ∀ x, .number x ∈ kinds → x.isFinite = true where
  nil := nofun
  append := by
    intro paths others kinds more hkinds hmore hwords x hx
    obtain ⟨hpaths, hothers⟩ := List.forall_mem_append.mp hwords
    exact (List.mem_append.mp hx).elim (hkinds hpaths x) (hmore hothers x)
  plain := by
    intro kind hplain _ x hx
    rwa [← List.mem_singleton.mp hx] at hplain
  path := by
    intro s ts hts hwords x hx
    -- A word splits into itself.
    have hword : isWord s = true := hwords s (List.mem_singleton_self s)
    obtain ⟨ts', hts', hkinds⟩ := (Spells.word hword).lexes 0
    cases hts.symm.trans hts'
    rw [hkinds] at hx
    cases List.mem_singleton.mp hx

/-- **The numbers that are read from canonical form are finite.** -/
theorem isFinite_of_parse_render {e e' : Expression} (hwell : e.WellFormed)
    (h : Expression.parse e.render = .ok e') : ∀ x ∈ e'.numbers, x.isFinite = true := by
  have hwords : ∀ path ∈ e.fields, isWord path = true := by
    intro path hpath
    obtain ⟨c, hc, hpath⟩ := List.mem_flatMap.mp hpath
    exact Operand.isWord_of_mem_fields (hwell.clauses c hc).worded hpath
  have hquotes : ∀ path ∈ e.fields, leavesQuoteOpen path = false := fun path hpath =>
    leavesQuoteOpen_of_lexes (Spells.word (hwords path hpath)).lexes
  obtain ⟨kinds, hderives, hfinite⟩ :=
    piecewise_isFinite.of_parse_render h (fun c hc => (hwell.clauses c hc).fitting) hquotes
  exact fun x hx => hfinite hwords x (number_mem_of_derives hderives hx)

/-- **Canonical form is stable just if all numbers are finite.** When a text is read as an
expression, the text of that expression is read as an equal expression with the same text if and
only if the expression has finite numbers only. -/
theorem parse_render_stable_iff {text : String} {e : Expression}
    (h : Expression.parse text = .ok e) :
    (∃ e', Expression.parse e.render = .ok e' ∧ (e' == e) = true ∧ e'.render = e.render)
      ↔ ∀ x ∈ e.numbers, x.isFinite = true := by
  have hwell : e.WellFormed := parse_wellFormed h
  constructor
  · rintro ⟨e', hparse, hsame, -⟩ x hx
    obtain ⟨y, hy, hyx⟩ := exists_number_beq hsame hx
    rw [← Decimal.isFinite_of_beq hyx]
    exact isFinite_of_parse_render hwell hparse y hy
  · intro hfinite
    have hnumber : ∀ x ∈ e.numbers, Decimal.Faithful x :=
      fun x hx => Decimal.faithful_of_isFinite (hfinite x hx)
    refine ⟨e.reread.settled, parse_render_eq_settled hwell hnumber, ?_, ?_⟩
    · have hsame := reread_settled_beq (fun c hc => (hwell.clauses c hc).fitting)
        fun x hx => (hnumber x hx).readsBack
      rwa [settled_of_parse h] at hsame
    · exact (renderClauses_settle _).trans <| renderClauses_reread fun c hc x hx =>
        hfinite x (List.mem_flatMap.mpr ⟨c, hc, hx⟩)

/-- The theorem on a text with single quotes, escapes, symbols, keywords in mixed case, exponents
and a zero with a sign. -/
theorem parse_render_stable_iff_awkward :
    let text := "NOT  Sum(a.b-1,-0,+12.50e2)>=1e-2&&c IN ['x\\\"y',\"z\",TRUE,+.5]"
    ∃ e, Expression.parse text = .ok e
      ∧ e.render = "not SUM (a.b-1,0,1250) ge 0.01 and c in [\"x\\\"y\",\"z\",true,0.5]"
      ∧ ∃ e', Expression.parse e.render = .ok e' ∧ (e' == e) = true ∧ e'.render = e.render := by
  intro text
  have hread : (Expression.parse text).map (fun e => (e.render, e.numbers))
      = .ok ("not SUM (a.b-1,0,1250) ge 0.01 and c in [\"x\\\"y\",\"z\",true,0.5]",
        [-0.0, 1250, 0.01, 0.5]) := by
    decide +kernel
  obtain ⟨e, hparse, he⟩ := exists_of_map_eq_ok hread
  obtain ⟨hrender, hnumbers⟩ := Prod.mk.inj he
  have hfinite : ∀ x ∈ e.numbers, x.isFinite = true := by
    rw [hnumbers]
    decide +kernel
  exact ⟨e, hparse, hrender, (parse_render_stable_iff hparse).mpr hfinite⟩

/-- A number too large for a double. Behind an operator it makes a text that is not read again, and
in a formula one that is read with a path in place of the number. -/
theorem parse_render_tooLarge :
    (∃ e, Expression.parse "amount gt 1e999" = .ok e ∧ e.render = "amount gt inf"
      ∧ ∀ e', Expression.parse e.render ≠ .ok e')
    ∧ ∃ e e', Expression.parse "SUM (amount,1e999) gt 1" = .ok e
      ∧ Expression.parse e.render = .ok e' ∧ e.fields = ["amount"]
      ∧ e'.fields = ["amount", "inf"] := by
  have hfirst : (Expression.parse "amount gt 1e999").map Expression.render
      = .ok "amount gt inf" := by
    decide +kernel
  have hrefused : (Expression.parse "amount gt inf").map Expression.render
      = .error (.unexpectedToken "inf" .scalar 10) := by
    decide +kernel
  have hsecond : (Expression.parse "SUM (amount,1e999) gt 1").map (fun e => (e.render, e.fields))
      = .ok ("SUM (amount,inf) gt 1", ["amount"]) := by
    decide +kernel
  have hpath : (Expression.parse "SUM (amount,inf) gt 1").map Expression.fields
      = .ok ["amount", "inf"] := by
    decide +kernel
  obtain ⟨e, he, hrender⟩ := exists_of_map_eq_ok hfirst
  obtain ⟨d, hd, hparts⟩ := exists_of_map_eq_ok hsecond
  obtain ⟨hrender', hfields⟩ := Prod.mk.inj hparts
  obtain ⟨d', hd', hfields'⟩ := exists_of_map_eq_ok hpath
  refine ⟨⟨e, he, hrender, fun e' he' => ?_⟩, d, d', hd, hrender' ▸ hd', hfields, hfields'⟩
  rw [hrender] at he'
  rw [he'] at hrefused
  cases hrefused

end ChargeScreening
