import ChargeScreening.Proofs.Expression.Accepted
import ChargeScreening.Proofs.Expression.Equality
import ChargeScreening.Proofs.Rule.Compiled
import Mathlib.Control.Monad.Basic

/-!
# Reading compiled rule text back

Compilation refuses a text that cannot be read, but not one that reads as something else. Whether a
stored rule says what its author wrote comes down to the paths: the text reads back as the compiled
expression exactly when every path of every clause is a single word. A field such as
`amount gt 1 or amount` is stored, and adds a clause.

## Main results

* `compileText_eq_ok` — what an accepted text is
* `parse_compiled_iff_namesWords` — when an accepted text reads back as what was compiled
* `parse_compiled_splitField` — a field that adds a clause
-/

namespace ChargeScreening

/-- An accepted text is the rendering of the compiled expression, and it can be read. -/
theorem compileText_eq_ok {clauses : List DraftClause} {text : String}
    (h : compileText clauses = .ok text) :
    ∃ e e', compileExpression clauses = .ok e ∧ text = e.render
      ∧ Expression.parse text = .ok e' := by
  rw [compileText] at h
  split at h
  · cases h
  · next e he =>
    split at h
    · cases h
    · next e' he' =>
      cases h
      exact ⟨e, e', he, rfl, he'⟩

/-- The numbers of a compiled expression are those of the author's values. -/
theorem exists_number_of_mem {clauses : List DraftClause} {e : Expression}
    (h : compileExpression clauses = .ok e) {x : Float} (hx : x ∈ e.numbers) :
    ∃ draft ∈ clauses, x ∈ draft.value.numbers := by
  obtain ⟨c, hc, hx⟩ := List.mem_flatMap.mp hx
  obtain ⟨draft, hdraft, hfrom⟩ := exists_draft_of_mem h hc
  exact ⟨draft, hdraft, hfrom.numbers x hx⟩

/-- The compiled clauses are worded just if the author's paths are words. -/
theorem forall_isWorded_iff {clauses : List DraftClause} {e : Expression}
    (h : compileExpression clauses = .ok e) :
    (∀ c ∈ e.clauses, c.operand.isWorded c.negated = true)
      ↔ ∀ draft ∈ clauses, draft.namesWords = true := by
  constructor
  · intro hword draft hdraft
    obtain ⟨c, hc, hfrom⟩ := exists_clause_of_mem h hdraft
    rw [← hfrom.worded]
    exact hword c hc
  · intro hnames c hc
    obtain ⟨draft, hdraft, hfrom⟩ := exists_draft_of_mem h hc
    rw [hfrom.worded]
    exact hnames draft hdraft

/-- **An accepted text reads back as the compiled expression exactly when the paths are words.** The
two are compared clause by clause with `==`, up to the connectives that a text shows: `and` for a
missing one, and none behind the last clause. -/
theorem parse_compiled_iff_namesWords {clauses : List DraftClause} {text : String}
    (h : compileText clauses = .ok text)
    (hnumber : ∀ c ∈ clauses, ∀ x ∈ c.value.numbers, Decimal.Faithful x) :
    ∃ e e', compileExpression clauses = .ok e ∧ Expression.parse text = .ok e'
      ∧ ((e' == e.settled) = true ↔ ∀ c ∈ clauses, c.namesWords = true) := by
  obtain ⟨e, e', he, rfl, he'⟩ := compileText_eq_ok h
  refine ⟨e, e', he, he', ?_⟩
  rw [← forall_isWorded_iff he]
  constructor
  · -- The reader takes no path but words, and equal expressions name the same paths.
    intro hsame
    exact isWorded_of_settled_beq hsame fun c hc => ((parse_wellFormed he').clauses c hc).worded
  · intro hword
    have hfits : ∀ c ∈ e.clauses, c.value.fits c.operator = true := by
      intro c hc
      obtain ⟨draft, -, hfrom⟩ := exists_draft_of_mem he hc
      exact hfrom.fitting
    have hfaithful : ∀ x ∈ e.numbers, Decimal.Faithful x := by
      intro x hx
      obtain ⟨draft, hdraft, hx⟩ := exists_number_of_mem he hx
      exact hnumber draft hdraft x hx
    have hrender := parse_render (compileExpression_spec he).1 hword hfits hfaithful
    -- The text is known to be read, so the counts of operands cannot be what stops the reader.
    cases hcounts : checkCounts e.clauses with
    | error err =>
      rw [hcounts, he'] at hrender
      cases hrender
    | ok _ =>
      rw [hcounts, he'] at hrender
      cases hrender
      exact reread_settled_beq hfits fun x hx => (hfaithful x hx).readsBack

/-- The theorem on a field in front of a formula. -/
theorem parse_compiled_iff_namesWords_countryOrCount :
    let country : DraftClause :=
      { field := some " payment_method.country ", operator := .isIn,
        value := .array [.text "MX", .text "US"], negated := true }
    let count : DraftClause :=
      { operator := .ge, value := .number 12, connective := some .or,
        formulaFields := some ["payer.charge.h1.count", "card.charge.h1.count"],
        formulaOp := some "SUM" }
    let text := "SUM (payer.charge.h1.count,card.charge.h1.count) ge 12 or "
      ++ "not payment_method.country in [\"MX\",\"US\"]"
    compileText [country, count] = .ok text
      ∧ (∀ c ∈ [country, count], ∀ x ∈ c.value.numbers, Decimal.Faithful x)
      ∧ ∃ e e', compileExpression [country, count] = .ok e ∧ Expression.parse text = .ok e'
        ∧ (e' == e.settled) = true := by
  intro country count text
  have htext : compileText [country, count] = .ok text := by decide +kernel
  have htwelve : Decimal.Faithful 12 := ⟨by decide +kernel, by decide +kernel⟩
  have hnumber : ∀ c ∈ [country, count], ∀ x ∈ c.value.numbers, Decimal.Faithful x := by
    intro c hc x hx
    rcases List.mem_pair.mp hc with rfl | rfl
    · cases hx
    · rwa [List.mem_singleton.mp hx]
  obtain ⟨e, e', he, he', hiff⟩ := parse_compiled_iff_namesWords htext hnumber
  exact ⟨htext, hnumber, e, e', he, he', hiff.mpr (by decide +kernel)⟩

/-- A field that adds a clause: `amount gt 1 or amount` is accepted as a field, and the text reads
as two clauses. -/
theorem parse_compiled_splitField :
    let draft : DraftClause :=
      { field := some "amount gt 1 or amount", operator := .le, value := .number 1 }
    ∃ e e', compileText [draft] = .ok "amount gt 1 or amount le 1"
      ∧ compileExpression [draft] = .ok e
      ∧ Expression.parse "amount gt 1 or amount le 1" = .ok e'
      ∧ e.clauses.length = 1 ∧ e'.clauses.length = 2 ∧ (e' == e.settled) = false := by
  intro draft
  have htext : compileText [draft] = .ok "amount gt 1 or amount le 1" := by
    decide +kernel
  obtain ⟨e, e', he, -, he'⟩ := compileText_eq_ok htext
  have hone : (compileExpression [draft]).map (fun e => e.clauses.length) = .ok 1 := by
    decide +kernel
  have htwo : (Expression.parse "amount gt 1 or amount le 1").map (fun e => e.clauses.length)
      = .ok 2 := by
    decide +kernel
  rw [he] at hone
  rw [he'] at htwo
  replace hone : e.clauses.length = 1 := Except.ok.inj hone
  replace htwo : e'.clauses.length = 2 := Except.ok.inj htwo
  refine ⟨e, e', htext, he, he', hone, htwo, ?_⟩
  refine Bool.eq_false_iff.mpr fun hsame => ?_
  have hclauses : (e'.clauses == settle e.clauses) = true := hsame
  have hlength := List.length_eq_of_beq hclauses
  rw [length_settle, hone, htwo] at hlength
  cases hlength

end ChargeScreening
