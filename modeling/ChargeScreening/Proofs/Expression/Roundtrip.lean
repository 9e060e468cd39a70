import ChargeScreening.Proofs.Decimal.Readback
import ChargeScreening.Proofs.Expression.Accepted
import ChargeScreening.Proofs.Expression.Equality

/-!
# Printing and reading back

A well-formed expression survives its own text. What its text cannot show is the connective of the
last clause, and whether an `and` was left out.

## Main results

* `parse_render_eq_settled` — what the text of a well-formed expression reads as
* `parse_render_of_wellFormed` — the text of a well-formed expression reads as the expression
-/

namespace ChargeScreening

/-- No count of operands stops the reader if each is one that the operation takes. -/
theorem checkCounts_eq_ok {cs : List Clause} (h : ∀ c ∈ cs, c.operand.hasCount = true) :
    checkCounts cs = .ok () := by
  induction cs with
  | nil => rfl
  | cons c rest ih =>
    have hcount : c.operand.checkCount = .ok () := by
      have hc := h c (List.mem_cons_self ..)
      cases hoperand : c.operand with
      | field path => rfl
      | formula op args =>
        rw [hoperand] at hc
        exact (checkArity_eq_ok_iff op args.length).mpr hc
    rw [checkCounts, hcount]
    exact ih fun d hd => h d (List.mem_cons_of_mem _ hd)

/-- The text of a well-formed expression whose numbers it can hold is accepted. -/
theorem parse_render_eq_settled {e : Expression} (h : e.WellFormed)
    (hnumber : ∀ x ∈ e.numbers, Decimal.Faithful x) :
    Expression.parse e.render = .ok e.reread.settled := by
  rw [parse_render h.nonempty (fun c hc => (h.clauses c hc).worded)
    (fun c hc => (h.clauses c hc).fitting) hnumber,
    checkCounts_eq_ok fun c hc => (h.clauses c hc).counted]
  rfl

/-- **The text of a well-formed expression with finite numbers reads as the expression**, up to the
connectives that a text shows: `and` for a missing one, and none behind the last clause. The two are
compared clause by clause with `==`, for which the two zeros are equal. -/
theorem parse_render_of_wellFormed {e : Expression} (h : e.WellFormed)
    (hfinite : ∀ x ∈ e.numbers, x.isFinite = true) :
    ∃ e', Expression.parse e.render = .ok e' ∧ (e' == e.settled) = true := by
  have hnumber : ∀ x ∈ e.numbers, Decimal.Faithful x :=
    fun x hx => Decimal.faithful_of_isFinite (hfinite x hx)
  exact ⟨e.reread.settled, parse_render_eq_settled h hnumber,
    reread_settled_beq (fun c hc => (h.clauses c hc).fitting) fun x hx => (hnumber x hx).readsBack⟩

/-- The theorem on an expression with keywords for paths, quotes and a backslash in a text, a zero
with a sign, and connectives that are missing or too many. -/
theorem parse_render_of_wellFormed_awkward :
    let e : Expression := ⟨[
      ⟨true, .field "NOT", .co, .text "say \"a\\b\" ", none⟩,
      ⟨false, .formula .div [.field "and", .constant (-0.0), .field "x.y-z.1"], .ge,
        .number (-1234.5625), some .or⟩,
      ⟨false, .field "in", .isIn, .list [.number 0.1, .text ")", .bool false], some .and⟩]⟩
    e.WellFormed ∧ (∀ x ∈ e.numbers, x.isFinite = true)
      ∧ ∃ e', Expression.parse e.render = .ok e' ∧ (e' == e.settled) = true := by
  intro e
  have hwell : e.WellFormed := by
    refine ⟨List.cons_ne_nil _ _, fun c hc => ?_⟩
    simp only [e, List.mem_cons, List.not_mem_nil, or_false] at hc
    rcases hc with rfl | rfl | rfl <;> constructor <;> decide
  have hfinite : ∀ x ∈ e.numbers, x.isFinite = true := by
    intro x hx
    have hx : x ∈ [-0.0, -1234.5625, 0.1] := hx
    simp only [List.mem_cons, List.not_mem_nil, or_false] at hx
    rcases hx with rfl | rfl | rfl <;> decide +kernel
  exact ⟨hwell, hfinite, parse_render_of_wellFormed hwell hfinite⟩

end ChargeScreening
