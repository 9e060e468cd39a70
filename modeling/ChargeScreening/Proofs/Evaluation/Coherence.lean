import ChargeScreening.Evaluation.Comparison
import ChargeScreening.Proofs.Decimal.Magnitude

/-!
# Six comparisons of one order

The operators of equality and order all read one optional order between an attribute's value and a
literal, and whether they get one depends on the two alone. Arrays, objects and lists are never
compared, and truth values and unrelated scalars for equality only. All other sides have an order,
with one exception: two numbers of which one is no number.

## Main definitions

* `comparedNumbers?` — the two doubles that a value and a literal are compared as
* `ComparesNaN` — whether one of them is no number

## Main results

* `numberOrder_eq_compare`, `numberOrder_eq_none_iff` — the order of two doubles
* `orderFor_cases` — what order there is between a value and a literal, for all operators at once
* `six_comparisons_cohere` — the six operators agree with each other
-/

namespace ChargeScreening

/-! ### The order of two doubles -/

section Doubles

open Float.Model Float.Model.UnpackedFloat

variable {x y : Float}

theorem beq_iff_compare :
    (x == y) = true ↔ x.toModel.unpack.compare y.toModel.unpack = some .eq := by
  change (x.toModel.unpack.compare y.toModel.unpack == some .eq) = true ↔ _
  rw [beq_iff_eq]

theorem lt_iff_compare : x < y ↔ x.toModel.unpack.compare y.toModel.unpack = some .lt := by
  change decide (x.toModel < y.toModel) = true ↔ _
  rw [decide_eq_true_iff]
  change (x.toModel.unpack.compare y.toModel.unpack == some .lt) = true ↔ _
  rw [beq_iff_eq]

/-- Comparing the other way round reverses the order. -/
theorem compare_swap (u v : UnpackedFloat) : v.compare u = (u.compare v).map Ordering.swap := by
  cases u with
  | notANumber => cases v <;> rfl
  | infinity s =>
    cases v with
    | infinity t => cases s <;> cases t <;> rfl
    | notANumber => cases s <;> rfl
    | zero t => cases s <;> rfl
    | finite t m e h => cases s <;> cases t <;> rfl
  | zero s =>
    cases v with
    | infinity t => cases t <;> rfl
    | notANumber => rfl
    | zero t => rfl
    | finite t m e h => cases t <;> rfl
  | finite s m e h =>
    cases v with
    | infinity t => cases s <;> cases t <;> rfl
    | notANumber => rfl
    | zero t => cases s <;> rfl
    | finite t m' e' h' =>
      have hswap : (compare e' e).then (compare m' m)
          = ((compare e e').then (compare m m')).swap := by
        rw [Ordering.swap_then, Int.compare_swap, Nat.compare_swap]
      cases s <;> cases t <;> simp [UnpackedFloat.compare, hswap]

/-- There is no order only next to what is no number. -/
theorem compare_eq_none_iff (u v : UnpackedFloat) :
    u.compare v = none ↔ u.isNaN = true ∨ v.isNaN = true := by
  unfold UnpackedFloat.compare
  split <;> simp_all [UnpackedFloat.isNaN]

/-- The tests for equal, below and above, in this order, find the order that there is. -/
theorem numberOrder_eq_compare (x y : Float) :
    numberOrder x y = x.toModel.unpack.compare y.toModel.unpack := by
  have hswap := compare_swap x.toModel.unpack y.toModel.unpack
  rw [numberOrder]
  simp only [beq_iff_compare, lt_iff_compare, hswap]
  cases x.toModel.unpack.compare y.toModel.unpack with
  | none => rfl
  | some order => cases order <;> rfl

/-- Two doubles are ordered unless one of them is no number. -/
theorem numberOrder_eq_none_iff : numberOrder x y = none ↔ x.isNaN = true ∨ y.isNaN = true := by
  rw [numberOrder_eq_compare, compare_eq_none_iff]
  rfl

end Doubles

/-! ### What is compared as numbers -/

/-- The two doubles that a value and a literal are compared as, if they are compared as numbers: the
value is one, and the literal is one or spells one between blanks. -/
def comparedNumbers? : Value → Literal → Option (Float × Float)
  | .number x, .number y => some (x, y)
  | .number x, .text s => (Decimal.readList? (Text.trimList s.toList)).map (x, ·)
  | _, _ => none

/-- Whether a value and a literal are compared as numbers of which one is no number. -/
def ComparesNaN (left : Value) (right : Literal) : Prop :=
  ∃ x y, comparedNumbers? left right = some (x, y) ∧ (x.isNaN = true ∨ y.isNaN = true)

theorem not_comparesNaN {left : Value} {right : Literal} (h : comparedNumbers? left right = none) :
    ¬ComparesNaN left right := by
  rintro ⟨x, y, hsome, -⟩
  rw [h] at hsome
  cases hsome

theorem comparesNaN_iff {left : Value} {right : Literal} {x y : Float}
    (h : comparedNumbers? left right = some (x, y)) :
    numberOrder x y = none ↔ ComparesNaN left right := by
  rw [numberOrder_eq_none_iff, ComparesNaN, h]
  constructor
  · exact fun hnan => ⟨x, y, rfl, hnan⟩
  · rintro ⟨x', y', hsame, hnan⟩
    cases hsame
    exact hnan

/-! ### One order for all operators -/

section Order

variable {left : Value} {right : Literal}

/-- Every operator is applied to one order, which is missing only next to what is no number. -/
def OrderedAs (order : Option Ordering) (left : Value) (right : Literal) : Prop :=
  (∀ op, orderFor op left right = .ok order) ∧ (order = none ↔ ComparesNaN left right)

/-- An operator that asks for no order is applied to this one, and the others fail. -/
def EqualityOnly (order : Option Ordering) (left : Value) (right : Literal) : Prop :=
  ∀ op : Operator, orderFor op left right
    = if op.isOrdering then .error (mismatch op left right) else .ok order

/-- Every operator fails. -/
def NeverCompared (left : Value) (right : Literal) : Prop :=
  ∀ op, orderFor op left right = .error (mismatch op left right)

theorem orderedAs_of_numbers {x y : Float}
    (h : ∀ op, align op left right = .ok (.numbers x y))
    (hnumbers : comparedNumbers? left right = some (x, y)) :
    OrderedAs (numberOrder x y) left right := by
  refine ⟨fun op => ?_, comparesNaN_iff hnumbers⟩
  rw [orderFor, h]

theorem orderedAs_of_texts {l r : String} (h : ∀ op, align op left right = .ok (.texts l r))
    (hnumbers : comparedNumbers? left right = none) :
    OrderedAs (some (textOrder l r)) left right := by
  refine ⟨fun op => ?_, iff_of_false nofun (not_comparesNaN hnumbers)⟩
  rw [orderFor, h]

theorem equalityOnly_of_bools {l r : Bool} (h : ∀ op, align op left right = .ok (.bools l r)) :
    EqualityOnly (some (boolOrder l r)) left right := by
  intro op
  rw [orderFor, h]

theorem equalityOnly_of_unrelated (h : ∀ op, align op left right = .ok .unrelated) :
    EqualityOnly none left right := by
  intro op
  rw [orderFor, h]

end Order

/-- **Whether there is an order, and which, is the same for all operators.** -/
theorem orderFor_cases (left : Value) (right : Literal) :
    (∃ order, OrderedAs order left right) ∨ (∃ order, EqualityOnly order left right)
      ∨ NeverCompared left right := by
  cases left with
  | null =>
    cases right with
    | list items => exact .inr (.inr fun op => rfl)
    | _ => exact .inr (.inl ⟨_, equalityOnly_of_unrelated fun op => rfl⟩)
  | bool b =>
    cases right with
    | number y => exact .inr (.inl ⟨_, equalityOnly_of_unrelated fun op => rfl⟩)
    | bool b' => exact .inr (.inl ⟨_, equalityOnly_of_bools fun op => rfl⟩)
    | list items => exact .inr (.inr fun op => rfl)
    | text s =>
      right; left
      cases hread : readBool? s with
      | none => exact ⟨_, equalityOnly_of_unrelated fun op => by simp only [align, hread]⟩
      | some b' => exact ⟨_, equalityOnly_of_bools fun op => by simp only [align, hread]; rfl⟩
  | number x =>
    cases right with
    | number y => exact .inl ⟨_, orderedAs_of_numbers (fun op => rfl) rfl⟩
    | bool b => exact .inr (.inl ⟨_, equalityOnly_of_unrelated fun op => rfl⟩)
    | list items => exact .inr (.inr fun op => rfl)
    | text s =>
      left
      cases hread : Decimal.readList? (Text.trimList s.toList) with
      | none =>
        exact ⟨_, orderedAs_of_texts (fun op => by simp only [align, hread]; rfl)
          (by rw [comparedNumbers?, hread]; rfl)⟩
      | some y =>
        exact ⟨_, orderedAs_of_numbers (fun op => by simp only [align, hread]; rfl)
          (by rw [comparedNumbers?, hread]; rfl)⟩
  | text s =>
    cases right with
    | number y => exact .inl ⟨_, orderedAs_of_texts (fun op => rfl) rfl⟩
    | text t => exact .inl ⟨_, orderedAs_of_texts (fun op => rfl) rfl⟩
    | list items => exact .inr (.inr fun op => rfl)
    | bool b =>
      right; left
      cases hread : readBool? s with
      | none => exact ⟨_, equalityOnly_of_unrelated fun op => by simp only [align, hread]⟩
      | some b' => exact ⟨_, equalityOnly_of_bools fun op => by simp only [align, hread]; rfl⟩
  | array items => exact .inr (.inr fun op => rfl)
  | object members => exact .inr (.inr fun op => rfl)

/-! ### The six operators -/

namespace Operator

theorem holds_ne (order : Option Ordering) : ne.holds order = !eq.holds order := by
  cases order with
  | none => rfl
  | some o => cases o <;> rfl

theorem holds_le (order : Option Ordering) :
    le.holds order = (lt.holds order || eq.holds order) := by
  cases order with
  | none => rfl
  | some o => cases o <;> rfl

theorem holds_ge (order : Option Ordering) :
    ge.holds order = (gt.holds order || eq.holds order) := by
  cases order with
  | none => rfl
  | some o => cases o <;> rfl

/-- Of below, equal and above, one holds of an order and none without one. -/
theorem count_holds (order : Option Ordering) :
    [lt.holds order, eq.holds order, gt.holds order].count true
      = if order = none then 0 else 1 := by
  cases order with
  | none => rfl
  | some o => cases o <;> rfl

end Operator

/-- Whether an operator is one of equality or order. -/
def Operator.readsOrder : Operator → Bool
  | .eq | .ne | .lt | .le | .gt | .ge => true
  | .co | .ew | .isIn => false

theorem Operator.readsOrder_of_isOrdering {op : Operator} (h : op.isOrdering = true) :
    op.readsOrder = true := by
  cases op with
  | eq | ne | co | ew | isIn => cases h
  | lt | le | gt | ge => rfl

/-- An operator of equality or order has its result from the order between the two sides. -/
theorem compareValue_eq_map {left : Value} (hnull : left.isNull = false) {op : Operator}
    (hop : op.readsOrder = true) (right : Literal) :
    compareValue left op right = (orderFor op left right).map op.holds := by
  cases op with
  | co | ew | isIn => cases hop
  | _ => simp [compareValue, hnull]

/-- The outcome of equality settles that of inequality. -/
theorem compareValue_ne_iff {left : Value} (hnull : left.isNull = false) (right : Literal)
    (b : Bool) :
    compareValue left .ne right = .ok b ↔ compareValue left .eq right = .ok (!b) := by
  have hresult (order : Option Ordering) :
      (Except.ok (Operator.ne.holds order) : Except EvalError Bool) = .ok b
        ↔ (Except.ok (Operator.eq.holds order) : Except EvalError Bool) = .ok (!b) := by
    rw [Operator.holds_ne, Except.ok.injEq, Except.ok.injEq, Bool.not_eq_eq_eq_not]
  rw [compareValue_eq_map hnull rfl, compareValue_eq_map hnull rfl]
  obtain ⟨order, hsame, -⟩ | ⟨order, honly⟩ | hnever := orderFor_cases left right
  · rw [hsame, hsame]
    exact hresult order
  · rw [honly, honly]
    exact hresult order
  · rw [hnever, hnever]
    exact iff_of_false nofun nofun

/-- **The six comparisons of a value that is not `null` cohere.** Inequality has a result just if
equality has, and it is the opposite. Either all four ordering operators fail on a mismatch; or all
six have results, those of `le` and `ge` are put together from those of `lt`, `eq` and `gt`, and of
these three at most one is met. It is exactly one unless two numbers are compared of which one is
no number. -/
theorem six_comparisons_cohere {left : Value} (hnull : left.isNull = false) (right : Literal) :
    (∀ b, compareValue left .ne right = .ok b ↔ compareValue left .eq right = .ok (!b))
      ∧ ((∀ op : Operator, op.isOrdering = true →
          compareValue left op right = .error (mismatch op left right))
        ∨ ∃ lt eq gt, compareValue left .lt right = .ok lt ∧ compareValue left .eq right = .ok eq
          ∧ compareValue left .gt right = .ok gt
          ∧ compareValue left .le right = .ok (lt || eq)
          ∧ compareValue left .ge right = .ok (gt || eq)
          ∧ [lt, eq, gt].count true ≤ 1
          ∧ ([lt, eq, gt].count true = 1 ↔ ¬ComparesNaN left right)) := by
  refine ⟨compareValue_ne_iff hnull right, ?_⟩
  obtain ⟨order, hsame, hnan⟩ | ⟨order, honly⟩ | hnever := orderFor_cases left right
  · have hresult {op : Operator} (hop : op.readsOrder = true) :
        compareValue left op right = .ok (op.holds order) := by
      rw [compareValue_eq_map hnull hop, hsame]
      rfl
    refine .inr ⟨_, _, _, hresult rfl, hresult rfl, hresult rfl, ?_, ?_, ?_, ?_⟩
    · rw [hresult rfl, Operator.holds_le]
    · rw [hresult rfl, Operator.holds_ge]
    · rw [Operator.count_holds]
      split <;> decide
    · rw [Operator.count_holds, ← hnan]
      cases order <;> simp
  · refine .inl fun op hop => ?_
    rw [compareValue_eq_map hnull (Operator.readsOrder_of_isOrdering hop), honly, if_pos hop]
    rfl
  · refine .inl fun op hop => ?_
    rw [compareValue_eq_map hnull (Operator.readsOrder_of_isOrdering hop), hnever]
    rfl

/-- The theorem on a number and a text that spells what is no number: the sides are compared as
numbers, and none of the three is met. -/
theorem six_comparisons_cohere_spelledNaN :
    let left : Value := .number 12
    let right : Literal := .text " NaN "
    left.isNull = false ∧ ComparesNaN left right
      ∧ compareValue left .eq right = .ok false ∧ compareValue left .ne right = .ok true
      ∧ ∃ lt eq gt, compareValue left .lt right = .ok lt ∧ compareValue left .eq right = .ok eq
        ∧ compareValue left .gt right = .ok gt ∧ compareValue left .le right = .ok (lt || eq)
        ∧ compareValue left .ge right = .ok (gt || eq) ∧ [lt, eq, gt].count true = 0 := by
  intro left right
  have hnull : left.isNull = false := rfl
  have hread : ((comparedNumbers? left right).any fun p => p.2.isNaN) = true := by decide +kernel
  have hnan : ComparesNaN left right := by
    obtain ⟨⟨x, y⟩, hsome, hy⟩ := (Option.any_eq_true ..).mp hread
    exact ⟨x, y, hsome, .inr hy⟩
  have heq : compareValue left .eq right = .ok false := by decide +kernel
  have hlt : compareValue left .lt right = .ok false := by decide +kernel
  obtain ⟨hne, hfails | ⟨lt, eq, gt, h⟩⟩ := six_comparisons_cohere hnull right
  · rw [hfails .lt rfl] at hlt
    cases hlt
  · obtain ⟨h₁, h₂, h₃, h₄, h₅, hmost, hone⟩ := h
    refine ⟨hnull, hnan, heq, (hne true).mpr heq, lt, eq, gt, h₁, h₂, h₃, h₄, h₅, ?_⟩
    have hnone := mt hone.mp (not_not.mpr hnan)
    omega

end ChargeScreening
