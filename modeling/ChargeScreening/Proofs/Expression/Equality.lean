import ChargeScreening.Proofs.Expression.Parsing

/-!
# Equality of expressions

Expressions are compared with `==`, which compares their numbers as doubles and everything else
literally. Zero with and without its sign are equal, so what a text reads as is equal to the
expression it was written from without being the same tree.

## Main results

* `reread_settled_beq` — an expression whose numbers read back is equal to its own rereading
* `exists_number_beq` — equal expressions have equal numbers
* `isWorded_of_settled_beq` — equal expressions name the same paths
-/

namespace ChargeScreening

/-! ### Formula operands and operands -/

theorem FormulaArg.reread_beq {a : FormulaArg} (h : ∀ x ∈ a.numbers, Decimal.ReadsBack x) :
    (a.reread == a) = true := by
  cases a with
  | field path => exact beq_self_eq_true path
  | constant x => exact (h x (List.mem_singleton_self x)).2

theorem FormulaArg.isWorded_of_beq {a b : FormulaArg} (h : (a == b) = true) :
    a.isWorded = b.isWorded := by
  cases a with
  | field path =>
    cases b with
    | field other => rw [show path = other from eq_of_beq h]
    | constant y => cases h
  | constant x =>
    cases b with
    | field other => cases h
    | constant y => rfl

theorem Operand.formula_beq (op op' : MathOp) (args args' : List FormulaArg) :
    (Operand.formula op args == .formula op' args') = (op == op' && args == args') := rfl

/-- Lists that are equal item by item, by a test that each pair passes. -/
theorem map_beq_self {α : Type} [BEq α] {f : α → α} {items : List α}
    (h : ∀ a ∈ items, (f a == a) = true) : (items.map f == items) = true := by
  induction items with
  | nil => rfl
  | cons a items ih =>
    rw [List.map_cons, List.cons_beq_cons, h a (List.mem_cons_self ..),
      ih fun b hb => h b (List.mem_cons_of_mem _ hb)]
    rfl

theorem Operand.reread_beq {operand : Operand} (h : ∀ x ∈ operand.numbers, Decimal.ReadsBack x) :
    (operand.reread == operand) = true := by
  cases operand with
  | field path => exact beq_self_eq_true path
  | formula op args =>
    have hargs : (args.map FormulaArg.reread == args) = true := by
      refine map_beq_self fun a ha => FormulaArg.reread_beq fun x hx => h x ?_
      exact List.mem_flatMap.mpr ⟨a, ha, hx⟩
    rw [Operand.reread, Operand.formula_beq, hargs, beq_self_eq_true]
    rfl

theorem all_isWorded_of_beq {args others : List FormulaArg} (h : (args == others) = true) :
    args.all FormulaArg.isWorded = others.all FormulaArg.isWorded := by
  induction args generalizing others with
  | nil =>
    cases others with
    | nil => rfl
    | cons b others => cases h
  | cons a args ih =>
    cases others with
    | nil => cases h
    | cons b others =>
      rw [List.cons_beq_cons, Bool.and_eq_true] at h
      rw [List.all_cons, List.all_cons, FormulaArg.isWorded_of_beq h.1, ih h.2]

theorem Operand.isWorded_of_beq {operand other : Operand} (h : (operand == other) = true)
    (negated : Bool) : operand.isWorded negated = other.isWorded negated := by
  cases operand with
  | field path =>
    cases other with
    | field path' => rw [show path = path' from eq_of_beq h]
    | formula op' args' => cases h
  | formula op args =>
    cases other with
    | field path' => cases h
    | formula op' args' =>
      rw [Operand.formula_beq, Bool.and_eq_true] at h
      exact all_isWorded_of_beq h.2

/-! ### Literals -/

theorem Literal.rereadScalar_beq {value : Literal} (hscalar : value.isScalar = true)
    (h : ∀ x ∈ value.numbers, Decimal.ReadsBack x) : (value.rereadScalar == value) = true := by
  cases value with
  | number x => exact (h x (List.mem_singleton_self x)).2
  | text s => exact beq_self_eq_true s
  | bool b => exact beq_self_eq_true b
  | list items => cases hscalar

theorem Literal.sameItems_eq_beq (items others : List Literal) :
    Literal.sameItems items others = (items == others) := by
  induction items generalizing others with
  | nil => cases others <;> rfl
  | cons item items ih =>
    cases others with
    | nil => rfl
    | cons other others =>
      rw [Literal.sameItems, ih, List.cons_beq_cons]
      rfl

theorem Literal.reread_beq {value : Literal} {op : Operator} (hfits : value.fits op = true)
    (h : ∀ x ∈ value.numbers, Decimal.ReadsBack x) : (value.reread == value) = true := by
  cases value with
  | number x => exact Literal.rereadScalar_beq rfl h
  | text s => exact Literal.rereadScalar_beq rfl h
  | bool b => exact Literal.rereadScalar_beq rfl h
  | list items =>
    have hscalars : ∀ item ∈ items, item.isScalar = true :=
      List.all_eq_true.mp (Bool.and_eq_true_iff.mp hfits).2
    change Literal.sameItems (items.map Literal.rereadScalar) items = true
    rw [Literal.sameItems_eq_beq]
    exact map_beq_self fun item hitem =>
      Literal.rereadScalar_beq (hscalars item hitem) fun x hx =>
        h x (Literal.mem_itemNumbers hitem hx)

/-! ### Clauses -/

theorem Clause.beq_iff (c d : Clause) :
    (c == d) = true ↔ c.negated = d.negated ∧ (c.operand == d.operand) = true
      ∧ c.operator = d.operator ∧ (c.value == d.value) = true ∧ c.connective = d.connective := by
  change (c.negated == d.negated && (c.operand == d.operand && (c.operator == d.operator
    && (c.value == d.value && c.connective == d.connective)))) = true ↔ _
  simp only [Bool.and_eq_true, beq_iff_eq]

theorem Clause.reread_beq {c : Clause} (hfits : c.value.fits c.operator = true)
    (h : ∀ x ∈ c.numbers, Decimal.ReadsBack x) (joint : Option Connective) :
    ({ c.reread with connective := joint } == { c with connective := joint }) = true := by
  rw [Clause.beq_iff]
  have hoperand := Operand.reread_beq fun x hx => h x (List.mem_append_left _ hx)
  have hvalue := Literal.reread_beq hfits fun x hx => h x (List.mem_append_right _ hx)
  exact ⟨rfl, hoperand, rfl, hvalue, rfl⟩

theorem settle_reread_beq {cs : List Clause} (hfits : ∀ c ∈ cs, c.value.fits c.operator = true)
    (h : ∀ c ∈ cs, ∀ x ∈ c.numbers, Decimal.ReadsBack x) :
    (settle (cs.map Clause.reread) == settle cs) = true := by
  fun_induction settle cs with
  | case1 => rfl
  | case2 c =>
    have hc := List.mem_singleton_self c
    rw [List.map_singleton, settle, List.cons_beq_cons, Clause.reread_beq (hfits c hc) (h c hc)]
    rfl
  | case3 c d rest ih =>
    have hc : c ∈ c :: d :: rest := List.mem_cons_self ..
    have hrest := ih (fun x hx => hfits x (List.mem_cons_of_mem _ hx))
      (fun x hx => h x (List.mem_cons_of_mem _ hx))
    rw [List.map_cons] at hrest
    rw [List.map_cons, List.map_cons, settle, List.cons_beq_cons, hrest]
    exact Bool.and_eq_true_iff.mpr ⟨Clause.reread_beq (hfits c hc) (h c hc) _, rfl⟩

/-! ### Expressions -/

/-- An expression whose numbers read back is equal to what its text reads as. -/
theorem reread_settled_beq {e : Expression}
    (hfits : ∀ c ∈ e.clauses, c.value.fits c.operator = true)
    (h : ∀ x ∈ e.numbers, Decimal.ReadsBack x) : (e.reread.settled == e.settled) = true :=
  settle_reread_beq hfits fun c hc x hx => h x (List.mem_flatMap.mpr ⟨c, hc, hx⟩)

theorem exists_beq_of_mem {α : Type} [BEq α] {items others : List α}
    (h : (items == others) = true) {b : α} (hb : b ∈ others) : ∃ a ∈ items, (a == b) = true := by
  induction items generalizing others with
  | nil =>
    cases others with
    | nil => cases hb
    | cons c others => cases h
  | cons a items ih =>
    cases others with
    | nil => cases hb
    | cons c others =>
      rw [List.cons_beq_cons, Bool.and_eq_true] at h
      rcases List.mem_cons.mp hb with rfl | hb
      · exact ⟨a, List.mem_cons_self .., h.1⟩
      · obtain ⟨a', ha', hab⟩ := ih h.2 hb
        exact ⟨a', List.mem_cons_of_mem _ ha', hab⟩

/-! ### Numbers -/

theorem FormulaArg.exists_number_beq {a b : FormulaArg} (h : (a == b) = true) {x : Float}
    (hx : x ∈ b.numbers) : ∃ y ∈ a.numbers, (y == x) = true := by
  cases b with
  | field path => cases hx
  | constant z =>
    cases a with
    | field path => cases h
    | constant y =>
      rw [List.mem_singleton.mp hx]
      exact ⟨y, List.mem_singleton_self y, h⟩

/-- If items that are equal have equal numbers, then so have rows of items that are equal. -/
theorem exists_number_beq_of_mem {α : Type} [BEq α] {numbers : α → List Float}
    (hitem : ∀ {a b : α}, (a == b) = true → ∀ {x}, x ∈ numbers b →
      ∃ y ∈ numbers a, (y == x) = true)
    {items others : List α} (h : (items == others) = true) {x : Float}
    (hx : x ∈ others.flatMap numbers) : ∃ y ∈ items.flatMap numbers, (y == x) = true := by
  obtain ⟨b, hb, hx⟩ := List.mem_flatMap.mp hx
  obtain ⟨a, ha, hab⟩ := exists_beq_of_mem h hb
  obtain ⟨y, hy, hyx⟩ := hitem hab hx
  exact ⟨y, List.mem_flatMap.mpr ⟨a, ha, hy⟩, hyx⟩

theorem Operand.exists_number_beq {a b : Operand} (h : (a == b) = true) {x : Float}
    (hx : x ∈ b.numbers) : ∃ y ∈ a.numbers, (y == x) = true := by
  cases b with
  | field path => cases hx
  | formula op' others =>
    cases a with
    | field path => cases h
    | formula op args =>
      rw [Operand.formula_beq, Bool.and_eq_true] at h
      exact exists_number_beq_of_mem FormulaArg.exists_number_beq h.2 hx

mutual

theorem Literal.exists_number_beq : ∀ {a b : Literal}, Literal.same a b = true →
    ∀ {x : Float}, x ∈ b.numbers → ∃ y ∈ a.numbers, (y == x) = true
  | .number y, .number _, h, _, hx => by
    rw [List.mem_singleton.mp hx]
    exact ⟨y, List.mem_singleton_self y, h⟩
  | .list _, .list _, h, _, hx => Literal.exists_itemNumber_beq h hx
  | _, .text _, _, _, hx => nomatch hx
  | _, .bool _, _, _, hx => nomatch hx

theorem Literal.exists_itemNumber_beq : ∀ {items others : List Literal},
    Literal.sameItems items others = true → ∀ {x : Float}, x ∈ Literal.itemNumbers others →
      ∃ y ∈ Literal.itemNumbers items, (y == x) = true
  | _, [], _, _, hx => nomatch hx
  | item :: items, other :: others, h, x, hx => by
    rw [Literal.sameItems, Bool.and_eq_true] at h
    rcases List.mem_append.mp hx with hx | hx
    · obtain ⟨y, hy, hyx⟩ := Literal.exists_number_beq h.1 hx
      exact ⟨y, List.mem_append_left _ hy, hyx⟩
    · obtain ⟨y, hy, hyx⟩ := Literal.exists_itemNumber_beq h.2 hx
      exact ⟨y, List.mem_append_right _ hy, hyx⟩

end

theorem Clause.exists_number_beq {c d : Clause} (h : (c == d) = true) {x : Float}
    (hx : x ∈ d.numbers) : ∃ y ∈ c.numbers, (y == x) = true := by
  obtain ⟨-, hoperand, -, hvalue, -⟩ := (Clause.beq_iff c d).mp h
  rcases List.mem_append.mp hx with hx | hx
  · obtain ⟨y, hy, hyx⟩ := Operand.exists_number_beq hoperand hx
    exact ⟨y, List.mem_append_left _ hy, hyx⟩
  · obtain ⟨y, hy, hyx⟩ := Literal.exists_number_beq hvalue hx
    exact ⟨y, List.mem_append_right _ hy, hyx⟩

/-- Each number of an expression is equal to one of an equal expression. -/
theorem exists_number_beq {e e' : Expression} (h : (e' == e) = true) {x : Float}
    (hx : x ∈ e.numbers) : ∃ y ∈ e'.numbers, (y == x) = true := by
  have hclauses : (e'.clauses == e.clauses) = true := h
  exact exists_number_beq_of_mem Clause.exists_number_beq hclauses hx

/-! ### Paths -/

/-- The clauses of an expression name words if those of an equal expression do, whatever their
connectives. -/
theorem isWorded_of_settled_beq {e e' : Expression} (h : (e' == e.settled) = true)
    (hword : ∀ c ∈ e'.clauses, c.operand.isWorded c.negated = true) :
    ∀ c ∈ e.clauses, c.operand.isWorded c.negated = true := by
  intro c hc
  have hsettled : c.operand.isWorded c.negated ∈
      (settle e.clauses).map fun c => c.operand.isWorded c.negated := by
    rw [map_settle fun _ _ => rfl]
    exact List.mem_map_of_mem hc
  obtain ⟨d, hd, hdc⟩ := List.mem_map.mp hsettled
  have hclauses : (e'.clauses == settle e.clauses) = true := h
  obtain ⟨b, hb, hbd⟩ := exists_beq_of_mem hclauses hd
  obtain ⟨hneg, hoperand, -⟩ := (Clause.beq_iff b d).mp hbd
  rw [← hdc, ← hneg, ← Operand.isWorded_of_beq hoperand]
  exact hword b hb

end ChargeScreening
