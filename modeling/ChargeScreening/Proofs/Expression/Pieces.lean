import ChargeScreening.Proofs.Decimal.Readback
import ChargeScreening.Proofs.Expression.Derivation
import ChargeScreening.Proofs.Expression.Splitting

/-!
# What rule text is put together from

The text of an expression is put together from its paths and from pieces that hold no surprise:
keywords, texts in quotes, brackets, commas, and numbers. If the whole of it splits into tokens,
then each piece splits by itself, and a statement on tokens that holds of every piece and is kept by
putting pieces in a row holds of the whole. Nothing is asked of the paths but that they leave no
quote open. What they split into is what the statement has to deal with.

## Main definitions

* `Adds` — a text that adds a row of token kinds of some sort, in front of anything closed
* `TokenKind.isPlain` — the token kinds that a text has apart from its paths
* `Piecewise` — a statement on paths and token kinds that is kept by putting pieces in a row

## Main results

* `Piecewise.adds_renderClauses` — such a statement holds of a chain of clauses
* `Piecewise.of_parse_render` — and of what the text of an expression reads as
-/

namespace ChargeScreening

/-! ### Texts in front of others -/

/-- If the text splits in front of a closed one, then the other does too, and the text adds a row
of token kinds of this sort. -/
def Adds (P : List TokenKind → Prop) (s : String) : Prop :=
  ∀ rest kinds, Closed rest → Lexes (s.toList ++ rest) kinds →
    ∃ own others, Lexes rest others ∧ kinds = own ++ others ∧ P own

theorem Lexes.of_blank {c : Char} {cs : List Char} {kinds : List TokenKind}
    (h : Lexes (c :: cs) kinds) (hc : Text.isBlank c = true) : Lexes cs kinds := by
  obtain ⟨ts, hts, rfl⟩ := h 0
  rw [tokensFrom, if_pos hc] at hts
  exact lexes_of_tokensFrom hts

theorem Lexes.of_punctuation {c : Char} {cs : List Char} {kind : TokenKind} {kinds : List TokenKind}
    (h : Lexes (c :: cs) kinds) (hc : punctuation? c = some kind) :
    ∃ others, Lexes cs others ∧ kinds = kind :: others := by
  obtain ⟨ts, hts, rfl⟩ := h 0
  rw [tokensFrom_lexeme (isBlank_of_punctuation? hc) (Lexeme.read_punctuation hc cs)] at hts
  obtain ⟨left, hleft, rfl⟩ := exists_of_map_eq_ok hts
  exact ⟨_, lexes_of_tokensFrom hleft, rfl⟩

/-- A text that leaves no quote open adds what it splits into by itself. -/
theorem Adds.of_tokenize {P : List TokenKind → Prop} {s : String}
    (hquote : leavesQuoteOpen s = false)
    (hown : ∀ ts, tokenize s = .ok ts → P (ts.map Token.kind)) : Adds P s := by
  intro rest kinds hclosed hwhole
  obtain ⟨ts, hts, rfl⟩ := hwhole 0
  have hfault : ∀ offset, tokensFrom 0 s.toList ≠ .error (.unterminatedString offset) := by
    intro offset hfault
    rw [leavesQuoteOpen, tokenize, hfault] at hquote
    cases hquote
  rw [tokensFrom_append hclosed hfault] at hts
  cases hs : tokensFrom 0 s.toList with
  | error e =>
    rw [hs] at hts
    cases hts
  | ok own =>
    rw [hs] at hts
    obtain ⟨left, hleft, rfl⟩ := exists_of_map_eq_ok hts
    exact ⟨_, _, lexes_of_tokensFrom hleft, List.map_append, hown own hs⟩

theorem leavesQuoteOpen_of_lexes {s : String} {kinds : List TokenKind} (h : Lexes s.toList kinds) :
    leavesQuoteOpen s = false := by
  obtain ⟨ts, hts, -⟩ := h 0
  rw [leavesQuoteOpen, tokenize, hts]

theorem Adds.of_lexes {P : List TokenKind → Prop} {s : String} {kinds : List TokenKind}
    (h : Lexes s.toList kinds) (hP : P kinds) : Adds P s := by
  refine .of_tokenize (leavesQuoteOpen_of_lexes h) fun ts hts => ?_
  obtain ⟨ts', hts', rfl⟩ := h 0
  cases hts.symm.trans hts'
  exact hP

/-! ### Statements on pieces -/

/-- Whether a text has a point in it, as the path of anything below the top level has. -/
def isDotted (s : String) : Bool :=
  s.toList.contains '.'

theorem isDotted_iff {s : String} : isDotted s = true ↔ '.' ∈ s.toList :=
  List.contains_iff_mem

/-- The token kinds that the text of an expression has apart from its paths: no word with a point,
no number that is not finite, and no symbol. -/
def TokenKind.isPlain : TokenKind → Bool
  | .word w => !isDotted w
  | .number x => x.isFinite
  | .symbol _ => false
  | _ => true

/-- A statement on the paths in a text and the token kinds it splits into, that holds of the text if
it holds of its pieces. -/
structure Piecewise (P : List String → List TokenKind → Prop) : Prop where
  nil : P [] []
  append {paths others : List String} {kinds more : List TokenKind} (hkinds : P paths kinds)
    (hmore : P others more) : P (paths ++ others) (kinds ++ more)
  plain {kind : TokenKind} (hplain : kind.isPlain = true) : P [] [kind]
  path {s : String} {ts : List Token} (hts : tokenize s = .ok ts) : P [s] (ts.map Token.kind)

namespace Piecewise

variable {P : List String → List TokenKind → Prop} {s t : String} {paths others : List String}

theorem plains (hP : Piecewise P) {kinds : List TokenKind}
    (h : ∀ kind ∈ kinds, kind.isPlain = true) : P [] kinds := by
  induction kinds with
  | nil => exact hP.nil
  | cons kind kinds ih =>
    obtain ⟨hkind, hkinds⟩ := List.forall_mem_cons.mp h
    exact hP.append (hP.plain hkind) (ih hkinds)

theorem isPlain_of_punctuation? {c : Char} {kind : TokenKind} (h : punctuation? c = some kind) :
    kind.isPlain = true := by
  rcases punctuation?_cases h with rfl | rfl | rfl | rfl | rfl <;> cases h <;> rfl

theorem adds_path (hP : Piecewise P) (h : leavesQuoteOpen s = false) : Adds (P [s]) s :=
  .of_tokenize h fun _ => hP.path

theorem adds_word (hP : Piecewise P) (hw : isWord s = true) (hplain : isDotted s = false) :
    Adds (P []) s := by
  have hkind : (TokenKind.word s).isPlain = true := by rw [TokenKind.isPlain, hplain]; rfl
  exact .of_lexes (Spells.word hw).lexes (hP.plain hkind)

/-- Two texts with a blank between them. -/
theorem adds_join (hP : Piecewise P) (hs : Adds (P paths) s) (ht : Adds (P others) t) :
    Adds (P (paths ++ others)) (s ++ " " ++ t) := by
  intro rest kinds hclosed hwhole
  have hspelled : (s ++ " " ++ t).toList ++ rest = s.toList ++ ' ' :: (t.toList ++ rest) := by
    simp [String.toList_append]
  rw [hspelled] at hwhole
  obtain ⟨own, _, hmiddle, rfl, hown⟩ := hs _ _ (Closed.cons (by decide) _) hwhole
  obtain ⟨more, last, hlast, rfl, hmore⟩ := ht _ _ hclosed (hmiddle.of_blank (by decide))
  exact ⟨own ++ more, last, hlast, (List.append_assoc ..).symm, hP.append hown hmore⟩

/-- A text between brackets. -/
theorem adds_enclosed (hP : Piecewise P) {left right : Char} {opening closing : TokenKind}
    (hleft : punctuation? left = some opening) (hright : punctuation? right = some closing)
    (hs : Adds (P paths) s) :
    Adds (P paths) (String.singleton left ++ s ++ String.singleton right) := by
  intro rest kinds _ hwhole
  have hspelled : (String.singleton left ++ s ++ String.singleton right).toList ++ rest
      = left :: (s.toList ++ right :: rest) := by
    simp [String.toList_append]
  have hend : endsLexeme right = true := by simp [endsLexeme, hright]
  rw [hspelled] at hwhole
  obtain ⟨inside, hinside, rfl⟩ := hwhole.of_punctuation hleft
  obtain ⟨own, _, hback, rfl, hown⟩ := hs _ _ (Closed.cons hend _) hinside
  obtain ⟨last, hlast, rfl⟩ := hback.of_punctuation hright
  have hopening := hP.plain (isPlain_of_punctuation? hleft)
  have hclosing := hP.plain (isPlain_of_punctuation? hright)
  have hrow := hP.append hopening (hP.append hown hclosing)
  rw [List.nil_append, List.append_nil] at hrow
  exact ⟨_, last, hlast, by simp, hrow⟩

/-- Texts with commas between them. -/
theorem adds_separated (hP : Piecewise P) {α : Type} {render : α → String}
    {paths : α → List String} {items : List α}
    (hitems : ∀ a ∈ items, Adds (P (paths a)) (render a)) :
    Adds (P (items.flatMap paths)) (String.intercalate "," (items.map render)) := by
  induction items with
  | nil =>
    intro rest kinds _ hwhole
    exact ⟨[], kinds, by simpa using hwhole, rfl, hP.nil⟩
  | cons a items ih =>
    cases items with
    | nil => simpa using hitems a (List.mem_cons_self ..)
    | cons b items =>
      intro rest kinds hclosed hwhole
      have hspelled : (String.intercalate "," ((a :: b :: items).map render)).toList ++ rest
          = (render a).toList
            ++ ',' :: ((String.intercalate "," ((b :: items).map render)).toList ++ rest) := by
        simp [String.toList_append]
      rw [hspelled] at hwhole
      obtain ⟨own, _, hmiddle, rfl, hown⟩ :=
        hitems a (List.mem_cons_self ..) _ _ (Closed.cons (by decide) _) hwhole
      obtain ⟨_, hback, rfl⟩ :=
        hmiddle.of_punctuation (show punctuation? ',' = some .comma from rfl)
      obtain ⟨more, last, hlast, rfl, hmore⟩ :=
        ih (fun x hx => hitems x (List.mem_cons_of_mem _ hx)) _ _ hclosed hback
      have hcomma : P [] [.comma] := hP.plain rfl
      have hrow := hP.append hown (hP.append hcomma hmore)
      rw [List.nil_append] at hrow
      exact ⟨_, last, hlast, by simp, hrow⟩

end Piecewise

/-! ### Numbers -/

private theorem unpacked_of_not_isFinite {u : Float.Model.UnpackedFloat}
    (h : u.isFinite = false) : u.isNaN = true ∨ u.isInf = true := by
  cases u with
  | infinity sign => exact .inr rfl
  | notANumber => exact .inl rfl
  | zero sign => cases h
  | finite sign mantissa exponent hpos => cases h

/-- What the rule text of a double that is not finite can be. -/
theorem ruleText_of_not_isFinite {x : Float} (h : x.isFinite = false) :
    Decimal.ruleText x ∈ ["0", "NaN", "inf", "-inf"] := by
  rw [Decimal.ruleText, Decimal.plainText]
  obtain hnan | hinf : x.isNaN = true ∨ x.isInf = true := unpacked_of_not_isFinite h
  · simp only [hnan]
    split <;> simp
  · simp only [hinf]
    split
    · simp
    · split
      · simp
      · split <;> simp

/-- A number adds a finite one, or a word if it is not finite itself. -/
theorem Piecewise.adds_ruleText {P : List String → List TokenKind → Prop} (hP : Piecewise P)
    (x : Float) : Adds (P []) (Decimal.ruleText x) := by
  cases hfinite : x.isFinite with
  | true =>
    have hx := Decimal.faithful_of_isFinite hfinite
    have hreread : (Decimal.reread x).isFinite = true := by
      rw [Decimal.isFinite_of_beq hx.readsBack.2, hfinite]
    exact .of_lexes (Spells.number hx).lexes (hP.plain hreread)
  | false =>
    have key : ∀ s ∈ ["0", "NaN", "inf", "-inf"], leavesQuoteOpen s = false
        ∧ (tokenize s).toOption.all (fun ts => ts.all fun t => t.kind.isPlain) = true := by
      decide +kernel
    obtain ⟨hquote, hplain⟩ := key _ (ruleText_of_not_isFinite hfinite)
    refine .of_tokenize hquote fun ts hts => hP.plains ?_
    rw [hts] at hplain
    have hall : ∀ t ∈ ts, t.kind.isPlain = true := List.all_eq_true.mp hplain
    exact List.forall_mem_map.mpr hall

/-! ### The canonical text -/

section Render

variable {P : List String → List TokenKind → Prop} (hP : Piecewise P)

include hP

theorem FormulaArg.adds_render {a : FormulaArg}
    (hquotes : ∀ path ∈ a.field?, leavesQuoteOpen path = false) :
    Adds (P a.field?.toList) a.render := by
  cases a with
  | field path => exact hP.adds_path (hquotes path rfl)
  | constant x => exact hP.adds_ruleText x

theorem Operand.adds_render {operand : Operand}
    (hquotes : ∀ path ∈ operand.fields, leavesQuoteOpen path = false) :
    Adds (P operand.fields) operand.render := by
  cases operand with
  | field path => exact hP.adds_path (hquotes path (List.mem_singleton_self path))
  | formula op args =>
    have hargs : ∀ a ∈ args, Adds (P a.field?.toList) a.render :=
      fun a ha => FormulaArg.adds_render hP fun path hpath =>
        hquotes path (List.mem_filterMap.mpr ⟨a, ha, hpath⟩)
    have hleft : punctuation? '(' = some .leftParen := rfl
    have hright : punctuation? ')' = some .rightParen := rfl
    have hword : Adds (P []) op.word := hP.adds_word op.isWord_word (by cases op <;> decide)
    have hcall := hP.adds_join hword (hP.adds_enclosed hleft hright (hP.adds_separated hargs))
    rw [Operand.render_formula, Operand.fields, List.filterMap_eq_flatMap_toList]
    exact hcall

theorem Literal.adds_scalar {value : Literal} (hscalar : value.isScalar = true) :
    Adds (P []) value.render := by
  cases value with
  | number x => exact hP.adds_ruleText x
  | text s => exact .of_lexes (Spells.quoted s).lexes (hP.plain rfl)
  | bool b => exact hP.adds_word (by cases b <;> decide) (by cases b <;> decide)
  | list items => cases hscalar

/-- A literal has no path in it, since a text stands in quotes. -/
theorem Literal.adds_render {value : Literal} {op : Operator} (hfits : value.fits op = true) :
    Adds (P []) value.render := by
  cases value with
  | number x => exact Literal.adds_scalar hP rfl
  | text s => exact Literal.adds_scalar hP rfl
  | bool b => exact Literal.adds_scalar hP rfl
  | list items =>
    have hscalars : ∀ item ∈ items, item.isScalar = true :=
      List.all_eq_true.mp (Bool.and_eq_true_iff.mp hfits).2
    have hitems : ∀ item ∈ items, Adds (P []) item.render :=
      fun item hitem => Literal.adds_scalar hP (hscalars item hitem)
    have hleft : punctuation? '[' = some .leftBracket := rfl
    have hright : punctuation? ']' = some .rightBracket := rfl
    have hlist := hP.adds_enclosed hleft hright (hP.adds_separated hitems)
    rw [List.flatMap_eq_nil_iff.mpr fun _ _ => rfl] at hlist
    rw [Literal.render, Literal.renderItems_eq_map]
    exact hlist

theorem Clause.adds_render {c : Clause} (hfits : c.value.fits c.operator = true)
    (hquotes : ∀ path ∈ c.operand.fields, leavesQuoteOpen path = false) :
    Adds (P c.operand.fields) c.render := by
  have hoperator : Adds (P []) c.operator.word :=
    hP.adds_word c.operator.isWord_word (by cases c.operator <;> decide)
  have hbody := hP.adds_join (hP.adds_join (Operand.adds_render hP hquotes) hoperator)
    (Literal.adds_render hP hfits)
  rw [List.append_nil, List.append_nil] at hbody
  cases hneg : c.negated with
  | false => simpa [Clause.render, hneg] using hbody
  | true =>
    have hnot : Adds (P []) "not" := hP.adds_word (by decide) (by decide)
    simpa [Clause.render, hneg, String.append_assoc] using hP.adds_join hnot hbody

/-- **A statement that holds of the pieces holds of a chain of clauses.** -/
theorem Piecewise.adds_renderClauses {cs : List Clause}
    (hfits : ∀ c ∈ cs, c.value.fits c.operator = true)
    (hquotes : ∀ c ∈ cs, ∀ path ∈ c.operand.fields, leavesQuoteOpen path = false) :
    Adds (P (cs.flatMap fun c => c.operand.fields)) (renderClauses cs) := by
  induction cs with
  | nil =>
    intro rest kinds _ hwhole
    exact ⟨[], kinds, by simpa [renderClauses] using hwhole, rfl, hP.nil⟩
  | cons c cs ih =>
    have hc : Adds (P c.operand.fields) c.render := Clause.adds_render hP
      (hfits c (List.mem_cons_self ..)) (hquotes c (List.mem_cons_self ..))
    have hcs := ih (fun d hd => hfits d (List.mem_cons_of_mem _ hd))
      (fun d hd => hquotes d (List.mem_cons_of_mem _ hd))
    cases cs with
    | nil => rwa [List.flatMap_singleton]
    | cons d rest =>
      have hjoint : Adds (P []) (c.connective.getD .and).word :=
        hP.adds_word (Connective.isWord_word _) (by cases c.connective.getD .and <;> decide)
      have hchain := hP.adds_join (hP.adds_join hc hjoint) hcs
      rw [List.append_nil] at hchain
      rw [List.flatMap_cons]
      exact hchain

end Render

/-! ### What is read back -/

theorem exists_tokens_of_parse {text : String} {e : Expression}
    (h : Expression.parse text = .ok e) :
    ∃ ts, tokenize text = .ok ts ∧ Derives (ts.map Token.kind) e := by
  rw [Expression.parse] at h
  split at h
  · cases h
  · split at h
    · cases h
    · next ts hts => exact ⟨ts, hts, ofTokens_eq_ok_iff.mp h⟩

/-- **What the text of an expression reads as stands for token kinds of which the statement
holds.** -/
theorem Piecewise.of_parse_render {P : List String → List TokenKind → Prop} (hP : Piecewise P)
    {e e' : Expression} (h : Expression.parse e.render = .ok e')
    (hfits : ∀ c ∈ e.clauses, c.value.fits c.operator = true)
    (hquotes : ∀ path ∈ e.fields, leavesQuoteOpen path = false) :
    ∃ kinds, Derives kinds e' ∧ P e.fields kinds := by
  obtain ⟨ts, hts, hderives⟩ := exists_tokens_of_parse h
  have hadds : Adds (P e.fields) e.render := hP.adds_renderClauses hfits fun c hc path hpath =>
    hquotes path (List.mem_flatMap.mpr ⟨c, hc, hpath⟩)
  have hwhole : Lexes (e.render.toList ++ []) (ts.map Token.kind) := by
    rw [List.append_nil]
    exact lexes_of_tokensFrom hts
  obtain ⟨own, others, hothers, hkinds, hown⟩ := hadds [] _ Closed.nil hwhole
  -- Nothing follows the text.
  obtain ⟨left, hleft, rfl⟩ := hothers 0
  rw [tokensFrom] at hleft
  cases hleft
  rw [hkinds, List.map_nil, List.append_nil] at hderives
  exact ⟨own, hderives, hown⟩

end ChargeScreening
