import ChargeScreening.Proofs.Expression.Pieces
import Mathlib.Data.List.Basic
import Mathlib.Data.List.TakeWhile

/-!
# The dotted paths that rule text reads

A word with a point in it is no keyword, no truth value and no name of an operation. So wherever it
stands in a text that is read, it is a path. The canonical text of an expression is put together
from paths and from pieces without such words. If no path leaves a quote open, the dotted paths that
are read back are just the dotted words inside the paths that were written.

## Main definitions

* `dottedWords`, `dottedWordsIn` — the dotted words among token kinds, and in a text

## Main results

* `dottedWords_of_derives` — the dotted words of a row of token kinds are its dotted paths
* `dotted_fields_of_parse_render` — the dotted paths that are read back
-/

namespace ChargeScreening

/-! ### Points -/

theorem isDotted_map {f : Char → Char} (hf : f '.' = '.') {s : String} (h : isDotted s = true) :
    isDotted (String.ofList (s.toList.map f)) = true := by
  rw [isDotted_iff] at h ⊢
  rw [String.toList_ofList]
  exact List.mem_map.mpr ⟨'.', h, hf⟩

theorem isDotted_asciiLower {s : String} (h : isDotted s = true) :
    isDotted (Text.asciiLower s) = true :=
  isDotted_map (by decide) h

theorem isDotted_asciiUpper {s : String} (h : isDotted s = true) :
    isDotted (Text.asciiUpper s) = true :=
  isDotted_map (by decide) h

/-- Trimming takes off blanks only. -/
theorem isDotted_trim {s : String} (h : isDotted s = true) : isDotted (Text.trim s) = true := by
  have hfront {cs : List Char} (h : '.' ∈ cs) : '.' ∈ Text.trimFront cs := by
    rw [← List.takeWhile_append_dropWhile (p := Text.isBlank) (l := cs), List.mem_append] at h
    refine h.resolve_left fun hblank => ?_
    exact absurd (List.mem_takeWhile_imp hblank) (by decide)
  rw [isDotted_iff] at h ⊢
  rw [Text.trim, String.toList_ofList, Text.trimList, List.mem_reverse]
  exact hfront (List.mem_reverse.mpr (hfront h))

/-- The dotted word that a token is, if any. -/
def TokenKind.dotted? : TokenKind → Option String
  | .word w => if isDotted w then some w else none
  | _ => none

/-- The dotted words among token kinds, in order. -/
def dottedWords (kinds : List TokenKind) : List String :=
  kinds.filterMap TokenKind.dotted?

@[simp] theorem dottedWords_nil : dottedWords [] = [] := rfl

@[simp] theorem dottedWords_append (kinds others : List TokenKind) :
    dottedWords (kinds ++ others) = dottedWords kinds ++ dottedWords others :=
  List.filterMap_append

theorem dottedWords_cons (kind : TokenKind) (kinds : List TokenKind) :
    dottedWords (kind :: kinds) = kind.dotted?.toList ++ dottedWords kinds := by
  rw [dottedWords, List.filterMap_cons]
  cases kind.dotted? <;> rfl

theorem dotted?_word (w : String) : (TokenKind.word w).dotted?.toList = [w].filter isDotted := by
  cases h : isDotted w <;> simp [TokenKind.dotted?, h]

theorem TokenKind.dotted?_of_isPlain {kind : TokenKind} (h : kind.isPlain = true) :
    kind.dotted? = none := by
  cases kind with
  | word w =>
    rw [isPlain, Bool.not_eq_true'] at h
    rw [dotted?, h, if_neg Bool.false_ne_true]
  | _ => rfl

/-! ### What a row of token kinds stands for -/

/-- A word is not dotted if a text without points comes of it, by a change that keeps points. -/
theorem dotted?_eq_none {w : String} (change : String → String)
    (hkeeps : ∀ {s}, isDotted s = true → isDotted (change s) = true)
    (hplain : isDotted (change w) = false) : (TokenKind.word w).dotted? = none := by
  cases hw : isDotted w with
  | false => rw [TokenKind.dotted?, hw, if_neg Bool.false_ne_true]
  | true =>
    rw [hkeeps hw] at hplain
    cases hplain

theorem Keyword.dotted?_eq {spellings : List String} {kind : TokenKind}
    (h : Keyword spellings kind) (hplain : ∀ s ∈ spellings, isDotted s = false) :
    kind.dotted? = none := by
  cases h with
  | symbol => rfl
  | word h =>
    exact dotted?_eq_none (fun s => Text.asciiLower (Text.trim s))
      (fun hdotted => isDotted_asciiLower (isDotted_trim hdotted)) (hplain _ h)

theorem Operator.dotted?_of_keyword {op : Operator} {kind : TokenKind}
    (h : Keyword op.spellings kind) : kind.dotted? = none :=
  h.dotted?_eq (by cases op <;> decide)

theorem Connective.dotted?_of_keyword {joint : Connective} {kind : TokenKind}
    (h : Keyword joint.spellings kind) : kind.dotted? = none :=
  h.dotted?_eq (by cases joint <;> decide)

theorem dotted?_of_asciiLower {w keyword : String} (h : Text.asciiLower w = keyword)
    (hplain : isDotted keyword = false) : (TokenKind.word w).dotted? = none :=
  dotted?_eq_none Text.asciiLower isDotted_asciiLower (h ▸ hplain)

theorem MathOp.dotted?_of_word {w : String} {op : MathOp}
    (h : Text.asciiUpper (Text.trim w) = op.word) : (TokenKind.word w).dotted? = none := by
  have hplain : isDotted op.word = false := by cases op <;> decide
  exact dotted?_eq_none (fun s => Text.asciiUpper (Text.trim s))
    (fun hdotted => isDotted_asciiUpper (isDotted_trim hdotted)) (h ▸ hplain)

theorem DerivesScalar.dotted?_eq {kind : TokenKind} {value : Literal}
    (h : DerivesScalar kind value) : kind.dotted? = none := by
  cases h with
  | number x => rfl
  | text s => rfl
  | yes h => exact dotted?_of_asciiLower h (by decide)
  | no h => exact dotted?_of_asciiLower h (by decide)

theorem DerivesArg.dotted?_eq {kind : TokenKind} {arg : FormulaArg} (h : DerivesArg kind arg) :
    kind.dotted?.toList = arg.field?.toList.filter isDotted := by
  cases h with
  | field path => exact dotted?_word path
  | constant x => rfl

/-- Commas add no word to those of the items. -/
theorem Separated.dottedWords_eq {α : Type} {item : TokenKind → α → Prop} {kinds : List TokenKind}
    {items : List α} (h : Separated item kinds items) (paths : α → List String)
    (hitem : ∀ kind a, item kind a → kind.dotted?.toList = paths a) :
    dottedWords kinds = items.flatMap paths := by
  induction h with
  | single h =>
    rw [dottedWords_cons, hitem _ _ h, dottedWords_nil, List.flatMap_singleton, List.append_nil]
  | more h _ ih =>
    rw [dottedWords_cons, dottedWords_cons, hitem _ _ h, ih, List.flatMap_cons]
    rfl

theorem DerivesOperand.dottedWords_eq {kinds : List TokenKind} {operand : Operand}
    (h : DerivesOperand kinds operand) : dottedWords kinds = operand.fields.filter isDotted := by
  cases h with
  | field path =>
    rw [dottedWords_cons, dotted?_word, dottedWords_nil, List.append_nil, Operand.fields]
  | formula hop hargs =>
    have hwords := hargs.dottedWords_eq _ fun _ _ => DerivesArg.dotted?_eq
    rw [dottedWords_cons, MathOp.dotted?_of_word hop, dottedWords_cons, dottedWords_append, hwords,
      Operand.fields, List.filterMap_eq_flatMap_toList, List.filter_flatMap]
    exact List.append_nil _

theorem DerivesValue.dottedWords_eq {op : Operator} {kinds : List TokenKind} {value : Literal}
    (h : DerivesValue op kinds value) : dottedWords kinds = [] := by
  cases h with
  | scalar _ h => rw [dottedWords_cons, h.dotted?_eq]; rfl
  | list h =>
    have hwords := h.dottedWords_eq (fun _ => []) fun _ _ hitem => by
      rw [hitem.dotted?_eq, Option.toList_none]
    rw [dottedWords_cons, dottedWords_append, hwords,
      List.flatMap_eq_nil_iff.mpr fun _ _ => rfl]
    rfl

theorem DerivesClause.dottedWords_eq {kinds : List TokenKind} {c : Clause}
    (h : DerivesClause kinds c) : dottedWords kinds = c.operand.fields.filter isDotted := by
  cases h with
  | plain _ hoperand hop hvalue =>
    rw [dottedWords_append, dottedWords_cons, hoperand.dottedWords_eq, hvalue.dottedWords_eq,
      Operator.dotted?_of_keyword hop]
    simp
  | negated hnot hoperand hop hvalue =>
    rw [dottedWords_cons, dottedWords_append, dottedWords_cons, hoperand.dottedWords_eq,
      hvalue.dottedWords_eq, Operator.dotted?_of_keyword hop,
      dotted?_of_asciiLower hnot (by decide)]
    simp

/-- **The dotted words of a row of token kinds are the dotted paths of what it stands for.** -/
theorem dottedWords_of_derives {kinds : List TokenKind} {e : Expression} (h : Derives kinds e) :
    dottedWords kinds = e.fields.filter isDotted := by
  obtain ⟨cs⟩ := e
  rw [Derives] at h
  simp only [Expression.fields] at h ⊢
  induction h with
  | last h => rw [h.dottedWords_eq, List.flatMap_singleton]
  | next h hjoint _ ih =>
    rw [dottedWords_append, dottedWords_cons, h.dottedWords_eq,
      Connective.dotted?_of_keyword hjoint, ih, List.flatMap_cons, List.filter_append]
    rfl

/-! ### What is read back -/

/-- The dotted words that a text splits into; none if it does not split. -/
def dottedWordsIn (s : String) : List String :=
  match tokenize s with
  | .ok ts => dottedWords (ts.map Token.kind)
  | .error _ => []

/-- The paths split by themselves, and the dotted words are those inside them. -/
theorem piecewise_dottedWords : Piecewise fun paths kinds =>
    (∀ path ∈ paths, ∃ ts, tokenize path = .ok ts)
      ∧ dottedWords kinds = paths.flatMap dottedWordsIn where
  nil := ⟨nofun, rfl⟩
  append := by
    rintro paths others kinds more ⟨hpaths, hkinds⟩ ⟨hothers, hmore⟩
    refine ⟨fun path hpath => ?_, ?_⟩
    · exact (List.mem_append.mp hpath).elim (hpaths path) (hothers path)
    · rw [dottedWords_append, hkinds, hmore, List.flatMap_append]
  plain := by
    intro kind hplain
    rw [dottedWords_cons, TokenKind.dotted?_of_isPlain hplain]
    exact ⟨nofun, rfl⟩
  path := by
    intro s ts hts
    refine ⟨fun path hpath => ⟨ts, ?_⟩, ?_⟩
    · rwa [List.mem_singleton.mp hpath]
    · rw [List.flatMap_singleton, dottedWordsIn, hts]

/-- **The dotted paths that are read back are the dotted words inside the paths that were written**,
in order, if none of these leaves a quote open. Each of them splits by itself then. -/
theorem dotted_fields_of_parse_render {e e' : Expression} (h : Expression.parse e.render = .ok e')
    (hfits : ∀ c ∈ e.clauses, c.value.fits c.operator = true)
    (hquotes : ∀ path ∈ e.fields, leavesQuoteOpen path = false) :
    (∀ path ∈ e.fields, ∃ ts, tokenize path = .ok ts)
      ∧ e'.fields.filter isDotted = e.fields.flatMap dottedWordsIn := by
  obtain ⟨kinds, hderives, hpaths, hwords⟩ :=
    piecewise_dottedWords.of_parse_render h hfits hquotes
  refine ⟨hpaths, ?_⟩
  rw [← dottedWords_of_derives hderives, hwords]

end ChargeScreening
