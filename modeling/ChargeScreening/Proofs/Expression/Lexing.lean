import ChargeScreening.Expression.Lexer
import ChargeScreening.Expression.Printer
import ChargeScreening.Proofs.Decimal.Spelling
import Mathlib.Tactic.ByContra

/-!
# Reading one lexeme in front of another

A lexeme is the longest run of characters that its first ones allow, so a spelling reads back as
one lexeme only if what follows it cannot extend it. Blanks, commas and brackets extend nothing,
and the canonical text puts one of them behind every word and every number.

## Main definitions

* `isWord` — whether a text is spelled as one word
* `endsLexeme`, `Closed` — characters, and texts, that extend no word and no number
* `Lexes` — the token kinds that characters split into, wherever they start

## Main results

* `Lexes.word`, `Lexes.number`, `Lexes.quoted`, `Lexes.punctuation` — one lexeme in front of a text
  that is already split
* `isWord_of_mem_tokens` — every word among the tokens of a text is spelled as one
-/

namespace ChargeScreening

/-! ### Words -/

/-- Whether a text is spelled as one word: a character that starts words, then any that words may
hold. -/
def isWord (s : String) : Bool :=
  match s.toList with
  | [] => false
  | c :: cs => isWordStart c && cs.all isWordChar

theorem isWord_ofList (c : Char) (cs : List Char) :
    isWord (String.ofList (c :: cs)) = (isWordStart c && cs.all isWordChar) := by
  simp [isWord]

theorem isWord_iff {s : String} :
    isWord s = true ↔
      ∃ c cs, s.toList = c :: cs ∧ isWordStart c = true ∧ cs.all isWordChar = true := by
  rw [isWord]
  cases hs : s.toList with
  | nil => simp
  | cons c cs => simp [and_assoc]

/-! ### Characters that extend nothing -/

/-- The code points of the blank characters. -/
private def blankCodes : List Nat :=
  [0x9, 0xA, 0xB, 0xC, 0xD, 0x20, 0x85, 0xA0, 0x1680, 0x2000, 0x2001, 0x2002, 0x2003, 0x2004,
    0x2005, 0x2006, 0x2007, 0x2008, 0x2009, 0x200A, 0x2028, 0x2029, 0x202F, 0x205F, 0x3000]

private theorem toNat_mem_blankCodes {c : Char} (h : Text.isBlank c = true) :
    c.toNat ∈ blankCodes := by
  simp only [Text.isBlank, Bool.or_eq_true, Bool.and_eq_true, decide_eq_true_eq,
    beq_iff_eq] at h
  simp only [blankCodes, List.mem_cons, List.not_mem_nil, or_false]
  omega

/-- No blank stands inside a word. -/
theorem isWordChar_of_isBlank {c : Char} (h : Text.isBlank c = true) : isWordChar c = false := by
  have key : ∀ n ∈ blankCodes, isWordChar (Char.ofNat n) = false := by decide +kernel
  rw [← Char.ofNat_toNat c]
  exact key _ (toNat_mem_blankCodes h)

/-- No blank stands inside a number. -/
theorem isNumberChar_of_isBlank {c : Char} (before : Char) (h : Text.isBlank c = true) :
    isNumberChar before c = false := by
  have key : ∀ n ∈ blankCodes, (Char.ofNat n).isAlphanum = false ∧ Char.ofNat n ≠ '.'
      ∧ Char.ofNat n ≠ '_' ∧ Char.ofNat n ≠ '+' ∧ Char.ofNat n ≠ '-' := by decide +kernel
  have hc := key _ (toNat_mem_blankCodes h)
  rw [Char.ofNat_toNat] at hc
  obtain ⟨halpha, hpoint, hunder, hplus, hminus⟩ := hc
  simp [isNumberChar, halpha, hpoint, hunder, hplus, hminus]

/-- Whether a character ends the word or number in front of it, whatever that is. -/
def endsLexeme (c : Char) : Bool :=
  Text.isBlank c || (punctuation? c).isSome

theorem punctuation?_cases {c : Char} {kind : TokenKind} (h : punctuation? c = some kind) :
    c = '[' ∨ c = ']' ∨ c = '(' ∨ c = ')' ∨ c = ',' := by
  unfold punctuation? at h
  split at h <;> simp_all

theorem isWordChar_of_endsLexeme {c : Char} (h : endsLexeme c = true) : isWordChar c = false := by
  rw [endsLexeme, Bool.or_eq_true] at h
  rcases h with h | h
  · exact isWordChar_of_isBlank h
  · obtain ⟨kind, hkind⟩ := Option.isSome_iff_exists.mp h
    rcases punctuation?_cases hkind with rfl | rfl | rfl | rfl | rfl <;> decide

theorem isNumberChar_of_endsLexeme {c : Char} (before : Char) (h : endsLexeme c = true) :
    isNumberChar before c = false := by
  rw [endsLexeme, Bool.or_eq_true] at h
  rcases h with h | h
  · exact isNumberChar_of_isBlank before h
  · obtain ⟨kind, hkind⟩ := Option.isSome_iff_exists.mp h
    rcases punctuation?_cases hkind with rfl | rfl | rfl | rfl | rfl <;> simp [isNumberChar]

/-- A text that extends no word and no number in front of it: it is empty or begins with a
character that ends a lexeme. -/
def Closed (rest : List Char) : Prop :=
  ∀ c ∈ rest.head?, endsLexeme c = true

theorem Closed.nil : Closed [] := by
  simp [Closed]

theorem Closed.cons {c : Char} (h : endsLexeme c = true) (rest : List Char) :
    Closed (c :: rest) := by
  simpa [Closed] using h

/-! ### First characters -/

theorem isBlank_of_isWordChar {c : Char} (h : isWordChar c = true) : Text.isBlank c = false := by
  by_contra hb
  rw [Bool.not_eq_false] at hb
  rw [isWordChar_of_isBlank hb] at h
  exact absurd h (by decide)

theorem isBlank_of_punctuation? {c : Char} {kind : TokenKind} (h : punctuation? c = some kind) :
    Text.isBlank c = false := by
  rcases punctuation?_cases h with rfl | rfl | rfl | rfl | rfl <;> decide

theorem punctuation?_of_isWordChar {c : Char} (h : isWordChar c = true) :
    punctuation? c = none := by
  by_contra hp
  obtain ⟨kind, hkind⟩ := Option.ne_none_iff_exists'.mp hp
  have hend : endsLexeme c = true := by simp [endsLexeme, hkind]
  rw [isWordChar_of_endsLexeme hend] at h
  exact absurd h (by decide)

/-- The ten digits. -/
private def tenDigits : List Char :=
  ['0', '1', '2', '3', '4', '5', '6', '7', '8', '9']

private theorem mem_tenDigits_of_isDigit {c : Char} (h : c.isDigit = true) : c ∈ tenDigits := by
  have key : ∀ n < 58, 48 ≤ n → Char.ofNat n ∈ tenDigits := by decide
  rw [← Char.ofNat_toNat c]
  simp only [Char.isDigit, Bool.and_eq_true, decide_eq_true_eq, ge_iff_le,
    UInt32.le_iff_toNat_le] at h
  exact key _ (Nat.lt_succ_of_le h.2) h.1

/-- What holds of the ten digits holds of every digit. -/
private theorem of_isDigit {p : Char → Bool} (h : tenDigits.all p = true) {c : Char}
    (hc : c.isDigit = true) : p c = true :=
  List.all_eq_true.mp h c (mem_tenDigits_of_isDigit hc)

theorem isDigit_of_isWordStart {c : Char} (h : isWordStart c = true) : c.isDigit = false := by
  by_contra hd
  rw [Bool.not_eq_false] at hd
  have hstart : (!isWordStart c) = true := of_isDigit (p := fun d => !isWordStart d) (by decide) hd
  rw [h] at hstart
  cases hstart

theorem isSign_of_isWordStart {c : Char} (h : isWordStart c = true) :
    (c == '-' || c == '+') = false := by
  rw [Bool.or_eq_false_iff, beq_eq_false_iff_ne, beq_eq_false_iff_ne]
  constructor <;> rintro rfl <;> exact absurd h (by decide)

theorem isNumberChar_of_isDigit {c : Char} (before : Char) (h : c.isDigit = true) :
    isNumberChar before c = true := by
  simp [isNumberChar, Char.isAlphanum, h]

theorem isBlank_of_isDigit {c : Char} (h : c.isDigit = true) : Text.isBlank c = false := by
  have hblank : (!Text.isBlank c) = true := of_isDigit (p := fun d => !Text.isBlank d) (by decide) h
  rwa [Bool.not_eq_true'] at hblank

theorem punctuation?_of_isDigit {c : Char} (h : c.isDigit = true) : punctuation? c = none := by
  have hnone : (punctuation? c).isNone = true :=
    of_isDigit (p := fun d => (punctuation? d).isNone) (by decide) h
  exact Option.isNone_iff_eq_none.mp hnone

/-! ### Single lexemes -/

namespace Lexeme

theorem read_punctuation {c : Char} {kind : TokenKind} (h : punctuation? c = some kind)
    (rest : List Char) : read c rest = .ok ⟨kind, [c], rest⟩ := by
  simp [read, h]

/-- A word in front of a text that does not extend it. -/
theorem read_word {c : Char} {cs rest : List Char} (hc : isWordStart c = true)
    (hcs : cs.all isWordChar = true) (hrest : Closed rest) :
    read c (cs ++ rest) = .ok ⟨.word (String.ofList (c :: cs)), c :: cs, rest⟩ := by
  have hpunct : punctuation? c = none := punctuation?_of_isWordChar (isWordChar_of_isWordStart hc)
  have hquote : ¬(c = '"' ∨ c = '\x27') := by
    rintro (rfl | rfl) <;> exact absurd hc (by decide)
  have hspan : (cs ++ rest).takeWhile isWordChar = cs
      ∧ (cs ++ rest).dropWhile isWordChar = rest := by
    have hall : ∀ x ∈ cs, isWordChar x = true := List.all_eq_true.mp hcs
    rw [List.takeWhile_append_of_pos hall, List.dropWhile_append_of_pos hall]
    cases rest with
    | nil => simp
    | cons d rest =>
      have hd : isWordChar d = false := isWordChar_of_endsLexeme (hrest d rfl)
      simp [hd]
  rw [read]
  simp only [hpunct, if_neg hquote, isDigit_of_isWordStart hc, isSign_of_isWordStart hc,
    Bool.false_and, Bool.or_false, Bool.false_eq_true, if_false, hc, if_true, readWord, hspan.1,
    hspan.2]

end Lexeme

/-- Escaped content in front of its closing quote reads back as it was. -/
theorem spanQuoted?_escaped (content rest : List Char) :
    spanQuoted? '"' (content.flatMap Literal.escaped ++ '"' :: rest)
      = some (content, content.flatMap Literal.escaped ++ ['"'], rest) := by
  induction content with
  | nil => simp [spanQuoted?]
  | cons c content ih =>
    rw [List.flatMap_cons, List.append_assoc, Literal.escaped]
    split
    · -- an escaped character is the one behind its backslash
      rw [List.cons_append, List.cons_append, List.nil_append, spanQuoted?, ih]
      rfl
    · next hplain =>
      obtain ⟨hquote, hslash⟩ := not_or.mp hplain
      rw [List.cons_append, List.nil_append, spanQuoted?]
      · rw [if_neg hquote, ih]
        rfl
      · exact hslash

theorem Lexeme.read_quoted (content rest : List Char) :
    read '"' (content.flatMap Literal.escaped ++ '"' :: rest)
      = .ok ⟨.quoted (String.ofList content),
          '"' :: (content.flatMap Literal.escaped ++ ['"']), rest⟩ := by
  simp [read, punctuation?, readQuoted, spanQuoted?_escaped]

theorem spanNumber_of_digits {tail rest : List Char} (before : Char)
    (htail : ∀ c ∈ tail, c.isDigit = true ∨ c = '.') (hrest : Closed rest) :
    spanNumber before (tail ++ rest) = (tail, rest) := by
  induction tail generalizing before with
  | nil =>
    cases rest with
    | nil => rfl
    | cons c rest =>
      have hc : isNumberChar before c = false := isNumberChar_of_endsLexeme before (hrest c rfl)
      simp [spanNumber, hc]
  | cons c tail ih =>
    have hc : isNumberChar before c = true := by
      rcases htail c (List.mem_cons_self ..) with hdigit | rfl
      · exact isNumberChar_of_isDigit before hdigit
      · simp [isNumberChar]
    rw [List.cons_append, spanNumber, if_pos hc,
      ih c fun x hx => htail x (List.mem_cons_of_mem _ hx)]

theorem startsNumber_cons_of_isDigit {d : Char} (hd : d.isDigit = true) (cs : List Char) :
    startsNumber (d :: cs) = true := by
  unfold startsNumber
  split
  · next h =>
    cases h
    exact absurd hd (by decide)
  · next h =>
    cases h
    exact hd
  · next h => cases h

/-- A number in front of a text that does not extend it. -/
theorem Lexeme.read_number {c : Char} {tail rest : List Char} {x : Float}
    (hcs : Decimal.IsPlainNumber (c :: tail)) (hx : Decimal.readList? (c :: tail) = some x)
    (hrest : Closed rest) :
    read c (tail ++ rest) = .ok ⟨.number x, c :: tail, rest⟩ := by
  obtain ⟨d, ds, hspelled, hd, hds⟩ := hcs
  have hnumber : readNumber c (tail ++ rest) = .ok ⟨.number x, c :: tail, rest⟩ := by
    have hspan : spanNumber c (tail ++ rest) = (tail, rest) := by
      refine spanNumber_of_digits c (fun y hy => ?_) hrest
      rcases hspelled with h | h <;> cases h
      · exact hds y hy
      · rcases List.mem_cons.mp hy with rfl | hy
        · exact .inl hd
        · exact hds y hy
    simp only [readNumber, hspan, hx]
  rw [← hnumber]
  rcases hspelled with h | h
  · cases h
    have hquote : ¬(c = '"' ∨ c = '\x27') := by
      rintro (rfl | rfl) <;> exact absurd hd (by decide)
    simp only [read, punctuation?_of_isDigit hd, if_neg hquote, hd, Bool.true_or, if_true]
  · cases h
    have hsign : ('-'.isDigit || (('-' == '-' || '-' == '+') && startsNumber (d :: ds ++ rest)))
        = true := by
      rw [List.cons_append, startsNumber_cons_of_isDigit hd]
      rfl
    simp only [read, show punctuation? '-' = none from rfl,
      if_neg (show ¬('-' = '"' ∨ '-' = '\x27') by decide), hsign, if_true]

/-! ### Splitting a whole text -/

/-- Behind a lexeme, the rest is split. -/
theorem tokensFrom_lexeme {position : Nat} {c : Char} {cs : List Char} {l : Lexeme}
    (hc : Text.isBlank c = false) (hread : Lexeme.read c cs = .ok l) :
    tokensFrom position (c :: cs)
      = (tokensFrom (position + Text.byteLength l.spelling) l.rest).map
        (⟨l.kind, position⟩ :: ·) := by
  rw [tokensFrom, if_neg (by rw [hc]; decide)]
  split
  · next fault hfault => cases hread.symm.trans hfault
  · next l' hl =>
    cases hread.symm.trans hl
    rfl

theorem tokensFrom_fault {position : Nat} {c : Char} {cs : List Char} {fault : LexemeFault}
    (hc : Text.isBlank c = false) (hread : Lexeme.read c cs = .error fault) :
    tokensFrom position (c :: cs) = .error (fault.toError position) := by
  rw [tokensFrom, if_neg (by rw [hc]; decide)]
  split
  · next fault' hfault =>
    cases hread.symm.trans hfault
    rfl
  · next l hl => cases hread.symm.trans hl

/-- Blanks in front of a text only move it. -/
theorem tokensFrom_blanks_append {blanks : List Char} (h : blanks.all Text.isBlank = true)
    (position : Nat) (cs : List Char) :
    tokensFrom position (blanks ++ cs) = tokensFrom (position + Text.byteLength blanks) cs := by
  induction blanks generalizing position with
  | nil => rfl
  | cons c blanks ih =>
    rw [List.all_cons, Bool.and_eq_true] at h
    rw [List.cons_append, tokensFrom, if_pos h.1, ih h.2, Text.byteLength_cons, Nat.add_assoc]

/-- The characters split into tokens of these kinds, wherever they start. -/
def Lexes (cs : List Char) (kinds : List TokenKind) : Prop :=
  ∀ position, ∃ ts, tokensFrom position cs = .ok ts ∧ ts.map Token.kind = kinds

namespace Lexes

theorem nil : Lexes [] [] := by
  intro position
  exact ⟨[], by rw [tokensFrom], rfl⟩

theorem blank {c : Char} {cs : List Char} {kinds : List TokenKind} (hc : Text.isBlank c = true)
    (h : Lexes cs kinds) : Lexes (c :: cs) kinds := by
  intro position
  obtain ⟨ts, hts, hkinds⟩ := h (position + c.utf8Size)
  refine ⟨ts, ?_, hkinds⟩
  rw [tokensFrom, if_pos hc, hts]

/-- A lexeme adds its token in front of those of the rest. -/
theorem lexeme {c : Char} {cs : List Char} {l : Lexeme} {kinds : List TokenKind}
    (hc : Text.isBlank c = false) (hread : Lexeme.read c cs = .ok l) (h : Lexes l.rest kinds) :
    Lexes (c :: cs) (l.kind :: kinds) := by
  intro position
  obtain ⟨ts, hts, hkinds⟩ := h (position + Text.byteLength l.spelling)
  refine ⟨⟨l.kind, position⟩ :: ts, ?_, by rw [List.map_cons, hkinds]⟩
  rw [tokensFrom_lexeme hc hread, hts]
  rfl

theorem punctuation {c : Char} {kind : TokenKind} {rest : List Char} {kinds : List TokenKind}
    (hc : punctuation? c = some kind) (h : Lexes rest kinds) :
    Lexes (c :: rest) (kind :: kinds) :=
  lexeme (isBlank_of_punctuation? hc) (Lexeme.read_punctuation hc rest) h

theorem word {w : String} {rest : List Char} {kinds : List TokenKind} (hw : isWord w = true)
    (hrest : Closed rest) (h : Lexes rest kinds) :
    Lexes (w.toList ++ rest) (.word w :: kinds) := by
  obtain ⟨c, cs, hspelled, hc, hcs⟩ := isWord_iff.mp hw
  have hread := Lexeme.read_word hc hcs hrest
  rw [← hspelled, String.ofList_toList] at hread
  rw [hspelled, List.cons_append]
  exact lexeme (isBlank_of_isWordChar (isWordChar_of_isWordStart hc)) hread h

theorem quoted (s : String) {rest : List Char} {kinds : List TokenKind} (h : Lexes rest kinds) :
    Lexes ((Literal.quoted s).toList ++ rest) (.quoted s :: kinds) := by
  have hread := Lexeme.read_quoted s.toList rest
  rw [String.ofList_toList] at hread
  have hspelled : (Literal.quoted s).toList ++ rest
      = '"' :: (s.toList.flatMap Literal.escaped ++ '"' :: rest) := by
    simp [Literal.quoted]
  rw [hspelled]
  exact lexeme (by decide) hread h

theorem number {cs rest : List Char} {x : Float} {kinds : List TokenKind}
    (hcs : Decimal.IsPlainNumber cs) (hx : Decimal.readList? cs = some x) (hrest : Closed rest)
    (h : Lexes rest kinds) :
    Lexes (cs ++ rest) (.number x :: kinds) := by
  cases cs with
  | nil =>
    obtain ⟨d, tail, hspelled | hspelled, -, -⟩ := hcs <;> cases hspelled
  | cons c tail =>
    refine lexeme ?_ (Lexeme.read_number hcs hx hrest) h
    obtain ⟨d, tail', hspelled | hspelled, hd, -⟩ := hcs <;> cases hspelled
    · exact isBlank_of_isDigit hd
    · decide

end Lexes

/-! ### What tokens can be -/

theorem Lexeme.isWord_of_read {c : Char} {cs : List Char} {l : Lexeme} (h : read c cs = .ok l)
    {w : String} (hw : l.kind = .word w) : isWord w = true := by
  rw [read] at h
  split at h
  · next kind hkind =>
    cases h
    rcases punctuation?_cases hkind with rfl | rfl | rfl | rfl | rfl <;>
      simp [punctuation?] at hkind <;> simp [← hkind] at hw
  · split at h
    · simp only [readQuoted] at h
      split at h <;> cases h
      cases hw
    · split at h
      · simp only [readNumber] at h
        split at h <;> cases h
        cases hw
      · split at h
        · next hstart =>
          cases h
          cases hw
          rw [isWord_ofList, hstart, List.all_takeWhile]
          rfl
        · simp only [readSymbol] at h
          split at h <;> cases h
          cases hw

/-- Every word among the tokens of a text is spelled as one. -/
theorem isWord_of_mem_tokens {position : Nat} {cs : List Char} {ts : List Token}
    (h : tokensFrom position cs = .ok ts) {t : Token} (ht : t ∈ ts) {w : String}
    (hw : t.kind = .word w) : isWord w = true := by
  fun_induction tokensFrom position cs generalizing ts with
  | case1 =>
    cases h
    cases ht
  | case2 position c cs _ ih => exact ih h ht
  | case3 => cases h
  | case4 position c cs _ l hread ih =>
    cases hrest : tokensFrom (position + Text.byteLength l.spelling) l.rest with
    | error e => rw [hrest] at h; cases h
    | ok rest =>
      rw [hrest] at h
      cases h
      rcases List.mem_cons.mp ht with rfl | ht
      · exact Lexeme.isWord_of_read hread hw
      · exact ih hrest ht

end ChargeScreening
