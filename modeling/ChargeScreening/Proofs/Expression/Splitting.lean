import ChargeScreening.Proofs.Expression.Lexing

/-!
# Splitting a text piece by piece

A text in front of another that begins with a blank, a comma or a bracket is split as it is by
itself: the same tokens, or the same first fault. Only an open quote reaches into what follows.

## Main definitions

* `Lexeme.before` — a lexeme with more characters behind it
* `leavesQuoteOpen` — whether a text opens a quote and does not close it

## Main results

* `Lexeme.read_append` — one lexeme
* `tokensFrom_append` — a whole text
-/

namespace ChargeScreening

variable {cs rest : List Char}

/-! ### Single lexemes -/

/-- The lexeme with more characters behind those that it leaves. -/
def Lexeme.before (rest : List Char) (l : Lexeme) : Lexeme :=
  { l with rest := l.rest ++ rest }

/-- A closing quote hides what follows it. -/
theorem spanQuoted?_append_of_closed {quote : Char} (h : spanQuoted? quote cs ≠ none)
    (rest : List Char) :
    spanQuoted? quote (cs ++ rest) = (spanQuoted? quote cs).map fun (content, inside, left) =>
      (content, inside, left ++ rest) := by
  fun_induction spanQuoted? quote cs with
  | case1 => exact absurd rfl h
  | case2 => exact absurd rfl h
  | case3 c cs ih =>
    have hclosed : spanQuoted? quote cs ≠ none := fun hnone => h (by rw [hnone]; rfl)
    rw [List.cons_append, List.cons_append, spanQuoted?, ih hclosed, Option.map_map, Option.map_map]
    rfl
  | case4 cs hslash =>
    rw [List.cons_append, spanQuoted?, if_pos rfl]
    · rfl
    · exact hslash
  | case5 c cs hslash hquote ih =>
    have hclosed : spanQuoted? quote cs ≠ none := fun hnone => h (by rw [hnone]; rfl)
    rw [List.cons_append, spanQuoted?, if_neg hquote, ih hclosed, Option.map_map, Option.map_map]
    · rfl
    · exact hslash

theorem spanNumber_append_of_closed (before : Char) (cs : List Char) (hrest : Closed rest) :
    spanNumber before (cs ++ rest)
      = ((spanNumber before cs).1, (spanNumber before cs).2 ++ rest) := by
  induction cs generalizing before with
  | nil =>
    cases rest with
    | nil => rfl
    | cons c rest =>
      have hc : isNumberChar before c = false := isNumberChar_of_endsLexeme before (hrest c rfl)
      simp [spanNumber, hc]
  | cons c cs ih =>
    rw [List.cons_append, spanNumber, spanNumber, ih c]
    split <;> rfl

/-- A character that ends a lexeme starts no number, and continues no symbol. -/
theorem of_endsLexeme {c : Char} (h : endsLexeme c = true) :
    c ≠ '.' ∧ c ≠ '=' ∧ c ≠ '&' ∧ c ≠ '|' ∧ c.isDigit = false := by
  have hdigit : c.isDigit = false := by
    refine Bool.eq_false_iff.mpr fun hdigit => ?_
    have hnumber := isNumberChar_of_endsLexeme '0' h
    rw [isNumberChar_of_isDigit '0' hdigit] at hnumber
    cases hnumber
  refine ⟨?_, ?_, ?_, ?_, hdigit⟩ <;> rintro rfl <;> exact absurd h (by decide)

theorem startsNumber_append (cs : List Char) (hrest : Closed rest) :
    startsNumber (cs ++ rest) = startsNumber cs := by
  cases rest with
  | nil => rw [List.append_nil]
  | cons d rest =>
    obtain ⟨hpoint, -, -, -, hdigit⟩ := of_endsLexeme (hrest d rfl)
    match cs with
    | [] => simp [startsNumber, hpoint, hdigit]
    | [c] =>
      by_cases hc : c = '.'
      · subst hc
        simp [startsNumber, hdigit]
      · simp [startsNumber, hc]
    | c :: c' :: cs =>
      by_cases hc : c = '.'
      · subst hc
        rfl
      · simp [startsNumber, hc]

/-- A symbol stands at the front as it is spelled. -/
theorem exists_of_symbolAt? {s : Symbol} (h : symbolAt? cs = some s) :
    ∃ tail, cs = s.spelling.toList ++ tail := by
  unfold symbolAt? at h
  split at h <;> cases h <;> exact ⟨_, rfl⟩

/-- A symbol has no third character. -/
theorem symbolAt?_cons_cons (c d : Char) (cs ds : List Char) :
    symbolAt? (c :: d :: cs) = symbolAt? (c :: d :: ds) := by
  unfold symbolAt?
  split
  case h_9 => split <;> simp_all
  all_goals
    rename_i hfront
    cases hfront
    first
    | rfl
    | split <;> simp_all

theorem symbolAt?_append (c : Char) (cs : List Char) (hrest : Closed rest) :
    symbolAt? (c :: (cs ++ rest)) = symbolAt? (c :: cs) := by
  cases cs with
  | cons d cs => exact symbolAt?_cons_cons c d _ _
  | nil =>
    cases rest with
    | nil => rfl
    | cons d rest =>
      obtain ⟨-, hequal, hand, hor, -⟩ := of_endsLexeme (hrest d rfl)
      rw [List.nil_append]
      unfold symbolAt?
      split <;> simp_all

namespace Lexeme

theorem readQuoted_append {quote : Char} (h : readQuoted quote cs ≠ .error .unterminated)
    (rest : List Char) :
    readQuoted quote (cs ++ rest) = (readQuoted quote cs).map (before rest) := by
  have hclosed : spanQuoted? quote cs ≠ none := by
    intro hnone
    rw [readQuoted, hnone] at h
    exact h rfl
  rw [readQuoted, readQuoted, spanQuoted?_append_of_closed hclosed]
  cases spanQuoted? quote cs <;> rfl

theorem readNumber_append (c : Char) (cs : List Char) (hrest : Closed rest) :
    readNumber c (cs ++ rest) = (readNumber c cs).map (before rest) := by
  rw [readNumber, readNumber, spanNumber_append_of_closed c cs hrest]
  dsimp only
  cases Decimal.readList? (c :: (spanNumber c cs).1) <;> rfl

theorem readWord_append (c : Char) (cs : List Char) (hrest : Closed rest) :
    readWord c (cs ++ rest) = (readWord c cs).before rest := by
  have hspan : (cs ++ rest).takeWhile isWordChar = cs.takeWhile isWordChar
      ∧ (cs ++ rest).dropWhile isWordChar = cs.dropWhile isWordChar ++ rest := by
    induction cs with
    | nil =>
      cases rest with
      | nil => exact ⟨rfl, rfl⟩
      | cons d rest => simp [isWordChar_of_endsLexeme (hrest d rfl)]
    | cons d cs ih => by_cases hd : isWordChar d = true <;> simp [hd, ih]
  simp only [readWord, hspan, before]

theorem readSymbol_append (c : Char) (cs : List Char) (hrest : Closed rest) :
    readSymbol c (cs ++ rest) = (readSymbol c cs).map (before rest) := by
  rw [readSymbol, readSymbol, symbolAt?_append c cs hrest]
  cases hsymbol : symbolAt? (c :: cs) with
  | none => rfl
  | some s =>
    obtain ⟨tail, htail⟩ := exists_of_symbolAt? hsymbol
    rw [← List.cons_append, htail]
    simp [before, Except.map, ← String.length_toList]

/-- **A lexeme in front of a closed text is the one that is there without it**, or it is the same
fault. -/
theorem read_append {c : Char} (hrest : Closed rest) (h : read c cs ≠ .error .unterminated) :
    read c (cs ++ rest) = (read c cs).map (before rest) := by
  rw [read] at h ⊢
  rw [read, startsNumber_append cs hrest]
  split
  · rfl
  · next hpunctuation =>
    rw [hpunctuation] at h
    split
    · next hquote =>
      exact readQuoted_append (by simpa only [if_pos hquote] using h) rest
    · split
      · exact readNumber_append c cs hrest
      · split
        · rw [readWord_append c cs hrest]
          rfl
        · exact readSymbol_append c cs hrest

end Lexeme

/-! ### Whole texts -/

theorem exists_of_map_eq_ok {ε α β : Type} {f : α → β} {x : Except ε α} {b : β}
    (h : x.map f = .ok b) : ∃ a, x = .ok a ∧ f a = b := by
  cases x with
  | error e => cases h
  | ok a => exact ⟨a, rfl, Except.ok.inj h⟩

/-- Tokens do not depend on where they start, but for their positions. -/
theorem lexes_of_tokensFrom {position : Nat} {ts : List Token}
    (h : tokensFrom position cs = .ok ts) : Lexes cs (ts.map Token.kind) := by
  fun_induction tokensFrom position cs generalizing ts with
  | case1 =>
    cases h
    exact Lexes.nil
  | case2 position c cs hblank ih => exact Lexes.blank hblank (ih h)
  | case3 => cases h
  | case4 position c cs hblank l hread ih =>
    obtain ⟨left, hleft, rfl⟩ := exists_of_map_eq_ok h
    exact Lexes.lexeme (Bool.eq_false_iff.mpr hblank) hread (ih hleft)

/-- Whether a text opens a quote and does not close it. -/
def leavesQuoteOpen (s : String) : Bool :=
  match tokenize s with
  | .error (.unterminatedString _) => true
  | _ => false

/-- **A text in front of a closed one splits as it does by itself**, and then the rest follows. If
the text has a fault, that is the first one. Only an open quote would go on into the rest. -/
theorem tokensFrom_append {position : Nat} (hrest : Closed rest)
    (h : ∀ offset, tokensFrom position cs ≠ .error (.unterminatedString offset)) :
    tokensFrom position (cs ++ rest) = (tokensFrom position cs).bind fun ts =>
      (tokensFrom (position + Text.byteLength cs) rest).map (ts ++ ·) := by
  fun_induction tokensFrom position cs with
  | case1 position =>
    rw [List.nil_append, Text.byteLength_nil, Nat.add_zero]
    cases tokensFrom position rest <;> rfl
  | case2 position c cs hblank ih =>
    rw [List.cons_append, tokensFrom, if_pos hblank, ih h, Text.byteLength_cons, Nat.add_assoc]
  | case3 position c cs hblank fault hread =>
    have hquote : Lexeme.read c cs ≠ .error .unterminated := by
      rw [hread]
      rintro ⟨⟩
      exact h position rfl
    have hwhole := Lexeme.read_append hrest hquote
    rw [hread] at hwhole
    rw [List.cons_append, tokensFrom_fault (Bool.eq_false_iff.mpr hblank) hwhole]
    rfl
  | case4 position c cs hblank l hread ih =>
    have hquote : Lexeme.read c cs ≠ .error .unterminated := by
      intro hfault
      cases hread.symm.trans hfault
    have hwhole := Lexeme.read_append hrest hquote
    rw [hread] at hwhole
    have hleft : ∀ offset,
        tokensFrom (position + Text.byteLength l.spelling) l.rest
          ≠ .error (.unterminatedString offset) := by
      intro offset hfault
      exact h offset (by rw [hfault]; rfl)
    have hlength : Text.byteLength (c :: cs)
        = Text.byteLength l.spelling + Text.byteLength l.rest := by
      rw [← Lexeme.read_split hread, Text.byteLength_append]
    rw [List.cons_append, tokensFrom_lexeme (Bool.eq_false_iff.mpr hblank) hwhole, hlength,
      ← Nat.add_assoc]
    simp only [Lexeme.before, ih hleft]
    cases tokensFrom (position + Text.byteLength l.spelling) l.rest with
    | error e => rfl
    | ok ts =>
      cases tokensFrom (position + Text.byteLength l.spelling + Text.byteLength l.rest) rest <;> rfl

end ChargeScreening
