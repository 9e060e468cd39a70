import ChargeScreening.Expression.Error
import ChargeScreening.Text.Letter
import ChargeScreening.Text.Blank
import ChargeScreening.Decimal.Reader

/-!
# Splitting rule text into tokens

A text is a sequence of lexemes between blanks. Each lexeme is the longest run of characters that
its first characters allow, and depends on nothing in front of it; offsets are added outside.

## Main definitions

* `Lexeme`: a token kind with the characters it is spelled with and those behind it
* `Lexeme.read`: the lexeme at the front of a list of characters
* `tokensFrom`, `tokenize`: the tokens of a text

## Main results

* `Lexeme.read_split`: what is spelled and what is left make up the whole
* `Lexeme.read_spelling_ne_nil`: a lexeme has at least one character
-/

namespace ChargeScreening

/-- A token kind, the characters it is spelled with, and the characters behind it. -/
structure Lexeme where
  kind : TokenKind
  spelling : List Char
  rest : List Char

/-- Why no lexeme stands at the front of a text. -/
inductive LexemeFault where
  /-- A quote that is never closed. -/
  | unterminated
  /-- A run of characters that starts as a number and is none. -/
  | badNumber (spelling : List Char)
  /-- A character that starts nothing. -/
  | strayCharacter (c : Char)
deriving DecidableEq

/-- The error of a fault found at a byte offset. -/
def LexemeFault.toError (position : Nat) : LexemeFault → ParseError
  | .unterminated => .unterminatedString position
  | .badNumber spelling => .invalidNumber (String.ofList spelling) position
  | .strayCharacter c => .unexpectedToken (String.singleton c) .expression position

/-- Whether a character can start a word. -/
def isWordStart (c : Char) : Bool :=
  Text.isAlphabetic c || c == '_'

/-- Whether a character can stand inside a word. -/
def isWordChar (c : Char) : Bool :=
  Text.isAlphanumeric c || c == '_' || c == '.' || c == '-'

theorem isWordChar_of_isWordStart {c : Char} (h : isWordStart c = true) : isWordChar c = true := by
  simp only [isWordStart, Bool.or_eq_true] at h
  simp only [isWordChar, Bool.or_eq_true]
  rcases h with h | h
  · exact .inl (.inl (.inl (Text.isAlphanumeric_of_isAlphabetic h)))
  · exact .inl (.inl (.inr h))

/-- Whether a character can stand inside a number, given the one before it: a sign belongs to the
number only right behind the letter of an exponent. -/
def isNumberChar (before c : Char) : Bool :=
  c.isAlphanum || c == '.' || c == '_'
    || ((c == '+' || c == '-') && (before == 'e' || before == 'E'))

/-- The characters of a number behind its first one, and what follows them. -/
def spanNumber (before : Char) : List Char → List Char × List Char
  | [] => ([], [])
  | c :: cs =>
    if isNumberChar before c then
      let (inside, rest) := spanNumber c cs
      (c :: inside, rest)
    else ([], c :: cs)

/-- The content of a quoted text behind its opening quote, the characters it is spelled with up to
and with the closing quote, and what follows. A backslash stands for the character behind it. -/
def spanQuoted? (quote : Char) : List Char → Option (List Char × List Char × List Char)
  | [] => none
  | '\\' :: cs =>
    match cs with
    | [] => none
    | c :: cs => (spanQuoted? quote cs).map fun (content, inside, rest) =>
      (c :: content, '\\' :: c :: inside, rest)
  | c :: cs =>
    if c = quote then some ([], [c], cs)
    else (spanQuoted? quote cs).map fun (content, inside, rest) =>
      (c :: content, c :: inside, rest)

/-- Whether the characters behind a sign make it the sign of a number. -/
def startsNumber : List Char → Bool
  | '.' :: c :: _ => c.isDigit
  | c :: _ => c.isDigit
  | [] => false

/-- The symbol at the front of a text. A symbol of two characters is preferred to its first one. -/
def symbolAt? : List Char → Option Symbol
  | '=' :: '=' :: _ => some .equal
  | '!' :: '=' :: _ => some .unequal
  | '<' :: '=' :: _ => some .atMost
  | '>' :: '=' :: _ => some .atLeast
  | '&' :: '&' :: _ => some .both
  | '|' :: '|' :: _ => some .either
  | '<' :: _ => some .below
  | '>' :: _ => some .above
  | _ => none

/-- The token that a single character is by itself. -/
def punctuation? (c : Char) : Option TokenKind :=
  match c with
  | '[' => some .leftBracket
  | ']' => some .rightBracket
  | '(' => some .leftParen
  | ')' => some .rightParen
  | ',' => some .comma
  | _ => none

namespace Lexeme

/-- The number whose first character is given. -/
def readNumber (c : Char) (cs : List Char) : Except LexemeFault Lexeme :=
  let (inside, rest) := spanNumber c cs
  match Decimal.readList? (c :: inside) with
  | some x => .ok ⟨.number x, c :: inside, rest⟩
  | none => .error (.badNumber (c :: inside))

/-- The quoted text whose opening quote is given. -/
def readQuoted (quote : Char) (cs : List Char) : Except LexemeFault Lexeme :=
  match spanQuoted? quote cs with
  | some (content, inside, rest) => .ok ⟨.quoted (String.ofList content), quote :: inside, rest⟩
  | none => .error .unterminated

/-- The word whose first character is given. -/
def readWord (c : Char) (cs : List Char) : Lexeme :=
  let inside := cs.takeWhile isWordChar
  ⟨.word (String.ofList (c :: inside)), c :: inside, cs.dropWhile isWordChar⟩

/-- The symbol whose first character is given. -/
def readSymbol (c : Char) (cs : List Char) : Except LexemeFault Lexeme :=
  match symbolAt? (c :: cs) with
  | some s =>
    let n := s.spelling.length
    .ok ⟨.symbol s, (c :: cs).take n, (c :: cs).drop n⟩
  | none => .error (.strayCharacter c)

/-- The lexeme that starts with a character that is not blank. -/
def read (c : Char) (cs : List Char) : Except LexemeFault Lexeme :=
  match punctuation? c with
  | some kind => .ok ⟨kind, [c], cs⟩
  | none =>
    if c = '"' ∨ c = '\x27' then readQuoted c cs
    else if c.isDigit || ((c == '-' || c == '+') && startsNumber cs) then readNumber c cs
    else if isWordStart c then .ok (readWord c cs)
    else readSymbol c cs

end Lexeme

theorem spanNumber_append (before : Char) (cs : List Char) :
    (spanNumber before cs).1 ++ (spanNumber before cs).2 = cs := by
  induction cs generalizing before with
  | nil => rfl
  | cons c cs ih =>
    by_cases h : isNumberChar before c
    · simp [spanNumber, h, ih c]
    · simp [spanNumber, h]

theorem spanQuoted?_append (quote : Char) (cs : List Char) :
    ∀ content inside rest, spanQuoted? quote cs = some (content, inside, rest) →
      inside ++ rest = cs := by
  fun_induction spanQuoted? quote cs with
  | case1 => simp
  | case2 => simp
  | case3 c cs ih =>
    intro content inside rest h
    obtain ⟨⟨content', inside', rest'⟩, h', he⟩ := Option.map_eq_some_iff.1 h
    simp only [Prod.mk.injEq] at he
    obtain ⟨-, rfl, rfl⟩ := he
    simp [ih _ _ _ h']
  | case4 cs hc =>
    intro content inside rest h
    simp only [Option.some.injEq, Prod.mk.injEq] at h
    obtain ⟨-, rfl, rfl⟩ := h
    rfl
  | case5 c cs _ hc ih =>
    intro content inside rest h
    obtain ⟨⟨content', inside', rest'⟩, h', he⟩ := Option.map_eq_some_iff.1 h
    simp only [Prod.mk.injEq] at he
    obtain ⟨-, rfl, rfl⟩ := he
    simp [ih _ _ _ h']

namespace Lexeme

theorem readNumber_split {c : Char} {cs : List Char} {l : Lexeme}
    (h : readNumber c cs = .ok l) : l.spelling ++ l.rest = c :: cs := by
  simp only [readNumber] at h
  split at h
  · cases h
    simp [spanNumber_append]
  · cases h

theorem readQuoted_split {quote : Char} {cs : List Char} {l : Lexeme}
    (h : readQuoted quote cs = .ok l) : l.spelling ++ l.rest = quote :: cs := by
  simp only [readQuoted] at h
  split at h
  · rename_i content inside rest hs
    cases h
    simp [spanQuoted?_append quote cs _ _ _ hs]
  · cases h

theorem readSymbol_split {c : Char} {cs : List Char} {l : Lexeme}
    (h : readSymbol c cs = .ok l) : l.spelling ++ l.rest = c :: cs := by
  simp only [readSymbol] at h
  split at h
  · cases h
    exact List.take_append_drop _ _
  · cases h

/-- What a lexeme is spelled with and what it leaves make up the whole text. -/
theorem read_split {c : Char} {cs : List Char} {l : Lexeme} (h : read c cs = .ok l) :
    l.spelling ++ l.rest = c :: cs := by
  simp only [read] at h
  split at h
  · cases h
    rfl
  · split at h
    · exact readQuoted_split h
    · split at h
      · exact readNumber_split h
      · split at h
        · cases h
          simp [readWord]
        · exact readSymbol_split h

/-- A lexeme has at least one character. -/
theorem read_spelling_ne_nil {c : Char} {cs : List Char} {l : Lexeme} (h : read c cs = .ok l) :
    l.spelling ≠ [] := by
  simp only [read] at h
  split at h
  · cases h
    simp
  · split at h
    · simp only [readQuoted] at h
      split at h <;> cases h
      simp
    · split at h
      · simp only [readNumber] at h
        split at h <;> cases h
        simp
      · split at h
        · cases h
          simp [readWord]
        · simp only [readSymbol] at h
          split at h
          · rename_i s _
            cases h
            cases s <;> simp [Symbol.spelling]
          · cases h

/-- What a lexeme leaves is shorter than the text. -/
theorem read_rest_length_lt {c : Char} {cs : List Char} {l : Lexeme} (h : read c cs = .ok l) :
    l.rest.length < (c :: cs).length := by
  have hs := congrArg List.length (read_split h)
  have hn := List.length_pos_iff.2 (read_spelling_ne_nil h)
  simp only [List.length_append] at hs
  omega

end Lexeme

/-- The tokens of the characters from a byte offset on, or the first fault. -/
def tokensFrom (position : Nat) (cs : List Char) : Except ParseError (List Token) :=
  match cs with
  | [] => .ok []
  | c :: cs =>
    if Text.isBlank c then tokensFrom (position + c.utf8Size) cs
    else
      match _read : Lexeme.read c cs with
      | .error fault => .error (fault.toError position)
      | .ok l =>
        (tokensFrom (position + Text.byteLength l.spelling) l.rest).map
          (⟨l.kind, position⟩ :: ·)
termination_by cs.length
decreasing_by
  · simp
  · exact Lexeme.read_rest_length_lt _read

/-- The tokens of a text, or the first fault. -/
def tokenize (text : String) : Except ParseError (List Token) :=
  tokensFrom 0 text.toList

end ChargeScreening
