import ChargeScreening.Proofs.Expression.Offsets

/-!
# Texts with blanks between them

The offset at which splitting starts goes into the offsets of the tokens, or of the fault, and into
nothing else. And a blank ends the lexeme in front of it: no word and no number goes on behind it,
no sign turns into that of a number, and no symbol gets a second character. So a text that splits,
some blanks and any other text split as the two texts do by themselves, the second one further on.

Where a quote stays open in the first text, its blanks belong to the quote. Nothing is said about
that: such a text does not split.

## Main definitions

* `Token.shift`, `ParseError.shift` — a token, and an error, so many bytes further on

## Main results

* `tokensFrom_add` — splitting that starts so many bytes further on
* `tokenize_append_blanks_append` — two texts with blanks between them
* `tokenize_spaced` — what their tokens are, and when there is a fault
-/

namespace ChargeScreening

variable {position : Nat} {cs : List Char}

/-! ### Further on -/

/-- The token, `n` bytes further on. -/
def Token.shift (n : Nat) (t : Token) : Token :=
  { t with position := n + t.position }

/-- The error, `n` bytes further on. Errors that name no offset stay as they are. -/
def ParseError.shift (n : Nat) : ParseError → ParseError
  | .unexpectedToken found expected position => .unexpectedToken found expected (n + position)
  | .invalidNumber spelling position => .invalidNumber spelling (n + position)
  | .unterminatedString position => .unterminatedString (n + position)
  | .emptyExpression => .emptyExpression
  | .unexpectedEnd expected => .unexpectedEnd expected
  | .invalidFormula fault => .invalidFormula fault

@[simp] theorem ParseError.position?_shift (n : Nat) (e : ParseError) :
    (e.shift n).position? = e.position?.map (n + ·) := by
  cases e <;> rfl

theorem LexemeFault.toError_add (fault : LexemeFault) (n position : Nat) :
    fault.toError (n + position) = (fault.toError position).shift n := by
  cases fault <;> rfl

/-- Splitting that starts further on gives the same, further on. -/
theorem tokensFrom_add (n position : Nat) (cs : List Char) :
    tokensFrom (n + position) cs
      = ((tokensFrom position cs).map (List.map (Token.shift n))).mapError
        (ParseError.shift n) := by
  fun_induction tokensFrom position cs with
  | case1 =>
    rw [tokensFrom]
    rfl
  | case2 position c cs hc ih => rw [tokensFrom, if_pos hc, Nat.add_assoc, ih]
  | case3 position c cs hc fault hread =>
    rw [tokensFrom_fault (Bool.eq_false_iff.mpr hc) hread, LexemeFault.toError_add]
    rfl
  | case4 position c cs hc l hread ih =>
    rw [tokensFrom_lexeme (Bool.eq_false_iff.mpr hc) hread, Nat.add_assoc, ih]
    cases tokensFrom (position + Text.byteLength l.spelling) l.rest <;> rfl

/-! ### Blanks between texts -/

/-- Blanks extend nothing in front of them. -/
theorem closed_blanks_append {blanks : List Char} (h : blanks.all Text.isBlank = true)
    (hne : blanks ≠ []) (cs : List Char) : Closed (blanks ++ cs) := by
  obtain ⟨c, blanks, rfl⟩ := List.exists_cons_of_ne_nil hne
  rw [List.all_cons, Bool.and_eq_true] at h
  refine Closed.cons ?_ _
  rw [endsLexeme, h.1, Bool.true_or]

/-- Behind a text that splits, and blanks, the rest is split where the blanks end. -/
theorem tokensFrom_append_blanks_append {blanks : List Char} {ts : List Token}
    (h : tokensFrom position cs = .ok ts) (hblanks : blanks.all Text.isBlank = true)
    (hne : blanks ≠ []) (rest : List Char) :
    tokensFrom position (cs ++ (blanks ++ rest))
      = (tokensFrom (Text.byteLength (cs ++ blanks) + position) rest).map (ts ++ ·) := by
  -- no quote reaches into the blanks, for an open one would be a fault
  have hquote : ∀ offset, tokensFrom position cs ≠ .error (.unterminatedString offset) := by
    intro offset hfault
    cases h.symm.trans hfault
  have hend : position + Text.byteLength cs + Text.byteLength blanks
      = Text.byteLength (cs ++ blanks) + position := by
    rw [Text.byteLength_append]
    omega
  rw [tokensFrom_append (closed_blanks_append hblanks hne rest) hquote, h,
    tokensFrom_blanks_append hblanks, hend]
  rfl

theorem byteLength_toList (s : String) : Text.byteLength s.toList = s.utf8ByteSize := by
  rw [byteLength_eq_utf8Len, String.utf8Len_toList]

/-- Two texts with blanks between them split one after the other, if the first one splits. -/
theorem tokenize_append_blanks_append {a w : String} {ts : List Token} (ha : tokenize a = .ok ts)
    (hne : w ≠ "") (hw : Text.isAllBlank w = true) (b : String) :
    tokenize (a ++ w ++ b)
      = ((tokenize b).map fun us => ts ++ us.map (Token.shift (a ++ w).utf8ByteSize)).mapError
        (ParseError.shift (a ++ w).utf8ByteSize) := by
  have hblanks : w.toList ≠ [] := by simpa using hne
  rw [tokenize, String.toList_append, String.toList_append, List.append_assoc,
    tokensFrom_append_blanks_append ha hw hblanks, ← String.toList_append, byteLength_toList,
    tokensFrom_add, ← tokenize]
  cases tokenize b <;> rfl

/-- What stops the splitting of a text stands at an offset. -/
theorem exists_position?_of_tokensFrom {e : ParseError} (h : tokensFrom position cs = .error e) :
    ∃ offset, e.position? = some offset := by
  obtain ⟨ts, stop, c, rest, fault, -, -, -, rfl⟩ := tokensFrom_eq_error_iff.mp h
  exact ⟨stop, fault.position?_toError stop⟩

/-- **Splitting is compositional across blanks.** Behind a text that splits, and blanks, the tokens
of any other text follow, further on by the bytes in front of them. There is a fault just if the
other text has one, and then it is the same one, further on by as much. -/
theorem tokenize_spaced {a w : String} {ts : List Token} (ha : tokenize a = .ok ts)
    (hne : w ≠ "") (hw : Text.isAllBlank w = true) (b : String) :
    (∀ all, tokenize (a ++ w ++ b) = .ok all ↔
        ∃ us, tokenize b = .ok us ∧ all = ts ++ us.map (Token.shift (a ++ w).utf8ByteSize))
      ∧ ∀ e, tokenize (a ++ w ++ b) = .error e ↔
        ∃ fault offset, tokenize b = .error fault ∧ fault.position? = some offset
          ∧ e = fault.shift (a ++ w).utf8ByteSize
          ∧ e.position? = some ((a ++ w).utf8ByteSize + offset) := by
  rw [tokenize_append_blanks_append ha hne hw b]
  cases hb : tokenize b with
  | ok us =>
    refine ⟨fun all => ⟨?_, ?_⟩, fun e => ⟨?_, ?_⟩⟩
    · rintro ⟨⟩
      exact ⟨us, rfl, rfl⟩
    · rintro ⟨us, ⟨⟩, rfl⟩
      rfl
    · rintro ⟨⟩
    · rintro ⟨fault, offset, ⟨⟩, -⟩
  | error fault =>
    obtain ⟨offset, hoffset⟩ := exists_position?_of_tokensFrom hb
    refine ⟨fun all => ⟨?_, ?_⟩, fun e => ⟨?_, ?_⟩⟩
    · rintro ⟨⟩
    · rintro ⟨us, ⟨⟩, -⟩
    · rintro ⟨⟩
      exact ⟨fault, offset, rfl, hoffset, rfl, by rw [ParseError.position?_shift, hoffset]; rfl⟩
    · rintro ⟨fault, offset, ⟨⟩, -, rfl, -⟩
      rfl

/-- In front of an em space a symbol stays as it is, be it a number that follows or the character
that would make it another symbol. -/
theorem tokenize_spaced_emSpace :
    tokenize "é 'a\"' >" = .ok [⟨.word "é", 0⟩, ⟨.quoted "a\"", 3⟩, ⟨.symbol .above, 8⟩]
      ∧ "\u2003" ≠ "" ∧ Text.isAllBlank "\u2003" = true
      ∧ tokenize ("é 'a\"' >" ++ "\u2003" ++ "-.5 ü")
        = .ok [⟨.word "é", 0⟩, ⟨.quoted "a\"", 3⟩, ⟨.symbol .above, 8⟩, ⟨.number (-0.5), 12⟩,
          ⟨.word "ü", 16⟩]
      ∧ tokenize ("é 'a\"' >" ++ "\u2003" ++ "= 1")
        = .error (.unexpectedToken "=" .expression 12) := by
  have hsplit : tokenize "é 'a\"' >"
      = .ok [⟨.word "é", 0⟩, ⟨.quoted "a\"", 3⟩, ⟨.symbol .above, 8⟩] := by decide +kernel
  have hblank : Text.isAllBlank "\u2003" = true := by decide +kernel
  have hnumber : tokenize "-.5 ü" = .ok [⟨.number (-0.5), 0⟩, ⟨.word "ü", 4⟩] := by decide +kernel
  have hstray : tokenize "= 1" = .error (.unexpectedToken "=" .expression 0) := by decide +kernel
  refine ⟨hsplit, by decide, hblank, ?_, ?_⟩
  · exact ((tokenize_spaced hsplit (by decide) hblank _).1 _).mpr ⟨_, hnumber, by decide +kernel⟩
  · exact ((tokenize_spaced hsplit (by decide) hblank _).2 _).mpr
      ⟨_, 0, hstray, rfl, by decide +kernel, by decide +kernel⟩

end ChargeScreening
