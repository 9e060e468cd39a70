import ChargeScreening.Proofs.Expression.Splitting

/-!
# Cutting a text behind a lexeme

A lexeme ends where the next character cannot belong to it. If the text is cut off there, or any
number of characters later, the same lexeme stands at its front. Nothing is asked of the characters
behind it: unlike a lexeme that is put in front of another text, one that is cut loose has nothing
new to run into.

## Main results

* `spanNumber_cut`, `spanQuoted?_cut`, `symbolAt?_cut` — the scans behind a first character
* `Lexeme.exists_inside` — a lexeme is its first character and some of those behind it
* `Lexeme.read_cut` — one lexeme
-/

namespace ChargeScreening

variable {c : Char} {cs inside rest left : List Char}

/-! ### Scans -/

theorem spanNumber_cut {before : Char} (h : spanNumber before cs = (inside, rest))
    (hleft : left <+: rest) : spanNumber before (inside ++ left) = (inside, left) := by
  induction cs generalizing before inside with
  | nil =>
    cases h
    rw [List.prefix_nil.mp hleft]
    rfl
  | cons c cs ih =>
    rw [spanNumber] at h
    split at h
    · next hc =>
      cases h
      rw [List.cons_append, spanNumber, if_pos hc, ih rfl]
    · next hc =>
      cases h
      obtain rfl | ⟨more, rfl, -⟩ := List.prefix_cons_iff.mp hleft
      · rfl
      · rw [List.nil_append, spanNumber, if_neg hc]

/-- What makes a sign that of a number belongs to the number. -/
theorem startsNumber_cut {before : Char} (h : startsNumber cs = true)
    (hspan : spanNumber before cs = (inside, rest)) (left : List Char) :
    startsNumber (inside ++ left) = true := by
  cases cs with
  | nil => cases h
  | cons d cs =>
    by_cases hpoint : d = '.'
    · subst hpoint
      cases cs with
      | nil => cases h
      | cons e cs =>
        have he : e.isDigit = true := h
        rw [spanNumber, if_pos (show isNumberChar before '.' = true by simp [isNumberChar]),
          spanNumber, if_pos (isNumberChar_of_isDigit '.' he)] at hspan
        cases hspan
        exact he
    · have hd : d.isDigit = true := by simpa [startsNumber, hpoint] using h
      rw [spanNumber, if_pos (isNumberChar_of_isDigit before hd)] at hspan
      cases hspan
      exact startsNumber_cons_of_isDigit hd _

theorem spanQuoted?_cut {quote : Char} {content : List Char}
    (h : spanQuoted? quote cs = some (content, inside, rest)) (left : List Char) :
    spanQuoted? quote (inside ++ left) = some (content, inside, left) := by
  fun_induction spanQuoted? quote cs generalizing content inside with
  | case1 => cases h
  | case2 => cases h
  | case3 c cs ih =>
    obtain ⟨⟨content', inside', rest'⟩, hspan, heq⟩ := Option.map_eq_some_iff.mp h
    cases heq
    rw [List.cons_append, List.cons_append, spanQuoted?, ih hspan]
    rfl
  | case4 cs hslash =>
    cases h
    rw [List.cons_append, spanQuoted?, if_pos rfl]
    · rfl
    · exact hslash
  | case5 c cs hslash hquote ih =>
    obtain ⟨⟨content', inside', rest'⟩, hspan, heq⟩ := Option.map_eq_some_iff.mp h
    cases heq
    rw [List.cons_append, spanQuoted?, if_neg hquote, ih hspan]
    · rfl
    · exact hslash

theorem spanWord_cut (hleft : left <+: cs.dropWhile isWordChar) :
    (cs.takeWhile isWordChar ++ left).takeWhile isWordChar = cs.takeWhile isWordChar
      ∧ (cs.takeWhile isWordChar ++ left).dropWhile isWordChar = left := by
  have hall : ∀ c ∈ cs.takeWhile isWordChar, isWordChar c = true :=
    List.all_eq_true.mp List.all_takeWhile
  rw [List.takeWhile_append_of_pos hall, List.dropWhile_append_of_pos hall]
  cases left with
  | nil => exact ⟨List.append_nil _, rfl⟩
  | cons d left =>
    obtain ⟨more, hmore⟩ := hleft
    have hd : isWordChar d = false := by
      have hhead := List.head?_dropWhile_not isWordChar cs
      rw [← hmore] at hhead
      exact hhead
    rw [List.takeWhile_cons, List.dropWhile_cons, hd]
    exact ⟨List.append_nil _, rfl⟩

theorem symbolAt?_cut {s : Symbol} {tail : List Char}
    (h : symbolAt? (s.spelling.toList ++ tail) = some s) (hleft : left <+: tail) :
    symbolAt? (s.spelling.toList ++ left) = some s := by
  cases left with
  | nil => cases s <;> rfl
  | cons d left =>
    obtain ⟨more, rfl⟩ := hleft
    cases s <;> first | rfl | exact (symbolAt?_cons_cons _ _ _ _).trans h

/-! ### Lexemes -/

namespace Lexeme

/-- A lexeme is its first character and some of those behind it. -/
theorem exists_inside {kind : TokenKind} {spelling : List Char}
    (h : read c cs = .ok ⟨kind, spelling, rest⟩) :
    ∃ inside, spelling = c :: inside ∧ cs = inside ++ rest := by
  obtain ⟨d, inside, rfl⟩ : ∃ d inside, spelling = d :: inside :=
    List.exists_cons_of_ne_nil (read_spelling_ne_nil h)
  obtain ⟨rfl, hinside⟩ := List.cons.inj (read_split h)
  exact ⟨inside, rfl, hinside.symm⟩

section Readers

variable {kind : TokenKind}

theorem readQuoted_cut (h : readQuoted c cs = .ok ⟨kind, c :: inside, rest⟩) (left : List Char) :
    readQuoted c (inside ++ left) = .ok ⟨kind, c :: inside, left⟩ := by
  rw [readQuoted] at h
  split at h
  · next hspan =>
    cases h
    rw [readQuoted, spanQuoted?_cut hspan left]
  · cases h

theorem readNumber_cut (h : readNumber c cs = .ok ⟨kind, c :: inside, rest⟩)
    (hleft : left <+: rest) : readNumber c (inside ++ left) = .ok ⟨kind, c :: inside, left⟩ := by
  simp only [readNumber] at h
  split at h
  · next hx =>
    cases h
    simp only [readNumber, spanNumber_cut rfl hleft, hx]
  · cases h

theorem readWord_cut (h : readWord c cs = ⟨kind, c :: inside, rest⟩) (hleft : left <+: rest) :
    readWord c (inside ++ left) = ⟨kind, c :: inside, left⟩ := by
  cases h
  obtain ⟨htake, hdrop⟩ := spanWord_cut hleft
  simp only [readWord, htake, hdrop]

theorem readSymbol_cut (h : readSymbol c cs = .ok ⟨kind, c :: inside, rest⟩)
    (hleft : left <+: rest) : readSymbol c (inside ++ left) = .ok ⟨kind, c :: inside, left⟩ := by
  rw [readSymbol] at h
  split at h
  · next s hsymbol =>
    obtain ⟨tail, htail⟩ := exists_of_symbolAt? hsymbol
    rw [htail] at h hsymbol
    simp only [← String.length_toList, List.take_left, List.drop_left] at h
    obtain ⟨rfl, hspelling, rfl⟩ := Lexeme.mk.inj (Except.ok.inj h)
    have hwhole : c :: (inside ++ left) = s.spelling.toList ++ left := by
      rw [hspelling, List.cons_append]
    rw [readSymbol, hwhole, symbolAt?_cut hsymbol hleft]
    simp only [← String.length_toList, List.take_left, List.drop_left, hspelling]
  · cases h

/-- What a number or a word is told from does not change either. -/
theorem startsNumber_of_readNumber (h : readNumber c cs = .ok ⟨kind, c :: inside, rest⟩)
    (hsign : startsNumber cs = true) (left : List Char) : startsNumber (inside ++ left) = true := by
  simp only [readNumber] at h
  split at h
  · cases h
    exact startsNumber_cut hsign rfl left
  · cases h

end Readers

/-- What starts a symbol is no sign. -/
theorem isSign_of_readSymbol {l : Lexeme} (h : readSymbol c cs = .ok l) :
    (c == '-' || c == '+') = false := by
  rw [readSymbol] at h
  split at h
  · next s hsymbol =>
    obtain ⟨tail, htail⟩ := exists_of_symbolAt? hsymbol
    cases s <;> cases htail <;> rfl
  · cases h

/-- **A lexeme stays the same when the text is cut off behind it**, right behind it or later. -/
theorem read_cut {kind : TokenKind} (h : read c cs = .ok ⟨kind, c :: inside, rest⟩)
    (hleft : left <+: rest) : read c (inside ++ left) = .ok ⟨kind, c :: inside, left⟩ := by
  rw [read] at h ⊢
  split at h
  · next hpunctuation =>
    cases h
    rw [List.nil_append]
  · split at h
    · next hquote =>
      rw [if_pos hquote]
      exact readQuoted_cut h left
    · next hquote =>
      rw [if_neg hquote]
      split at h
      · next hnumber =>
        have hstill : (c.isDigit || ((c == '-' || c == '+') && startsNumber (inside ++ left)))
            = true := by
          rw [Bool.or_eq_true, Bool.and_eq_true] at hnumber ⊢
          exact hnumber.imp_right
            (And.imp_right fun hstarts => startsNumber_of_readNumber h hstarts left)
        rw [if_pos hstill]
        exact readNumber_cut h hleft
      · next hnumber =>
        rw [Bool.not_eq_true, Bool.or_eq_false_iff] at hnumber
        split at h
        · next hword =>
          rw [hnumber.1, isSign_of_isWordStart hword, if_pos hword,
            readWord_cut (Except.ok.inj h) hleft]
          rfl
        · next hword =>
          rw [hnumber.1, isSign_of_readSymbol h, if_neg hword]
          exact readSymbol_cut h hleft

end Lexeme

end ChargeScreening
