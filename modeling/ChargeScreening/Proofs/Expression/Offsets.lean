import ChargeScreening.Proofs.Expression.Cutting
import ChargeScreening.Proofs.Expression.Parsing
import Mathlib.Data.List.Forall2
import Mathlib.Data.String.Basic

/-!
# Where the tokens of a text stand

Tokens carry the byte offsets at which they start. Cut at these offsets, a text falls into slices
that are one token each, whatever stood behind them, so that the tokens account for all of it. The
same goes for what has been read when a fault is found.

## Main definitions

* `slice` — the part of a text between two byte offsets
* `RestAt`, `StandsAt` — what a text holds from a byte offset on, and the first character of that
* `slices` — a text cut at the offsets of tokens
* `Accounts` — the tokens make up the whole text
* `Reads` — tokens are read off the front of a text, and the rest of it is left

## Main results

* `tokensFrom_eq_error_iff` — a fault is where no lexeme can be read
* `tokenize_accounts` — tokens account for a text, or for what is in front of its first fault
-/

namespace ChargeScreening

variable {position stop : Nat} {cs rest : List Char} {ts : List Token}

/-! ### Slices -/

/-- The part of a text between two byte offsets. -/
def slice (text : String) (start stop : Nat) : String :=
  String.Pos.Raw.extract text ⟨start⟩ ⟨stop⟩

theorem byteLength_eq_utf8Len (cs : List Char) : Text.byteLength cs = String.utf8Len cs := by
  induction cs with
  | nil => rfl
  | cons c cs ih => rw [Text.byteLength_cons, String.utf8Len_cons, ih, Nat.add_comm]

/-- The rest of a text from a byte offset on. -/
def RestAt (text : String) (offset : Nat) (rest : List Char) : Prop :=
  ∃ front, text.toList = front ++ rest ∧ Text.byteLength front = offset

/-- The character that a byte offset belongs to: this is where it starts. -/
def StandsAt (c : Char) (offset : Nat) (text : String) : Prop :=
  ∃ after, RestAt text offset (c :: after)

theorem restAt_zero (text : String) : RestAt text 0 text.toList :=
  ⟨[], rfl, rfl⟩

namespace RestAt

variable {text : String} {offset : Nat} {piece rest : List Char}

theorem behind (h : RestAt text offset (piece ++ rest)) :
    RestAt text (offset + Text.byteLength piece) rest := by
  obtain ⟨front, htext, rfl⟩ := h
  exact ⟨front ++ piece, by rw [htext, List.append_assoc], Text.byteLength_append front piece⟩

theorem eq_byteLength (h : RestAt text offset []) : offset = Text.byteLength text.toList := by
  obtain ⟨front, htext, rfl⟩ := h
  rw [htext, List.append_nil]

/-- The slice up to where more is left is what stands in front of that. -/
theorem slice_eq (h : RestAt text offset (piece ++ rest)) :
    slice text offset (offset + Text.byteLength piece) = String.ofList piece := by
  obtain ⟨front, htext, rfl⟩ := h
  rw [← List.append_assoc] at htext
  rw [slice, ← String.ofList_toList (s := text), htext, byteLength_eq_utf8Len,
    byteLength_eq_utf8Len]
  exact String.extract_of_valid front piece rest

end RestAt

/-- Where the first one of some tokens starts, or the end of the text if there is none. -/
def firstOffset (text : String) : List Token → Nat
  | [] => Text.byteLength text.toList
  | t :: _ => t.position

/-- The text from each token on, up to the next one. -/
def slices (text : String) : List Token → List String
  | [] => []
  | t :: ts => slice text t.position (firstOffset text ts) :: slices text ts

/-- The tokens account for every character of the text. -/
structure Accounts (text : String) (ts : List Token) : Prop where
  /-- The offsets are strictly increasing. -/
  increasing : (ts.map Token.position).Pairwise (· < ·)
  /-- A token starts at a character that is not blank. -/
  starts : ∀ t ∈ ts, ∃ c, StandsAt c t.position text ∧ Text.isBlank c = false
  /-- In front of the first token are blanks only. -/
  lead : Text.isAllBlank (slice text 0 (firstOffset text ts)) = true
  /-- The text from a token up to the next one is this one token by itself. -/
  alone : List.Forall₂ (fun t piece => tokenize piece = .ok [⟨t.kind, 0⟩]) ts (slices text ts)
  /-- Put together again, the slices are the text. -/
  whole : slice text 0 (firstOffset text ts) ++ String.join (slices text ts) = text

/-! ### Stretches of one token -/

/-- From a byte offset on, characters that fall into stretches of one token each: a stretch is this
token by itself, and the next one starts behind it. -/
inductive Laid : Nat → List Char → List Token → Prop
  | nil {position : Nat} : Laid position [] []
  | cons {position : Nat} {kind : TokenKind} {c : Char} {inside cs : List Char} {ts : List Token} :
      Text.isBlank c = false → tokensFrom 0 (c :: inside) = .ok [⟨kind, 0⟩] →
      Laid (position + Text.byteLength (c :: inside)) cs ts →
      Laid position (c :: inside ++ cs) (⟨kind, position⟩ :: ts)

/-- A lexeme with blanks behind it is one token. -/
theorem tokensFrom_of_lexeme {kind : TokenKind} {c : Char} {inside blanks : List Char}
    (hc : Text.isBlank c = false) (hblanks : blanks.all Text.isBlank = true)
    (h : Lexeme.read c (inside ++ blanks) = .ok ⟨kind, c :: inside, blanks⟩) :
    tokensFrom 0 (c :: (inside ++ blanks)) = .ok [⟨kind, 0⟩] := by
  rw [tokensFrom_lexeme hc h, tokensFrom_of_isBlank hblanks]
  rfl

/-- Tokens come from blanks and, behind them, stretches of one token. The blanks behind a lexeme
belong to its stretch. -/
theorem exists_laid_of_tokensFrom (h : tokensFrom position cs = .ok ts) :
    ∃ blanks stretches, cs = blanks ++ stretches ∧ blanks.all Text.isBlank = true
      ∧ Laid (position + Text.byteLength blanks) stretches ts := by
  fun_induction tokensFrom position cs generalizing ts with
  | case1 =>
    cases h
    exact ⟨[], [], rfl, rfl, .nil⟩
  | case2 position c cs hc ih =>
    obtain ⟨blanks, stretches, rfl, hblanks, hlaid⟩ := ih h
    refine ⟨c :: blanks, stretches, rfl, by rw [List.all_cons, hc, hblanks]; rfl, ?_⟩
    rwa [Text.byteLength_cons, ← Nat.add_assoc]
  | case3 => cases h
  | case4 position c cs hc l hread ih =>
    obtain ⟨kind, spelling, left⟩ := l
    obtain ⟨inside, rfl, rfl⟩ := Lexeme.exists_inside hread
    obtain ⟨others, hothers, rfl⟩ := exists_of_map_eq_ok h
    obtain ⟨blanks, stretches, rfl, hblanks, hlaid⟩ := ih hothers
    have hblank : Text.isBlank c = false := Bool.eq_false_iff.mpr hc
    -- behind the lexeme only the blanks up to the next one are left standing
    have halone := tokensFrom_of_lexeme hblank hblanks
      (Lexeme.read_cut hread (List.prefix_append blanks stretches))
    refine ⟨[], c :: (inside ++ (blanks ++ stretches)), rfl, rfl, ?_⟩
    rw [← List.append_assoc, ← List.cons_append]
    refine .cons hblank halone ?_
    rwa [← List.cons_append, Text.byteLength_append, Text.byteLength_nil, Nat.add_zero,
      ← Nat.add_assoc]

namespace Laid

theorem le_position (h : Laid position cs ts) {t : Token} (ht : t ∈ ts) :
    position ≤ t.position := by
  induction h with
  | nil => cases ht
  | cons _ _ _ ih =>
    obtain rfl | ht := List.mem_cons.mp ht
    · exact Nat.le_refl _
    · exact (Nat.le_add_right _ _).trans (ih ht)

theorem increasing (h : Laid position cs ts) : (ts.map Token.position).Pairwise (· < ·) := by
  induction h with
  | nil => exact .nil
  | @cons position _ c inside _ ts _ _ hlaid ih =>
    refine List.pairwise_cons.mpr ⟨?_, ih⟩
    intro offset hoffset
    obtain ⟨t, ht, rfl⟩ := List.mem_map.mp hoffset
    have hle : position + Text.byteLength (c :: inside) ≤ t.position := hlaid.le_position ht
    have hpos : 0 < c.utf8Size := c.utf8Size_pos
    rw [Text.byteLength_cons] at hle
    have hlt : position < t.position := by omega
    exact hlt

variable {text : String}

theorem starts (h : Laid position cs ts) (hrest : RestAt text position cs) {t : Token}
    (ht : t ∈ ts) : ∃ c, StandsAt c t.position text ∧ Text.isBlank c = false := by
  induction h with
  | nil => cases ht
  | @cons _ _ c inside cs _ hc _ _ ih =>
    obtain rfl | ht := List.mem_cons.mp ht
    · exact ⟨c, ⟨inside ++ cs, hrest⟩, hc⟩
    · exact ih hrest.behind ht

theorem firstOffset_eq (h : Laid position cs ts) (hrest : RestAt text position cs) :
    firstOffset text ts = position := by
  cases h with
  | nil => exact hrest.eq_byteLength.symm
  | cons => rfl

/-- The slices are the stretches. -/
theorem slices_spec (h : Laid position cs ts) (hrest : RestAt text position cs) :
    List.Forall₂ (fun t piece => tokenize piece = .ok [⟨t.kind, 0⟩]) ts (slices text ts)
      ∧ String.join (slices text ts) = String.ofList cs := by
  induction h with
  | nil => exact ⟨.nil, rfl⟩
  | @cons position kind c inside cs ts _ halone hlaid ih =>
    have hslice : slice text position (firstOffset text ts) = String.ofList (c :: inside) := by
      rw [hlaid.firstOffset_eq hrest.behind, hrest.slice_eq]
    obtain ⟨hothers, hjoin⟩ := ih hrest.behind
    rw [slices, hslice]
    constructor
    · refine .cons ?_ hothers
      rw [tokenize, String.toList_ofList, halone]
    · rw [String.join_cons, hjoin, ← String.ofList_append]

end Laid

/-! ### What is in front of a fault -/

/-- From a byte offset on, these tokens are read off the front of the characters, up to another
offset from which on the rest is left. -/
inductive Reads : Nat → List Char → List Token → Nat → List Char → Prop
  | done {position : Nat} {cs : List Char} : Reads position cs [] position cs
  | blank {position stop : Nat} {c : Char} {cs rest : List Char} {ts : List Token} :
      Text.isBlank c = true → Reads (position + c.utf8Size) cs ts stop rest →
      Reads position (c :: cs) ts stop rest
  | token {position stop : Nat} {c : Char} {cs rest : List Char} {ts : List Token} {l : Lexeme} :
      Text.isBlank c = false → Lexeme.read c cs = .ok l →
      Reads (position + Text.byteLength l.spelling) l.rest ts stop rest →
      Reads position (c :: cs) (⟨l.kind, position⟩ :: ts) stop rest

namespace Reads

/-- What is read first comes in front of whatever the rest gives. -/
theorem tokensFrom_eq (h : Reads position cs ts stop rest) :
    tokensFrom position cs = (tokensFrom stop rest).map (ts ++ ·) := by
  induction h with
  | @done position cs => cases tokensFrom position cs <;> rfl
  | blank hc _ ih => rw [tokensFrom, if_pos hc, ih]
  | @token position stop c cs rest ts l hc hread _ ih =>
    rw [tokensFrom_lexeme hc hread, ih]
    cases tokensFrom stop rest <;> rfl

/-- Without the rest, the same tokens are read. -/
theorem exists_front (h : Reads position cs ts stop rest) :
    ∃ front, cs = front ++ rest ∧ stop = position + Text.byteLength front
      ∧ tokensFrom position front = .ok ts := by
  induction h with
  | done => exact ⟨[], rfl, rfl, by rw [tokensFrom]⟩
  | @blank position stop c cs rest ts hc _ ih =>
    obtain ⟨front, rfl, rfl, hfront⟩ := ih
    refine ⟨c :: front, rfl, by rw [Text.byteLength_cons, Nat.add_assoc], ?_⟩
    rw [tokensFrom, if_pos hc, hfront]
  | @token position stop c cs rest ts l hc hread _ ih =>
    obtain ⟨kind, spelling, left⟩ := l
    obtain ⟨inside, rfl, rfl⟩ := Lexeme.exists_inside hread
    obtain ⟨front, rfl, rfl, hfront⟩ := ih
    have hcut := Lexeme.read_cut hread (List.prefix_append front rest)
    refine ⟨c :: inside ++ front, by rw [List.cons_append, List.cons_append, List.append_assoc],
      by rw [Text.byteLength_append, Nat.add_assoc], ?_⟩
    rw [List.cons_append, tokensFrom_lexeme hc hcut, hfront]
    rfl

end Reads

/-- A text has a fault where, behind some tokens, no lexeme can be read. -/
theorem tokensFrom_eq_error_iff {e : ParseError} :
    tokensFrom position cs = .error e ↔ ∃ ts stop c rest fault,
      Reads position cs ts stop (c :: rest) ∧ Text.isBlank c = false
        ∧ Lexeme.read c rest = .error fault ∧ e = fault.toError stop := by
  constructor
  · intro h
    fun_induction tokensFrom position cs with
    | case1 => cases h
    | case2 position c cs hc ih =>
      obtain ⟨ts, stop, d, rest, fault, hreads, hd⟩ := ih h
      exact ⟨ts, stop, d, rest, fault, .blank hc hreads, hd⟩
    | case3 position c cs hc fault hread =>
      cases h
      exact ⟨[], position, c, cs, fault, .done, Bool.eq_false_iff.mpr hc, hread, rfl⟩
    | case4 position c cs hc l hread ih =>
      have herror : tokensFrom (position + Text.byteLength l.spelling) l.rest = .error e := by
        cases hleft : tokensFrom (position + Text.byteLength l.spelling) l.rest with
        | error e' =>
          rw [hleft] at h
          cases h
          rfl
        | ok ts =>
          rw [hleft] at h
          cases h
      obtain ⟨ts, stop, d, rest, fault, hreads, hd⟩ := ih herror
      exact ⟨⟨l.kind, position⟩ :: ts, stop, d, rest, fault,
        .token (Bool.eq_false_iff.mpr hc) hread hreads, hd⟩
  · rintro ⟨ts, stop, c, rest, fault, hreads, hc, hread, rfl⟩
    rw [hreads.tokensFrom_eq, tokensFrom_fault hc hread]
    rfl

/-- The byte offset that an error names. -/
def ParseError.position? : ParseError → Option Nat
  | .unexpectedToken _ _ position => some position
  | .invalidNumber _ position => some position
  | .unterminatedString position => some position
  | .emptyExpression => none
  | .unexpectedEnd _ => none
  | .invalidFormula _ => none

theorem LexemeFault.position?_toError (fault : LexemeFault) (position : Nat) :
    (fault.toError position).position? = some position := by
  cases fault <;> rfl

/-! ### Whole texts -/

theorem accounts_of_tokenize {text : String} (h : tokenize text = .ok ts) : Accounts text ts := by
  obtain ⟨blanks, stretches, htext, hblanks, hlaid⟩ := exists_laid_of_tokensFrom h
  have hrest : RestAt text 0 (blanks ++ stretches) := htext ▸ restAt_zero text
  obtain ⟨halone, hjoin⟩ := hlaid.slices_spec hrest.behind
  have hlead : slice text 0 (firstOffset text ts) = String.ofList blanks := by
    rw [hlaid.firstOffset_eq hrest.behind, hrest.slice_eq]
  refine ⟨hlaid.increasing, fun t ht => hlaid.starts hrest.behind ht, ?_, halone, ?_⟩
  · rw [hlead, Text.isAllBlank, String.toList_ofList, hblanks]
  · rw [hlead, hjoin, ← String.ofList_append, ← htext, String.ofList_toList]

/-- **Tokens account for every character of a text.** Where there is a fault instead, the error
names the offset of a character, and the text in front of it splits into what was read so far. -/
theorem tokenize_accounts (text : String) :
    (∀ ts, tokenize text = .ok ts → Accounts text ts)
      ∧ ∀ e, tokenize text = .error e → ∃ offset c rest ts,
        e.position? = some offset ∧ StandsAt c offset text
          ∧ Reads 0 text.toList ts offset (c :: rest)
          ∧ tokenize (slice text 0 offset) = .ok ts := by
  refine ⟨fun ts h => accounts_of_tokenize h, fun e h => ?_⟩
  obtain ⟨ts, stop, c, rest, fault, hreads, -, -, rfl⟩ := tokensFrom_eq_error_iff.mp h
  obtain ⟨front, htext, rfl, hfront⟩ := hreads.exists_front
  have hrest : RestAt text 0 (front ++ c :: rest) := htext ▸ restAt_zero text
  refine ⟨_, c, rest, ts, fault.position?_toError _, ⟨rest, hrest.behind⟩, hreads, ?_⟩
  rw [hrest.slice_eq, tokenize, String.toList_ofList, hfront]

/-- The theorem on two texts with a letter of two bytes: one that splits, with no blank between its
symbol and its number, and one with a quote that stays open. -/
theorem tokenize_accounts_accented :
    Accounts " é>=-.5" [⟨.word "é", 1⟩, ⟨.symbol .atLeast, 3⟩, ⟨.number (-0.5), 5⟩]
      ∧ ∃ offset c rest ts,
        ParseError.position? (.unterminatedString 8) = some offset
          ∧ StandsAt c offset "é in [ 'x"
          ∧ Reads 0 "é in [ 'x".toList ts offset (c :: rest)
          ∧ tokenize (slice "é in [ 'x" 0 offset) = .ok ts :=
  ⟨(tokenize_accounts _).1 _ (by decide +kernel), (tokenize_accounts _).2 _ (by decide +kernel)⟩

end ChargeScreening
