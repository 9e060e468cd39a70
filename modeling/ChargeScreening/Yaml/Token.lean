import ChargeScreening.Yaml.Basic

/-!
# Tokens of YAML documents

A text is split into scalars, keys and the marks of flow collections. Where the indentation grows
in front of a dash or a key, a block collection starts; where it falls back, the collections of
the deeper columns are finished.

## Main definitions

* `Yaml.Token`: the tokens
* `Yaml.Cursor`: the characters still to be read, and the column of the first of them
* `Yaml.Gap`: blanks and line breaks between the words of a scalar
* `Yaml.plainScalar`, `Yaml.quotedScalar?`: reading scalars
* `Yaml.tokens?`: the tokens of a text
-/

namespace ChargeScreening.Yaml

/-- A token. -/
inductive Token where
  | scalar (s : Scalar)
  /-- A scalar with a colon behind it. -/
  | key (s : Scalar)
  /-- The dash in front of an item. -/
  | dash
  | openList
  | closeList
  | openMap
  | closeMap
  | comma
  /-- The start of a list that is held together by the column of its dashes. -/
  | blockList
  /-- The start of a map that is held together by the column of its keys. -/
  | blockMap
  /-- The end of such a list or map. -/
  | blockEnd
  | documentStart
  | documentEnd
deriving DecidableEq, Repr

/-! ### Characters -/

/-- Whether a character separates words on a line. -/
def isBlank (c : Char) : Bool :=
  c = ' ' || c = '\t'

/-- Whether the front of a text is a blank, a line break, or the end. -/
def startsBlank : List Char → Bool
  | [] => true
  | c :: _ => isBlank c || c = '\n'

/-- Whether a character may occur in a document at all. -/
def isPrintable (c : Char) : Bool :=
  let n := c.toNat
  n == 0x09 || n == 0x0A || n == 0x0D || (0x20 ≤ n && n ≤ 0x7E) || n == 0x85
    || (0xA0 ≤ n && n ≤ 0xFFFD && n != 0xFEFF) || 0x10000 ≤ n

/-- The text with every line break written as a single line feed. -/
def unifyBreaks : List Char → List Char
  | [] => []
  | '\r' :: '\n' :: rest => '\n' :: unifyBreaks rest
  | '\r' :: rest => '\n' :: unifyBreaks rest
  | '\u0085' :: rest => '\n' :: unifyBreaks rest
  | c :: rest => c :: unifyBreaks rest

/-- Whether a character ends a scalar without quotes inside a flow collection. -/
def isFlowMark (c : Char) : Bool :=
  c = ',' || c = '[' || c = ']' || c = '\x7b' || c = '\x7d'

/-- Whether a scalar without quotes can start with a text. -/
def startsPlain (inFlow : Bool) : List Char → Bool
  | [] => false
  | c :: rest =>
    if c = '-' then !startsBlank rest
    else if c = '?' || c = ':' then !inFlow && !startsBlank rest
    else !(startsBlank (c :: rest) || isFlowMark c || "#&*!|>'\"%@`".contains c)

/-- The characters still to be read, and the column of the first of them. -/
structure Cursor where
  rest : List Char
  column : Nat := 0

namespace Cursor

/-- The cursor behind its first character. -/
def next (cur : Cursor) : Cursor :=
  match cur.rest with
  | [] => cur
  | '\n' :: rest => ⟨rest, 0⟩
  | _ :: rest => ⟨rest, cur.column + 1⟩

/-- The cursor behind the blanks in front of it. -/
def skipBlanks (cur : Cursor) : Cursor :=
  let blanks := cur.rest.takeWhile isBlank
  ⟨cur.rest.drop blanks.length, cur.column + blanks.length⟩

/-- Whether a line of three dashes or three points starts here, which separates documents. -/
def atSeparator (cur : Cursor) : Bool :=
  cur.column == 0 && match cur.rest with
    | '-' :: '-' :: '-' :: rest => startsBlank rest
    | '.' :: '.' :: '.' :: rest => startsBlank rest
    | _ => false

/-- Whether a colon that makes the scalar before it a key stands here. -/
def atColon (cur : Cursor) (inFlow : Bool) : Bool :=
  match cur.rest with
  | ':' :: rest => inFlow || startsBlank rest
  | _ => false

end Cursor

/-! ### Scalars -/

/-- What lies between two words of a scalar. -/
inductive Gap where
  /-- Blanks on one line, the last one first. -/
  | blanks (cs : List Char)
  /-- A line break, and so many empty lines behind it. -/
  | folded (emptyLines : Nat)
  /-- A line break that a backslash takes back, and so many empty lines behind it. -/
  | escaped (emptyLines : Nat)

namespace Gap

/-- What a gap contributes to the scalar, the last character first. Blanks stay, a line break
becomes a space, and empty lines become line breaks in its place. -/
def text : Gap → List Char
  | .blanks cs => cs
  | .folded 0 => [' ']
  | .folded n => List.replicate n '\n'
  | .escaped n => List.replicate n '\n'

/-- The gap with one more blank or line break. Blanks around a line break do not count. -/
def extend (g : Gap) (c : Char) : Gap :=
  match g with
  | .blanks cs => if c = '\n' then .folded 0 else .blanks (c :: cs)
  | .folded n => if c = '\n' then .folded (n + 1) else g
  | .escaped n => if c = '\n' then .escaped (n + 1) else g

/-- Whether the gap goes beyond one line. -/
def isBroken : Gap → Bool
  | .blanks _ => false
  | _ => true

end Gap

/-- A scalar as it is read. -/
structure ScalarRead where
  scalar : Scalar
  /-- Whether it stands on one line. -/
  isSingleLine : Bool
  /-- Whether a line break follows it that has been read as well. -/
  endsLine : Bool
  cursor : Cursor

/-- A scalar without quotes, which ends where a comment, a colon with a blank behind it, a mark of
a flow collection or a line of a lesser column follows. -/
def plainScalar (inFlow : Bool) (minColumn : Nat) :
    Nat → List Char → Bool → Gap → Cursor → Option ScalarRead
  | 0, _, _, _, _ => none
  | steps + 1, read, singleLine, gap, cur =>
    let finished : ScalarRead :=
      ⟨⟨String.ofList read.reverse, true⟩, singleLine, gap.isBroken, cur⟩
    match cur.rest with
    | [] => some finished
    | c :: rest =>
      if isBlank c then
        if gap.isBroken && cur.column < minColumn && c = '\t' then none
        else plainScalar inFlow minColumn steps read singleLine (gap.extend c) cur.next
      else if c = '\n' then
        plainScalar inFlow minColumn steps read singleLine (gap.extend c) cur.next
      else
        let freshLine := gap.isBroken
        let freshWord := match gap with | .blanks [] => false | _ => true
        if freshLine && ((!inFlow && cur.column < minColumn) || cur.atSeparator) then some finished
        else if c = '#' && freshWord then some finished
        else if inFlow && c = ':' && rest.head?.any (fun d => isFlowMark d || d = '?') then none
        else if (c = ':' && startsBlank rest) || (inFlow && isFlowMark c) then some finished
        else
          plainScalar inFlow minColumn steps (c :: (gap.text ++ read)) (singleLine && !freshLine)
            (.blanks []) cur.next

/-- The character of so many hexadecimal digits, and what follows them. -/
def codeEscape? (width : Nat) (cs : List Char) : Option (Char × List Char) := do
  let digits := cs.take width
  if digits.length < width then none
  let n ← Scalar.natOfDigits? 16 digits
  if n.isValidChar then return (Char.ofNat n, cs.drop width) else none

/-- The character of an escape, from the one behind the backslash on. -/
def escape? : List Char → Option (Char × List Char)
  | '0' :: rest => some ('\x00', rest)
  | 'a' :: rest => some ('\x07', rest)
  | 'b' :: rest => some ('\x08', rest)
  | 't' :: rest => some ('\t', rest)
  | '\t' :: rest => some ('\t', rest)
  | 'n' :: rest => some ('\n', rest)
  | 'v' :: rest => some ('\x0b', rest)
  | 'f' :: rest => some ('\x0c', rest)
  | 'r' :: rest => some ('\r', rest)
  | 'e' :: rest => some ('\x1b', rest)
  | ' ' :: rest => some (' ', rest)
  | '"' :: rest => some ('"', rest)
  | '/' :: rest => some ('/', rest)
  | '\\' :: rest => some ('\\', rest)
  | 'N' :: rest => some ('\u0085', rest)
  | '_' :: rest => some ('\u00a0', rest)
  | 'L' :: rest => some ('\u2028', rest)
  | 'P' :: rest => some ('\u2029', rest)
  | 'x' :: rest => codeEscape? 2 rest
  | 'u' :: rest => codeEscape? 4 rest
  | 'U' :: rest => codeEscape? 8 rest
  | _ => none

/-- A scalar in quotes, from behind its opening quote on. Between single quotes a doubled quote
stands for one, between double quotes a backslash starts an escape. -/
def quotedScalar? (quote : Char) :
    Nat → List Char → Bool → Gap → Cursor → Option ScalarRead
  | 0, _, _, _, _ => none
  | steps + 1, read, singleLine, gap, cur =>
    let read' := gap.text ++ read
    let singleLine' := singleLine && !gap.isBroken
    match cur.rest with
    | [] => none
    | c :: rest =>
      if isBlank c || c = '\n' then
        quotedScalar? quote steps read singleLine (gap.extend c) cur.next
      else if cur.atSeparator then none
      else if c = quote then
        match rest with
        | d :: _ =>
          if quote = '\'' && d = '\'' then
            quotedScalar? quote steps ('\'' :: read') singleLine' (.blanks []) cur.next.next
          else
            some ⟨⟨String.ofList read'.reverse, false⟩, singleLine', false, cur.next⟩
        | [] => some ⟨⟨String.ofList read'.reverse, false⟩, singleLine', false, cur.next⟩
      else if quote = '"' && c = '\\' then
        match rest with
        | '\n' :: _ => quotedScalar? quote steps read' false (.escaped 0) cur.next.next
        | _ =>
          match escape? rest with
          | some (d, rest') =>
            let width := 1 + (rest.length - rest'.length)
            quotedScalar? quote steps (d :: read') singleLine' (.blanks [])
              ⟨rest', cur.column + width⟩
          | none => none
      else quotedScalar? quote steps (c :: read') singleLine' (.blanks []) cur.next

/-! ### Layout -/

/-- What decides how the next token is read. -/
structure Layout where
  /-- The columns of the block collections that are open, the innermost first. -/
  columns : List Nat := []
  /-- How many flow collections are open. -/
  flowDepth : Nat := 0
  /-- Whether a key or a dash may come next. -/
  keyAllowed : Bool := true

namespace Layout

/-- Whether a flow collection is open. -/
def inFlow (l : Layout) : Bool :=
  0 < l.flowDepth

/-- The least column at which the innermost block collection goes on in depth. -/
def innerColumn (l : Layout) : Nat :=
  match l.columns with
  | [] => 0
  | column :: _ => column + 1

/-- Whether what stands at a column has to be a key or a dash. -/
def demandsKey (l : Layout) (column : Nat) : Bool :=
  !l.inFlow && l.columns.head? == some column

/-- Finishes the block collections of columns beyond a given one. -/
def fallBack (l : Layout) (column : Nat) : List Token × Layout :=
  if l.inFlow then ([], l)
  else
    let deeper := l.columns.takeWhile fun c => decide (column < c)
    (deeper.map fun _ => .blockEnd, { l with columns := l.columns.drop deeper.length })

/-- Starts a block collection at a column, unless one of this column is open. -/
def reach (l : Layout) (column : Nat) (start : Token) : List Token × Layout :=
  if !l.inFlow && l.innerColumn ≤ column then
    ([start], { l with columns := column :: l.columns })
  else ([], l)

end Layout

/-- Skips blanks, comments and line breaks, and says whether a key may come next. A tab may not
indent anything. -/
def skipToToken (inFlow : Bool) : Nat → Bool → Cursor → Bool × Cursor
  | 0, keyAllowed, cur => (keyAllowed, cur)
  | steps + 1, keyAllowed, cur =>
    match cur.rest with
    | ' ' :: _ => skipToToken inFlow steps keyAllowed cur.next
    | '\t' :: _ =>
      if inFlow || !keyAllowed then skipToToken inFlow steps keyAllowed cur.next
      else (keyAllowed, cur)
    | '\n' :: _ => skipToToken inFlow steps (keyAllowed || !inFlow) cur.next
    | '#' :: rest =>
      skipToToken inFlow steps keyAllowed ⟨rest.dropWhile (· ≠ '\n'), cur.column⟩
    | _ => (keyAllowed, cur)

/-- A scalar or key, and the layout behind it. A key starts a block map at its column. -/
def placeScalar (l : Layout) (column : Nat) (s : ScalarRead) :
    Option (List Token × Layout × Cursor) :=
  let behind := s.cursor.skipBlanks
  if s.isSingleLine && !s.endsLine && behind.atColon l.inFlow then
    if l.keyAllowed then
      let (starts, l) := l.reach column .blockMap
      some (starts ++ [.key s.scalar], { l with keyAllowed := false }, behind.next)
    else none
  else if l.demandsKey column then none
  else some ([.scalar s.scalar], { l with keyAllowed := s.endsLine }, s.cursor)

/-- The tokens at a cursor that stands at the start of one, with the layout and the cursor behind
them. -/
def tokenAt? (l : Layout) (cur : Cursor) : Option (List Token × Layout × Cursor) :=
  let flowStart (t : Token) : Option (List Token × Layout × Cursor) :=
    if l.demandsKey cur.column then none
    else some ([t], { l with flowDepth := l.flowDepth + 1, keyAllowed := true }, cur.next)
  let flowEnd (t : Token) : Option (List Token × Layout × Cursor) :=
    some ([t], { l with flowDepth := l.flowDepth - 1, keyAllowed := false }, cur.next)
  match cur.rest with
  | '[' :: _ => flowStart .openList
  | '\x7b' :: _ => flowStart .openMap
  | ']' :: _ => flowEnd .closeList
  | '\x7d' :: _ => flowEnd .closeMap
  | ',' :: _ => some ([.comma], { l with keyAllowed := true }, cur.next)
  | '\'' :: rest =>
    (quotedScalar? '\'' (rest.length + 1) [] true (.blanks []) cur.next).bind
      (placeScalar l cur.column)
  | '"' :: rest =>
    (quotedScalar? '"' (rest.length + 1) [] true (.blanks []) cur.next).bind
      (placeScalar l cur.column)
  | c :: rest =>
    if c = '-' && startsBlank rest then
      if l.keyAllowed && !l.inFlow then
        let (starts, l) := l.reach cur.column .blockList
        some (starts ++ [.dash], l, cur.next)
      else none
    else if startsPlain l.inFlow (c :: rest) then
      (plainScalar l.inFlow l.innerColumn (rest.length + 2) [] true (.blanks []) cur).bind
        (placeScalar l cur.column)
    else none
  | [] => none

/-- The tokens from a cursor on. -/
def tokensFrom? : Nat → Layout → Cursor → Option (List Token)
  | 0, _, _ => none
  | steps + 1, l, cur =>
    let (keyAllowed, cur) := skipToToken l.inFlow cur.rest.length l.keyAllowed cur
    let l := { l with keyAllowed }
    if cur.rest.isEmpty then some (l.columns.map fun _ => .blockEnd)
    else if cur.atSeparator then
      let separator := if cur.rest.head? == some '-' then .documentStart else .documentEnd
      let ends := l.columns.map fun _ => Token.blockEnd
      let l := { l with columns := [], keyAllowed := false }
      (tokensFrom? steps l ⟨cur.rest.drop 3, 3⟩).map fun ts => ends ++ separator :: ts
    else do
      let (ends, l) := l.fallBack cur.column
      let (ts, l, cur) ← tokenAt? l cur
      let more ← tokensFrom? steps l cur
      return ends ++ ts ++ more

/-- The tokens of a text. -/
def tokens? (text : String) : Option (List Token) :=
  let cs := text.toList
  if cs.all isPrintable then
    let cs := unifyBreaks cs
    tokensFrom? (cs.length + 1) {} ⟨cs, 0⟩
  else none

end ChargeScreening.Yaml
