import ChargeScreening.Decimal.Notation

/-!
# Tokens of rule text

## Main definitions

* `TokenKind`: the kinds of tokens, with `TokenKind.shown` for messages
* `Token`: a kind and the byte offset at which it starts
-/

namespace ChargeScreening

/-- The operators and connectives that are written with symbols. -/
inductive Symbol where
  | equal
  | unequal
  | atMost
  | atLeast
  | both
  | either
  | below
  | above
deriving DecidableEq, Repr

namespace Symbol

/-- The characters of the symbol. -/
def spelling : Symbol → String
  | .equal => "=="
  | .unequal => "!="
  | .atMost => "<="
  | .atLeast => ">="
  | .both => "&&"
  | .either => "||"
  | .below => "<"
  | .above => ">"

end Symbol

/-- What a token is. -/
inductive TokenKind where
  /-- A bare word: a path, a keyword or the name of a formula operation. -/
  | word (text : String)
  | number (x : Float)
  /-- The content of a quoted text, escapes resolved. -/
  | quoted (text : String)
  | symbol (s : Symbol)
  | leftBracket
  | rightBracket
  | leftParen
  | rightParen
  | comma
deriving DecidableEq

/-- The token as messages show it. Quotes inside a quoted text are not escaped. -/
def TokenKind.shown : TokenKind → String
  | .word text => text
  | .number x => Decimal.plainText x
  | .quoted text => "\"" ++ text ++ "\""
  | .symbol s => s.spelling
  | .leftBracket => "["
  | .rightBracket => "]"
  | .leftParen => "("
  | .rightParen => ")"
  | .comma => ","

/-- A token and the byte offset at which it starts. -/
structure Token where
  kind : TokenKind
  position : Nat
deriving DecidableEq

end ChargeScreening
