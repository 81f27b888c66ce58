import Abacus.Text.Blank

/-!
# Kinds of token

Ten kinds of token make up a source text and its end.  The first character of
a token decides its kind, and the kind decides which further characters belong
to the same token: a number takes all the digits that follow, a stretch of
blanks takes all the blanks, and every other token is one character long.
-/

namespace Abacus

/-- What a token is. -/
inductive Token.Kind where
  | number
  | whitespace
  | plus
  | minus
  | star
  | slash
  | openParen
  | closeParen
  | invalid
  | endOfFile
deriving DecidableEq

namespace Token.Kind

/-- All kinds, in the order in which they are listed to users. -/
def all : List Token.Kind :=
  [.number, .whitespace, .plus, .minus, .star, .slash,
   .openParen, .closeParen, .invalid, .endOfFile]

theorem mem_all (kind : Token.Kind) : kind ∈ all := by
  cases kind <;> decide

/-- The name of a kind in messages and drawings. -/
def name : Token.Kind → String
  | .number => "Number"
  | .whitespace => "Whitespace"
  | .plus => "Plus"
  | .minus => "Minus"
  | .star => "Star"
  | .slash => "Slash"
  | .openParen => "OpenParen"
  | .closeParen => "CloseParen"
  | .invalid => "Invalid"
  | .endOfFile => "EndOfFile"

/-- The kind of the token that starts with a character. -/
def ofChar (character : Char) : Token.Kind :=
  if character.isDigit then .number
  else if Text.isBlank character then .whitespace
  else if character = '+' then .plus
  else if character = '-' then .minus
  else if character = '*' then .star
  else if character = '/' then .slash
  else if character = '(' then .openParen
  else if character = ')' then .closeParen
  else .invalid

/-- Whether a token of this kind goes on with a character. -/
def continuesWith : Token.Kind → Char → Bool
  | .number, character => character.isDigit
  | .whitespace, character => Text.isBlank character
  | _, _ => false

/--
Whether tokens of this kind reach the grammar.  Blanks only separate tokens,
and invalid characters have been complained about already.
-/
def isSignificant : Token.Kind → Bool
  | .whitespace => false
  | .invalid => false
  | _ => true

end Token.Kind

end Abacus
