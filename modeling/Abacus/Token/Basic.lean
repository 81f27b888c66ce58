import Abacus.Token.Kind

/-!
# Tokens

A token is a piece of the source text together with its kind and the byte
offset of its first character.  Number tokens also carry their value, if their
digits denote a word.

Two tokens are not pieces of a text.  The *end of file* follows the last
piece, and a *missing* token stands in the tree where the grammar asks for a
token that the source does not have; it is recognised by its empty text.
-/

namespace Abacus

/-- A token of the source text, or one that stands for such a token. -/
structure Token where
  /-- What the token is. -/
  kind : Token.Kind
  /-- The byte offset of the token's first character in the source. -/
  position : Nat
  /-- The characters of the token. -/
  text : String
  /-- The value of a number token. -/
  value : Option Int32
deriving DecidableEq

namespace Token

/-- A token without a value. -/
def plain (kind : Token.Kind) (position : Nat) (text : String) : Token :=
  { kind, position, text, value := none }

/-- A number token, whose value is absent if it is too great for a word. -/
def number
    (position : Nat)
    (text : String)
    (value : Option Int32) :
    Token :=
  { kind := .number, position, text, value }

/-- The text of the token that ends every source. -/
def endOfFileText : String := "\x00"

/-- The token that ends a source, at the byte offset of that end. -/
def endOfFile (position : Nat) : Token :=
  plain .endOfFile position endOfFileText

/-- A token that the grammar asks for and the source does not have. -/
def missing (kind : Token.Kind) (position : Nat) : Token :=
  plain kind position ""

/-- Whether a token stands for one that the source does not have. -/
def isMissing (token : Token) : Bool :=
  token.text.isEmpty

@[simp]
theorem endOfFile_kind
    (position : Nat) :
    (endOfFile position).kind = .endOfFile := rfl

@[simp]
theorem endOfFile_position
    (position : Nat) :
    (endOfFile position).position = position := rfl

@[simp]
theorem missing_kind
    (kind : Token.Kind)
    (position : Nat) :
    (missing kind position).kind = kind := rfl

@[simp]
theorem missing_position
    (kind : Token.Kind)
    (position : Nat) :
    (missing kind position).position = position := rfl

@[simp]
theorem isMissing_missing
    (kind : Token.Kind)
    (position : Nat) :
    (missing kind position).isMissing = true := rfl

@[simp]
theorem isMissing_endOfFile
    (position : Nat) :
    (endOfFile position).isMissing = false := rfl

/-- The texts of some tokens, one after the other. -/
def texts (tokens : List Token) : String :=
  String.join (tokens.map Token.text)

end Token

end Abacus
