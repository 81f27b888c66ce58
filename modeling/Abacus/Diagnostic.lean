import Abacus.Token.Basic

/-!
# Diagnostics

A diagnostic is a fault of the source text.  The scanner finds the lexical
ones and the grammar the others.  Neither stops at a fault, so that one run
tells the user about all of them.
-/

namespace Abacus

/-- A fault of the source text, at a byte offset. -/
inductive Diagnostic where
  /-- A character that starts no token. -/
  | invalidCharacter (character : Char) (position : Nat)
  /-- A literal without a value.  The text is the whole source. -/
  | invalidNumber (text : String) (position : Nat)
  /-- A token of another kind than the grammar asks for. -/
  | unexpectedToken (actual expected : Token.Kind) (position : Nat)
  /-- Groups or chains of operators that go past the nesting limit. -/
  | nestingTooDeep (limit : Nat) (position : Nat)
deriving DecidableEq

namespace Diagnostic

/-- The byte offset that a diagnostic points at. -/
def position : Diagnostic → Nat
  | .invalidCharacter _ position => position
  | .invalidNumber _ position => position
  | .unexpectedToken _ _ position => position
  | .nestingTooDeep _ position => position

/-- Whether a diagnostic comes from the scanner. -/
def isLexical : Diagnostic → Bool
  | .invalidCharacter _ _ => true
  | .invalidNumber _ _ => true
  | .unexpectedToken _ _ _ => false
  | .nestingTooDeep _ _ => false

/-- What the user is told. -/
def message : Diagnostic → String
  | .invalidCharacter character _ =>
      "ERROR: Invalid character in input: '" ++
        String.singleton character ++ "'"
  | .invalidNumber text _ =>
      "The number " ++ text ++ " is not a valid Int32."
  | .unexpectedToken actual expected _ =>
      "ERROR: Unexpected token<" ++ actual.name ++
        ">, expected <" ++ expected.name ++ ">"
  | .nestingTooDeep limit _ =>
      "ERROR: Expression is nested too deeply, the limit is " ++
        toString limit ++ " levels"

/-- The messages of some diagnostics, one on each line. -/
def joinedMessages (diagnostics : List Diagnostic) : String :=
  "\n".intercalate (diagnostics.map message)

end Diagnostic

end Abacus
