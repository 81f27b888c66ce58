import Abacus.Expression.Basic
import Abacus.Word

/-!
# Values of expressions

The operands of an operator are valued from left to right, and then the
operator is applied to them.  The first failure in this order is the failure
of the whole expression, and it points at the token that caused it.
-/

namespace Abacus

/-- Why an expression has no value. -/
inductive ValueError where
  /-- A division by zero, by the operator at a position. -/
  | divisionByZero (position : Nat)
  /-- A result that is no word, of the operator at a position. -/
  | overflow (position : Nat)
  /-- A number token without a value. -/
  | missingValue (position : Nat)
  /-- A token between two operands that is no operator. -/
  | unexpectedOperator (kind : Token.Kind)
deriving DecidableEq

namespace ValueError

/-- What the user is told. -/
def message : ValueError → String
  | .divisionByZero position =>
      "Error at position " ++ toString position ++
        ": Division by zero."
  | .overflow position =>
      "Error at position " ++ toString position ++
        ": Integer overflow while trying to compute result."
  | .missingValue position =>
      "Error at position " ++ toString position ++
        ": Number has no value."
  | .unexpectedOperator kind =>
      "internal error: entered unreachable code: " ++
        "Unexpected binary operator " ++ kind.name ++ "."

/-- The byte offset that a failure points at, if it points at any. -/
def position? : ValueError → Option Nat
  | .divisionByZero position => some position
  | .overflow position => some position
  | .missingValue position => some position
  | .unexpectedOperator _ => none

end ValueError

/-- An exact result as a word.  It overflows if it is out of range. -/
def Token.checked
    (operator : Token)
    (result : Int) :
    Except ValueError Int32 :=
  match Word.ofInt? result with
  | some word => .ok word
  | none => .error (.overflow operator.position)

/--
Applies an operator to two words.  Division drops the fractional part of the
quotient, so it rounds toward zero.
-/
def Token.apply
    (operator : Token)
    (left right : Int32) :
    Except ValueError Int32 :=
  match operator.kind with
  | .plus => operator.checked (left.toInt + right.toInt)
  | .minus => operator.checked (left.toInt - right.toInt)
  | .star => operator.checked (left.toInt * right.toInt)
  | .slash =>
      if right = 0 then
        .error (.divisionByZero operator.position)
      else
        operator.checked (left.toInt.tdiv right.toInt)
  | kind => .error (.unexpectedOperator kind)

/-- The value of an expression, or the first failure on the way to it. -/
def Expression.value : Expression → Except ValueError Int32
  | .number literal =>
      match literal.value with
      | some word => .ok word
      | none => .error (.missingValue literal.position)
  | .binary left operator right =>
      match left.value with
      | .error failure => .error failure
      | .ok leftValue =>
          match right.value with
          | .error failure => .error failure
          | .ok rightValue => operator.apply leftValue rightValue
  | .parenthesized _ inner _ => inner.value

end Abacus
