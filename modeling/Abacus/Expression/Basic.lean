import Abacus.Token.Basic

/-!
# Expressions

An expression is a number, two expressions joined by an operator, or an
expression in parentheses.  It keeps every token that it was read from, so it
knows its text and can be pointed at.
-/

namespace Abacus

/-- An arithmetic expression with all its tokens. -/
inductive Expression where
  /-- A number literal. -/
  | number (literal : Token)
  /-- Two operands joined by an operator. -/
  | binary (left : Expression) (operator : Token) (right : Expression)
  /-- An expression in parentheses. -/
  | parenthesized (opening : Token) (inner : Expression) (closing : Token)
deriving DecidableEq

namespace Expression

/-- The tokens of an expression, from left to right. -/
def tokens : Expression → List Token
  | .number literal => [literal]
  | .binary left operator right =>
      left.tokens ++ operator :: right.tokens
  | .parenthesized opening inner closing =>
      opening :: inner.tokens ++ [closing]

/-- The number of expressions on the longest way down to a number. -/
def height : Expression → Nat
  | .number _ => 1
  | .binary left _ right => max left.height right.height + 1
  | .parenthesized _ inner _ => inner.height + 1

/-- The greatest number of groups around any part of an expression. -/
def groupDepth : Expression → Nat
  | .number _ => 0
  | .binary left _ right => max left.groupDepth right.groupDepth
  | .parenthesized _ inner _ => inner.groupDepth + 1

theorem height_pos (expression : Expression) : 0 < expression.height := by
  cases expression <;> simp [height]

theorem groupDepth_lt_height
    (expression : Expression) :
    expression.groupDepth < expression.height := by
  induction expression with
  | number literal => simp [groupDepth, height]
  | binary left operator right leftBound rightBound =>
      simp only [groupDepth, height]
      omega
  | parenthesized opening inner closing bound =>
      simp only [groupDepth, height]
      omega

end Expression

end Abacus
