import Abacus.Token.Kind

/-!
# Ranks of the grammar

The grammar has three ranks, from the loosest to the tightest:

* a *term* is a chain of factors joined by `+` and `-`;
* a *factor* is a chain of primaries joined by `*` and `/`;
* a *primary* is a number or a term in parentheses.

A chain is read from left to right and leans to the left.  A whole line is one
term.
-/

namespace Abacus.Grammar

/-- How tightly the parts of an expression hold together. -/
inductive Rank where
  | term
  | factor
  | primary
deriving DecidableEq

namespace Rank

/-- The rank of the operands in a chain.  A primary is no chain. -/
def operand : Rank → Rank
  | .term => .factor
  | .factor => .primary
  | .primary => .primary

/-- Whether the chains of a rank are joined by tokens of a kind. -/
def isJoinedBy : Rank → Token.Kind → Bool
  | .term, .plus => true
  | .term, .minus => true
  | .factor, .star => true
  | .factor, .slash => true
  | _, _ => false

/-- How many ranks there are from this one down. -/
def level : Rank → Nat
  | .term => 3
  | .factor => 2
  | .primary => 1

theorem level_le (rank : Rank) : rank.level ≤ 3 := by
  cases rank <;> decide

@[simp]
theorem isJoinedBy_endOfFile
    (rank : Rank) :
    rank.isJoinedBy .endOfFile = false := by
  cases rank <;> rfl

@[simp]
theorem isJoinedBy_primary
    (kind : Token.Kind) :
    Rank.primary.isJoinedBy kind = false := by
  cases kind <;> rfl

end Rank

end Abacus.Grammar
