import Abacus.Expression.Basic
import Abacus.Grammar.Cursor
import Abacus.Grammar.Rank

/-!
# Reading expressions

An expression of some rank is read from the front of a cursor by descending
through the ranks.  Reading never fails: where a token is not the expected
one, a missing token stands in and the fault is reported, so there always is
an expression and a place after it.

Two rules keep expressions shallow under a nesting limit.  A group that would
be one too many is skipped whole, with a missing number in its place.  A link
that would make a chain too tall is dropped together with its right operand.

`read` and `readChain` are what the rest of the library uses, and their
equations (`read_term`, `read_factor`, `read_group`, `read_skipped`,
`read_number`, `readChain_link`, `readChain_stop`) are all there is to know
about them.  The definitions behind them carry the proof that reading leaves
no more tokens than there were, on which their termination rests.
-/

namespace Abacus.Grammar

/-- An expression that was read, and the place after it. -/
structure Parsed where
  /-- The expression. -/
  expression : Expression
  /-- The height of the expression. -/
  height : Nat
  /-- The place after the expression. -/
  cursor : Cursor

namespace Parsed

/-- The number at a cursor, or a missing one. -/
def literal (cursor : Cursor) : Parsed :=
  let literal := cursor.expect .number
  { expression := .number literal.1
    height := 1
    cursor := literal.2 }

/-- A missing number for a group that crosses the nesting limit. -/
def skipped (bound : Nat) (cursor : Cursor) : Parsed :=
  let opening := cursor.current
  { expression := .number (Token.missing .number opening.position)
    height := 1
    cursor := (cursor.cross bound opening).skipGroup }

/--
Joins two operands, of which the second was read last.  If the result would
be taller than the limit allows, the first operand stays alone.
-/
def link
    (limit : Limit)
    (left : Parsed)
    (operator : Token)
    (right : Parsed) :
    Parsed :=
  let height := max left.height right.height + 1
  match limit.exceededBy? height with
  | some bound =>
      { left with cursor := right.cursor.cross bound operator }
  | none =>
      { expression :=
          .binary left.expression operator right.expression
        height
        cursor := right.cursor }

/-- Puts an expression that was read between parentheses. -/
def enclose (opening : Token) (inner : Parsed) : Parsed :=
  let closing := inner.cursor.leaveGroup.expect .closeParen
  { expression :=
      .parenthesized opening inner.expression closing.1
    height := inner.height + 1
    cursor := closing.2 }

@[simp]
theorem rest_link
    (limit : Limit)
    (left : Parsed)
    (operator : Token)
    (right : Parsed) :
    (link limit left operator right).cursor.rest =
      right.cursor.rest := by
  unfold link
  dsimp only
  split <;> rfl

theorem length_rest_literal_le
    (cursor : Cursor) :
    (literal cursor).cursor.rest.length ≤ cursor.rest.length :=
  Cursor.length_rest_expect_le cursor .number

theorem length_rest_skipped_le
    (bound : Nat)
    (cursor : Cursor) :
    (skipped bound cursor).cursor.rest.length ≤
      cursor.rest.length :=
  Cursor.length_rest_skipGroup_le
    (cursor.cross bound cursor.current)

theorem length_rest_enclose_le
    (opening : Token)
    (inner : Parsed) :
    (enclose opening inner).cursor.rest.length ≤
      inner.cursor.rest.length :=
  Cursor.length_rest_expect_le inner.cursor.leaveGroup .closeParen

end Parsed

/-- An expression that was read leaving at most so many tokens. -/
abbrev ParsedWithin (tokens : Nat) :=
  { parsed : Parsed // parsed.cursor.rest.length ≤ tokens }

mutual

/-- Reads an expression of a rank. -/
def readWithin
    (limit : Limit)
    (rank : Rank)
    (cursor : Cursor) :
    ParsedWithin cursor.rest.length :=
  match rank with
  | .term =>
      let ⟨first, firstLe⟩ := readWithin limit .factor cursor
      let ⟨chain, chainLe⟩ := readChainWithin limit .term first
      ⟨chain, Nat.le_trans chainLe firstLe⟩
  | .factor =>
      let ⟨first, firstLe⟩ := readWithin limit .primary cursor
      let ⟨chain, chainLe⟩ := readChainWithin limit .factor first
      ⟨chain, Nat.le_trans chainLe firstLe⟩
  | .primary =>
      if opens : cursor.current.kind = .openParen then
        match limit.exceededBy? (cursor.depth + 1) with
        | some bound =>
            ⟨.skipped bound cursor,
              Parsed.length_rest_skipped_le bound cursor⟩
        | none =>
            have fewer :
                cursor.advance.rest.length < cursor.rest.length :=
              Cursor.length_rest_advance_lt (by simp [opens])
            let ⟨inner, innerLe⟩ :=
              readWithin limit .term cursor.advance.enterGroup
            ⟨.enclose cursor.current inner,
              Nat.le_trans
                (Parsed.length_rest_enclose_le _ inner)
                (Nat.le_trans innerLe (Nat.le_of_lt fewer))⟩
      else
        ⟨.literal cursor, Parsed.length_rest_literal_le cursor⟩
termination_by 4 * cursor.rest.length + rank.level
decreasing_by
  all_goals simp only [Rank.level, Cursor.rest_enterGroup]
  all_goals omega

/-- Reads the links of a chain behind the part that was read already. -/
def readChainWithin
    (limit : Limit)
    (rank : Rank)
    (left : Parsed) :
    ParsedWithin left.cursor.rest.length :=
  if joins : rank.isJoinedBy left.cursor.current.kind = true then
    have fewer :
        left.cursor.advance.rest.length <
          left.cursor.rest.length :=
      Cursor.length_rest_advance_lt (by
        intro finished
        simp [finished] at joins)
    let ⟨right, rightLe⟩ :=
      readWithin limit rank.operand left.cursor.advance
    let linked := Parsed.link limit left left.cursor.current right
    have linkedLe :
        linked.cursor.rest.length ≤
          left.cursor.advance.rest.length := by
      rw [Parsed.rest_link]
      exact rightLe
    let ⟨chain, chainLe⟩ := readChainWithin limit rank linked
    ⟨chain,
      Nat.le_trans chainLe
        (Nat.le_trans linkedLe (Nat.le_of_lt fewer))⟩
  else
    ⟨left, Nat.le_refl _⟩
termination_by 4 * left.cursor.rest.length
decreasing_by
  · have bound := rank.operand.level_le
    omega
  · rw [Parsed.rest_link]
    omega

end

/-- Reads an expression of a rank from the front of a cursor. -/
def read
    (limit : Limit)
    (rank : Rank)
    (cursor : Cursor) :
    Parsed :=
  (readWithin limit rank cursor).val

/--
Reads the links of a chain of a rank, behind the part of the chain that was
read already.
-/
def readChain
    (limit : Limit)
    (rank : Rank)
    (left : Parsed) :
    Parsed :=
  (readChainWithin limit rank left).val

/-! ## Equations -/

/-- A term is a chain of factors. -/
theorem read_term
    (limit : Limit)
    (cursor : Cursor) :
    read limit .term cursor =
      readChain limit .term (read limit .factor cursor) := by
  unfold read
  rw [readWithin]
  rfl

/-- A factor is a chain of primaries. -/
theorem read_factor
    (limit : Limit)
    (cursor : Cursor) :
    read limit .factor cursor =
      readChain limit .factor (read limit .primary cursor) := by
  unfold read
  rw [readWithin]
  rfl

/-- A primary that opens no group is a number. -/
theorem read_number
    (limit : Limit)
    {cursor : Cursor}
    (closed : cursor.current.kind ≠ .openParen) :
    read limit .primary cursor = .literal cursor := by
  unfold read
  rw [readWithin, dif_neg closed]

/-- A group past the limit is skipped. -/
theorem read_skipped
    {limit : Limit}
    {cursor : Cursor}
    {bound : Nat}
    (opens : cursor.current.kind = .openParen)
    (exceeded :
      limit.exceededBy? (cursor.depth + 1) = some bound) :
    read limit .primary cursor = .skipped bound cursor := by
  unfold read
  rw [readWithin, dif_pos opens]
  split
  case h_1 other same =>
    rw [exceeded] at same
    rw [Option.some.inj same]
  case h_2 same =>
    rw [exceeded] at same
    contradiction

/-- A group within the limit is a term between parentheses. -/
theorem read_group
    {limit : Limit}
    {cursor : Cursor}
    (opens : cursor.current.kind = .openParen)
    (within : limit.exceededBy? (cursor.depth + 1) = none) :
    read limit .primary cursor =
      .enclose cursor.current
        (read limit .term cursor.advance.enterGroup) := by
  conv => lhs; rw [read, readWithin, dif_pos opens]
  split
  case h_1 other same =>
    rw [within] at same
    contradiction
  case h_2 => rfl

/-- A chain goes on as long as tokens join its rank. -/
theorem readChain_link
    (limit : Limit)
    {rank : Rank}
    {left : Parsed}
    (joins : rank.isJoinedBy left.cursor.current.kind = true) :
    readChain limit rank left =
      readChain limit rank
        (.link limit left left.cursor.current
          (read limit rank.operand left.cursor.advance)) := by
  conv => lhs; rw [readChain, readChainWithin, dif_pos joins]
  rfl

/-- A chain ends at the first token that does not join its rank. -/
theorem readChain_stop
    (limit : Limit)
    {rank : Rank}
    {left : Parsed}
    (stops : rank.isJoinedBy left.cursor.current.kind = false) :
    readChain limit rank left = left := by
  unfold readChain
  rw [readChainWithin, dif_neg (by simp [stops])]

/-! ## Progress -/

/-- Reading an expression leaves no more tokens than there were. -/
theorem length_rest_read_le
    (limit : Limit)
    (rank : Rank)
    (cursor : Cursor) :
    (read limit rank cursor).cursor.rest.length ≤
      cursor.rest.length :=
  (readWithin limit rank cursor).property

/-- Reading links leaves no more tokens than there were. -/
theorem length_rest_readChain_le
    (limit : Limit)
    (rank : Rank)
    (left : Parsed) :
    (readChain limit rank left).cursor.rest.length ≤
      left.cursor.rest.length :=
  (readChainWithin limit rank left).property

end Abacus.Grammar
