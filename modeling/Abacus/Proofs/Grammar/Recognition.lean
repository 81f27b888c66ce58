import Abacus.Proofs.Grammar.Reading
import Abacus.Proofs.Grammar.Sentence

/-!
# What a reading recognises

Whatever is read at a rank is an expression of that rank, also where tokens are
missing or the nesting limit is crossed.  Without a limit, reading and the
grammar agree in both directions:

* a reading that adds no fault has taken exactly the tokens of what it read;
* in front of the tokens of an expression, what is read is that expression,
  provided the token behind it does not carry on one of its operands.

An expression of a rank is therefore known from its tokens alone.
-/

namespace Abacus.Grammar

variable {limit : Limit}

/-! ## Ranks -/

/-- No chain goes on at the end of file. -/
theorem Rank.ne_endOfFile_of_isJoinedBy
    {rank : Rank}
    {kind : Token.Kind}
    (joins : rank.isJoinedBy kind = true) :
    kind ≠ .endOfFile := by
  rintro rfl
  simp at joins

/-- A token that is asked for is of the kind that is asked for. -/
@[simp]
theorem Cursor.kind_expect
    (cursor : Cursor)
    (expected : Token.Kind) :
    (cursor.expect expected).1.kind = expected := by
  rcases cursor.expect_cases expected with ⟨found, taken⟩ | ⟨_, absent⟩
  · rw [taken]
    exact found
  · rw [absent]
    rfl

theorem Parsed.hasRank_link
    {rank : Rank}
    {left right : Parsed}
    {operator : Token}
    (leftRanked : left.expression.HasRank rank)
    (joins : rank.isJoinedBy operator.kind = true)
    (rightRanked : right.expression.HasRank rank.operand)
    (limit : Limit) :
    (link limit left operator right).expression.HasRank rank := by
  rcases link_cases limit left operator right with
    joined | ⟨bound, crossed⟩
  · rw [joined]
    exact .chain leftRanked joins rightRanked
  · rw [crossed]
    exact leftRanked

/-- What is read at a rank is an expression of that rank. -/
theorem hasRank_reading (limit : Limit) :
    (∀ rank cursor,
      (read limit rank cursor).expression.HasRank rank) ∧
      ∀ rank (left : Parsed),
        left.expression.HasRank rank →
          (readChain limit rank left).expression.HasRank rank := by
  apply reading_induction
  constructor
  case chain =>
    intro rank cursor first chain
    rw [read_eq_readChain]
    exact chain (.operand first)
  case number =>
    intro cursor closed
    rw [read_number limit closed]
    exact .number (cursor.kind_expect .number)
  case skipped =>
    intro cursor bound opens exceeded
    rw [read_skipped opens exceeded]
    exact .number rfl
  case group =>
    intro cursor opens within inner
    rw [read_group opens within]
    exact
      .parenthesized opens inner (Cursor.kind_expect _ .closeParen)
  case link =>
    intro rank left joins right chain ranked
    rw [readChain_link limit joins]
    exact chain (Parsed.hasRank_link ranked joins right limit)
  case stop =>
    intro rank left stops ranked
    rw [readChain_stop limit stops]
    exact ranked

theorem hasRank_read
    (limit : Limit)
    (rank : Rank)
    (cursor : Cursor) :
    (read limit rank cursor).expression.HasRank rank :=
  (hasRank_reading limit).1 rank cursor

/-! ## Tokens of a faultless reading -/

/-- Before the end of file, the current token is the first that is left. -/
theorem Cursor.rest_eq_current_cons
    (cursor : Cursor)
    (unfinished : cursor.current.kind ≠ .endOfFile) :
    cursor.rest = cursor.current :: cursor.advance.rest := by
  have nonempty := Cursor.rest_ne_nil_of_kind_ne unfinished
  unfold current advance
  match shape : cursor.rest with
  | [] => contradiction
  | token :: others => rfl

/-- A token that is asked for is taken unless a fault is added. -/
theorem Cursor.expect_of_faults_eq
    {cursor : Cursor}
    {expected : Token.Kind}
    (same : (cursor.expect expected).2.faults = cursor.faults) :
    cursor.current.kind = expected ∧
      cursor.expect expected = (cursor.current, cursor.advance) := by
  rcases cursor.expect_cases expected with taken | ⟨_, absent⟩
  · exact taken
  · rw [absent] at same
    exact (List.cons_ne_self _ _ same).elim

/-- A faultless unlimited reading takes exactly the tokens of what it reads. -/
theorem tokens_of_faults_eq :
    (∀ rank (cursor : Cursor),
      (read none rank cursor).cursor.faults = cursor.faults →
        cursor.rest =
          (read none rank cursor).expression.tokens ++
            (read none rank cursor).cursor.rest) ∧
      ∀ rank (left : Parsed),
        left.IsMeasured →
          (readChain none rank left).cursor.faults =
              left.cursor.faults →
            left.expression.tokens ++ left.cursor.rest =
              (readChain none rank left).expression.tokens ++
                (readChain none rank left).cursor.rest := by
  apply reading_induction
  constructor
  case chain =>
    intro rank cursor first chain same
    have followed := follows_read none rank.operand cursor
    have chained := follows_readChain none rank followed.measured
    rw [read_eq_readChain] at same ⊢
    rcases followed.precedes.faults_eq chained.precedes same with
      ⟨firstSame, chainSame⟩
    rw [← chain followed.measured chainSame]
    exact first firstSame
  case number =>
    intro cursor closed same
    rw [read_number none closed] at same ⊢
    rcases Cursor.expect_of_faults_eq same with ⟨found, taken⟩
    simp only [Parsed.literal, taken, Expression.tokens]
    exact cursor.rest_eq_current_cons (by simp [found])
  case skipped =>
    intro cursor bound opens exceeded
    contradiction
  case group =>
    intro cursor opens within inner same
    rw [read_group opens within] at same ⊢
    obtain ⟨innerSame, closingSame⟩ :=
      (follows_read none .term
        cursor.advance.enterGroup).precedes.faults_eq
          (Parsed.precedes_enclose cursor.current _) same
    rcases Cursor.expect_of_faults_eq closingSame with ⟨found, taken⟩
    have closing :=
      (read none .term
        cursor.advance.enterGroup).cursor.leaveGroup.rest_eq_current_cons
        (by simp [found])
    have opening := cursor.rest_eq_current_cons (by simp [opens])
    have inside := inner innerSame
    simp only [Cursor.rest_enterGroup, Cursor.rest_leaveGroup]
      at inside closing
    rw [opening, inside, closing]
    simp [Parsed.enclose, taken, Expression.tokens]
  case link =>
    intro rank left joins right chain measured same
    have followed :=
      follows_read none rank.operand left.cursor.advance
    have linkedMeasured :=
      measured.link followed.measured none left.cursor.current
    rw [readChain_link none joins] at same ⊢
    obtain ⟨rightSame, chainSame⟩ :=
      followed.precedes.faults_eq
        (follows_readChain none rank linkedMeasured).precedes same
    have operator :=
      left.cursor.rest_eq_current_cons (by
        intro finished
        simp [finished] at joins)
    rw [← chain linkedMeasured chainSame, operator,
      right rightSame]
    simp [Parsed.link, Expression.tokens]
  case stop =>
    intro rank left stops _ _
    rw [readChain_stop none stops]

/-! ## Reading the tokens of an expression -/

/-- The same place, with other tokens behind it. -/
def Cursor.moveTo (cursor : Cursor) (rest : List Token) : Cursor :=
  { cursor with rest }

theorem Cursor.current_of_rest_eq_cons
    {cursor : Cursor}
    {token : Token}
    {others : List Token}
    (shape : cursor.rest = token :: others) :
    cursor.current = token := by
  simp [current, shape]

theorem Cursor.advance_of_rest_eq_cons
    {cursor : Cursor}
    {token : Token}
    {others : List Token}
    (shape : cursor.rest = token :: others) :
    cursor.advance = cursor.moveTo others := by
  simp [advance, moveTo, shape]

theorem Cursor.expect_of_rest_eq_cons
    {cursor : Cursor}
    {token : Token}
    {others : List Token}
    (shape : cursor.rest = token :: others) :
    cursor.expect token.kind = (token, cursor.moveTo others) := by
  rw [expect, current_of_rest_eq_cons shape,
    advance_of_rest_eq_cons shape]
  exact if_pos rfl

namespace Parsed

/-- An expression that was read from a cursor, up to some tokens. -/
def upTo
    (expression : Expression)
    (cursor : Cursor)
    (rest : List Token) :
    Parsed :=
  { expression
    height := expression.height
    cursor := cursor.moveTo rest }

end Parsed

/-- An operator joins the chains of one rank only. -/
theorem Rank.isJoinedBy_operand_of_isJoinedBy
    {rank : Rank}
    {kind : Token.Kind}
    (joins : rank.isJoinedBy kind = true) :
    rank.operand.isJoinedBy kind = false := by
  revert joins
  cases rank <;> cases kind <;> decide

theorem Rank.isJoinedBy_operand_operand
    (rank : Rank)
    (kind : Token.Kind) :
    rank.operand.operand.isJoinedBy kind = false := by
  cases rank <;> exact Rank.isJoinedBy_primary kind

theorem Rank.isJoinedBy_of_closeParen
    (rank : Rank)
    {kind : Token.Kind}
    (closes : kind = .closeParen) :
    rank.isJoinedBy kind = false := by
  rw [closes]
  cases rank <;> rfl

theorem read_number_upTo
    {literal : Token}
    (isNumber : literal.kind = .number)
    {cursor : Cursor}
    {rest : List Token}
    (shape : cursor.rest = literal :: rest) :
    read none .primary cursor =
      .upTo (.number literal) cursor rest := by
  have current := Cursor.current_of_rest_eq_cons shape
  have taken := Cursor.expect_of_rest_eq_cons shape
  rw [isNumber] at taken
  rw [read_number none (by simp [current, isNumber])]
  simp only [Parsed.literal, taken]
  rfl

/-- A group is read if the term inside is read up to the closing parenthesis. -/
theorem read_group_upTo
    {opening closing : Token}
    {inner : Expression}
    (opens : opening.kind = .openParen)
    (closes : closing.kind = .closeParen)
    {cursor : Cursor}
    {others rest : List Token}
    (shape : cursor.rest = opening :: others)
    (inside :
      read none .term (cursor.moveTo others).enterGroup =
        .upTo inner (cursor.moveTo others).enterGroup
          (closing :: rest)) :
    read none .primary cursor =
      .upTo (.parenthesized opening inner closing) cursor rest := by
  have current := Cursor.current_of_rest_eq_cons shape
  have taken :
      (Parsed.upTo inner (cursor.moveTo others).enterGroup
          (closing :: rest)).cursor.leaveGroup.expect .closeParen =
        (closing, cursor.moveTo rest) := by
    rw [← closes]
    exact Cursor.expect_of_rest_eq_cons rfl
  rw [read_group (by rw [current, opens]) rfl,
    Cursor.advance_of_rest_eq_cons shape, inside, current]
  simp only [Parsed.enclose, taken]
  rfl

/-- A chain goes on behind an operator if the operand there is read. -/
theorem readChain_upTo_link
    {rank : Rank}
    {left right : Expression}
    {operator : Token}
    (joins : rank.isJoinedBy operator.kind = true)
    {cursor : Cursor}
    {others rest : List Token}
    (operand :
      read none rank.operand (cursor.moveTo others) =
        .upTo right (cursor.moveTo others) rest) :
    readChain none rank (.upTo left cursor (operator :: others)) =
      readChain none rank
        (.upTo (.binary left operator right) cursor rest) := by
  have shape :
      (Parsed.upTo left cursor (operator :: others)).cursor.rest =
        operator :: others := rfl
  have current := Cursor.current_of_rest_eq_cons shape
  have advanced := Cursor.advance_of_rest_eq_cons shape
  have behind :
      (Parsed.upTo left cursor (operator :: others)).cursor.moveTo
          others =
        cursor.moveTo others := rfl
  rw [readChain_link none (by rw [current, joins]), current, advanced,
    behind, operand]
  rfl

/--
In front of the tokens of an expression, what is read begins with that
expression.  It may go on with further links of the same rank, unless a closing
parenthesis ends it.
-/
theorem read_eq_readChain_upTo
    {rank : Rank}
    {expression : Expression}
    (ranked : expression.HasRank rank)
    {cursor : Cursor}
    {rest : List Token}
    (shape : cursor.rest = expression.tokens ++ rest)
    (ends :
      rank.operand.isJoinedBy (cursor.moveTo rest).current.kind =
        false) :
    read none rank cursor =
      readChain none rank (.upTo expression cursor rest) := by
  induction ranked generalizing cursor rest with
  | number isNumber =>
      rw [readChain_stop none (Rank.isJoinedBy_primary _)]
      exact read_number_upTo isNumber shape
  | @parenthesized opening closing inner opens innerRanked closes
      hypothesis =>
      have split :
          cursor.rest =
            opening :: (inner.tokens ++ closing :: rest) := by
        rw [shape]
        simp [Expression.tokens]
      rw [readChain_stop none (Rank.isJoinedBy_primary _)]
      refine read_group_upTo opens closes split ?_
      have stops (rank : Rank) :=
        rank.isJoinedBy_of_closeParen closes
      have begun :=
        @hypothesis
          (cursor.moveTo (inner.tokens ++ closing :: rest)).enterGroup
          (closing :: rest) rfl (stops _)
      rw [begun]
      exact readChain_stop none (stops _)
  | @operand rank expression ranked hypothesis =>
      have stopped :
          readChain none rank.operand
              (.upTo expression cursor rest) =
            .upTo expression cursor rest :=
        readChain_stop none ends
      rw [read_eq_readChain,
        hypothesis shape (rank.isJoinedBy_operand_operand _), stopped]
  | @chain rank left right operator leftRanked joins rightRanked
      leftHypothesis rightHypothesis =>
      have split :
          cursor.rest =
            left.tokens ++ operator :: (right.tokens ++ rest) := by
        rw [shape]
        simp [Expression.tokens]
      have begun :=
        leftHypothesis split
          (Rank.isJoinedBy_operand_of_isJoinedBy joins)
      have operand :
          read none rank.operand
              (cursor.moveTo (right.tokens ++ rest)) =
            .upTo right (cursor.moveTo (right.tokens ++ rest))
              rest := by
        rw [rightHypothesis rfl (rank.isJoinedBy_operand_operand _)]
        exact readChain_stop none ends
      rw [begun]
      exact readChain_upTo_link joins operand

/--
In front of the tokens of an expression, that expression is read if the token
behind it carries on neither the expression nor its last operand.
-/
theorem read_eq_upTo
    {rank : Rank}
    {expression : Expression}
    (ranked : expression.HasRank rank)
    {cursor : Cursor}
    {rest : List Token}
    (shape : cursor.rest = expression.tokens ++ rest)
    (operandEnds :
      rank.operand.isJoinedBy (cursor.moveTo rest).current.kind =
        false)
    (ends :
      rank.isJoinedBy (cursor.moveTo rest).current.kind = false) :
    read none rank cursor = .upTo expression cursor rest :=
  (read_eq_readChain_upTo ranked shape operandEnds).trans
    (readChain_stop none ends)

/-- A line that consists of the tokens of an expression reads as that one. -/
theorem read_term_eq_upTo_nil
    {expression : Expression}
    (ranked : expression.HasRank .term)
    {cursor : Cursor}
    (shape : cursor.rest = expression.tokens) :
    read none .term cursor = .upTo expression cursor [] :=
  read_eq_upTo ranked (shape.trans (List.append_nil _).symm) rfl rfl

theorem hasRank_term_of_hasRank
    {rank : Rank}
    {expression : Expression}
    (ranked : expression.HasRank rank) :
    expression.HasRank .term := by
  cases rank with
  | term => exact ranked
  | factor => exact .operand ranked
  | primary =>
      have factor : expression.HasRank .factor := .operand ranked
      exact .operand factor

/-- No two expressions of a rank have the same tokens. -/
theorem eq_of_hasRank_of_tokens_eq
    {rank : Rank}
    {left right : Expression}
    (leftRanked : left.HasRank rank)
    (rightRanked : right.HasRank rank)
    (same : left.tokens = right.tokens) :
    left = right := by
  let cursor : Cursor :=
    { rest := left.tokens
      sourceEnd := 0
      depth := 0
      crossings := []
      faults := [] }
  have leftRead :=
    @read_term_eq_upTo_nil left (hasRank_term_of_hasRank leftRanked)
      cursor rfl
  have rightRead :=
    @read_term_eq_upTo_nil right (hasRank_term_of_hasRank rightRanked)
      cursor same
  exact congrArg Parsed.expression (leftRead.symm.trans rightRead)

end Abacus.Grammar
