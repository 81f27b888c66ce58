import Abacus.Grammar.Induction
import Abacus.Proofs.Expression.Parts

/-!
# What a reading leaves behind

A reading takes tokens from the front of its cursor and adds to what has gone
wrong, and it never does the reverse.  It closes every group that it opens, so
it ends as deep as it began.  The height that comes with an expression is the
height of that expression.

`reading_induction` is `read_induction` for statements about `read` and
`readChain` themselves.  At each step the earlier results are known to be
readings, so what is already known of readings applies to them.
-/

namespace Abacus.Grammar

/-! ## Induction -/

/-- Chains begin with an operand.  A primary is a chain without links. -/
theorem read_eq_readChain
    (limit : Limit)
    (rank : Rank)
    (cursor : Cursor) :
    read limit rank cursor =
      readChain limit rank (read limit rank.operand cursor) := by
  cases rank with
  | term => exact read_term limit cursor
  | factor => exact read_factor limit cursor
  | primary =>
      exact
        (readChain_stop limit (Rank.isJoinedBy_primary _)).symm

/--
The cases of a statement about what is read at a cursor, and of one about the
links behind a part of a chain.
-/
structure ReadingCases
    (limit : Limit)
    (whole : Rank → Cursor → Prop)
    (links : Rank → Parsed → Prop) :
    Prop where
  chain :
    ∀ {rank : Rank} {cursor : Cursor},
      whole rank.operand cursor →
      links rank (read limit rank.operand cursor) →
      whole rank cursor
  number :
    ∀ {cursor : Cursor},
      cursor.current.kind ≠ .openParen →
      whole .primary cursor
  skipped :
    ∀ {cursor : Cursor} {bound : Nat},
      cursor.current.kind = .openParen →
      limit.exceededBy? (cursor.depth + 1) = some bound →
      whole .primary cursor
  group :
    ∀ {cursor : Cursor},
      cursor.current.kind = .openParen →
      limit.exceededBy? (cursor.depth + 1) = none →
      whole .term cursor.advance.enterGroup →
      whole .primary cursor
  link :
    ∀ {rank : Rank} {left : Parsed},
      rank.isJoinedBy left.cursor.current.kind = true →
      whole rank.operand left.cursor.advance →
      links rank
        (.link limit left left.cursor.current
          (read limit rank.operand left.cursor.advance)) →
      links rank left
  stop :
    ∀ {rank : Rank} {left : Parsed},
      rank.isJoinedBy left.cursor.current.kind = false →
      links rank left

theorem reading_induction
    {limit : Limit}
    {whole : Rank → Cursor → Prop}
    {links : Rank → Parsed → Prop}
    (cases : ReadingCases limit whole links) :
    (∀ rank cursor, whole rank cursor) ∧
      ∀ rank left, links rank left := by
  have steps :
      ReadingSteps limit
        (fun rank cursor parsed =>
          parsed = read limit rank cursor ∧ whole rank cursor)
        (fun rank left chain =>
          chain = readChain limit rank left ∧ links rank left) := by
    constructor
    case term =>
      rintro cursor first chain ⟨rfl, first⟩ ⟨rfl, chain⟩
      exact
        ⟨(read_term limit cursor).symm, cases.chain first chain⟩
    case factor =>
      rintro cursor first chain ⟨rfl, first⟩ ⟨rfl, chain⟩
      exact
        ⟨(read_factor limit cursor).symm, cases.chain first chain⟩
    case number =>
      intro cursor closed
      exact ⟨(read_number limit closed).symm, cases.number closed⟩
    case skipped =>
      intro cursor bound opens exceeded
      exact
        ⟨(read_skipped opens exceeded).symm,
          cases.skipped opens exceeded⟩
    case group =>
      rintro cursor inner opens within ⟨rfl, inner⟩
      exact
        ⟨(read_group opens within).symm,
          cases.group opens within inner⟩
    case link =>
      rintro rank left right chain joins ⟨rfl, right⟩ ⟨rfl, chain⟩
      exact
        ⟨(readChain_link limit joins).symm,
          cases.link joins right chain⟩
    case stop =>
      intro rank left stops
      exact ⟨(readChain_stop limit stops).symm, cases.stop stops⟩
  rcases read_induction steps with ⟨readings, chains⟩
  exact
    ⟨fun rank cursor => (readings rank cursor).2,
      fun rank left => (chains rank left).2⟩

/-! ## What a step leaves behind -/

namespace Cursor

/-- What lies before a place in the same buffer, of what lies behind it. -/
structure Precedes (before after : Cursor) : Prop where
  rest : after.rest <:+ before.rest
  sourceEnd : after.sourceEnd = before.sourceEnd
  crossings : before.crossings <:+ after.crossings
  faults : before.faults <:+ after.faults

theorem Precedes.refl (cursor : Cursor) : cursor.Precedes cursor where
  rest := List.suffix_refl _
  sourceEnd := rfl
  crossings := List.suffix_refl _
  faults := List.suffix_refl _

theorem Precedes.trans
    {first second third : Cursor}
    (left : first.Precedes second)
    (right : second.Precedes third) :
    first.Precedes third where
  rest := right.rest.trans left.rest
  sourceEnd := right.sourceEnd.trans left.sourceEnd
  crossings := left.crossings.trans right.crossings
  faults := left.faults.trans right.faults

/-- A list that lies between two equal lists is equal to them. -/
theorem eq_of_suffix_of_suffix
    {element : Type}
    {first second third : List element}
    (left : first <:+ second)
    (right : second <:+ third)
    (same : third = first) :
    second = first ∧ third = second := by
  have middle : first = second := by
    refine left.eq_of_length_le ?_
    rw [← same]
    exact right.length_le
  exact ⟨middle.symm, same.trans middle⟩

theorem Precedes.crossings_eq
    {first second third : Cursor}
    (left : first.Precedes second)
    (right : second.Precedes third)
    (same : third.crossings = first.crossings) :
    second.crossings = first.crossings ∧
      third.crossings = second.crossings :=
  eq_of_suffix_of_suffix left.crossings right.crossings same

theorem Precedes.faults_eq
    {first second third : Cursor}
    (left : first.Precedes second)
    (right : second.Precedes third)
    (same : third.faults = first.faults) :
    second.faults = first.faults ∧
      third.faults = second.faults :=
  eq_of_suffix_of_suffix left.faults right.faults same

theorem precedes_advance (cursor : Cursor) :
    cursor.Precedes cursor.advance :=
  { Precedes.refl cursor with rest := List.tail_suffix _ }

theorem precedes_report
    (cursor : Cursor)
    (diagnostic : Diagnostic) :
    cursor.Precedes (cursor.report diagnostic) :=
  { Precedes.refl cursor with faults := List.suffix_cons _ _ }

theorem precedes_enterGroup (cursor : Cursor) :
    cursor.Precedes cursor.enterGroup :=
  { Precedes.refl cursor with }

theorem precedes_leaveGroup (cursor : Cursor) :
    cursor.Precedes cursor.leaveGroup :=
  { Precedes.refl cursor with }

theorem precedes_cross
    (cursor : Cursor)
    (bound : Nat)
    (token : Token) :
    cursor.Precedes (cursor.cross bound token) := by
  refine
    { Precedes.refl cursor with
      crossings := List.suffix_cons _ _
      faults := ?_ }
  unfold cross
  split
  · exact List.suffix_refl _
  · exact List.suffix_cons _ _

theorem afterGroups_suffix
    (opened : Nat)
    (tokens : List Token) :
    afterGroups opened tokens <:+ tokens := by
  induction tokens generalizing opened with
  | nil => exact List.suffix_refl _
  | cons token others hypothesis =>
      unfold afterGroups
      split
      · exact List.suffix_cons token others
      · exact (hypothesis _).trans (List.suffix_cons token others)

theorem precedes_skipGroup (cursor : Cursor) :
    cursor.Precedes cursor.skipGroup :=
  { Precedes.refl cursor with
    rest := afterGroups_suffix 0 cursor.rest }

/-- A token that is asked for is taken, or else its absence is a fault. -/
theorem expect_cases
    (cursor : Cursor)
    (expected : Token.Kind) :
    (cursor.current.kind = expected ∧
        cursor.expect expected = (cursor.current, cursor.advance)) ∨
      (cursor.current.kind ≠ expected ∧
        cursor.expect expected =
          (Token.missing expected cursor.current.position,
            cursor.report
              (.unexpectedToken cursor.current.kind expected
                cursor.current.position))) := by
  by_cases found : cursor.current.kind = expected
  · exact Or.inl ⟨found, if_pos found⟩
  · exact Or.inr ⟨found, if_neg found⟩

theorem precedes_expect
    (cursor : Cursor)
    (expected : Token.Kind) :
    cursor.Precedes (cursor.expect expected).2 := by
  rcases cursor.expect_cases expected with ⟨_, taken⟩ | ⟨_, absent⟩
  · rw [taken]
    exact precedes_advance cursor
  · rw [absent]
    exact precedes_report cursor _

@[simp]
theorem depth_expect
    (cursor : Cursor)
    (expected : Token.Kind) :
    (cursor.expect expected).2.depth = cursor.depth := by
  rcases cursor.expect_cases expected with ⟨_, taken⟩ | ⟨_, absent⟩
  · rw [taken]
    rfl
  · rw [absent]
    rfl

@[simp]
theorem crossings_expect
    (cursor : Cursor)
    (expected : Token.Kind) :
    (cursor.expect expected).2.crossings = cursor.crossings := by
  rcases cursor.expect_cases expected with ⟨_, taken⟩ | ⟨_, absent⟩
  · rw [taken]
    rfl
  · rw [absent]
    rfl

end Cursor

/-! ## What a reading leaves behind -/

namespace Parsed

/-- Whether the height that comes with an expression is its height. -/
def IsMeasured (parsed : Parsed) : Prop :=
  parsed.height = parsed.expression.height

/-- What is known of the result of a reading that starts at a cursor. -/
structure Follows (cursor : Cursor) (parsed : Parsed) : Prop where
  precedes : cursor.Precedes parsed.cursor
  depth : parsed.cursor.depth = cursor.depth
  measured : parsed.IsMeasured

theorem link_of_exceededBy?_eq_none
    {limit : Limit}
    {left right : Parsed}
    (operator : Token)
    (within :
      limit.exceededBy? (max left.height right.height + 1) = none) :
    link limit left operator right =
      { expression :=
          .binary left.expression operator right.expression
        height := max left.height right.height + 1
        cursor := right.cursor } := by
  simp only [link, within]

theorem link_of_exceededBy?_eq_some
    {limit : Limit}
    {left right : Parsed}
    {bound : Nat}
    (operator : Token)
    (exceeded :
      limit.exceededBy? (max left.height right.height + 1) =
        some bound) :
    link limit left operator right =
      { left with cursor := right.cursor.cross bound operator } := by
  simp only [link, exceeded]

/-- A link joins its operands, or else it crosses the nesting limit. -/
theorem link_cases
    (limit : Limit)
    (left : Parsed)
    (operator : Token)
    (right : Parsed) :
    link limit left operator right =
        { expression :=
            .binary left.expression operator right.expression
          height := max left.height right.height + 1
          cursor := right.cursor } ∨
      ∃ bound,
        link limit left operator right =
          { left with
            cursor := right.cursor.cross bound operator } := by
  cases exceeded :
      limit.exceededBy? (max left.height right.height + 1) with
  | none =>
      exact Or.inl (link_of_exceededBy?_eq_none operator exceeded)
  | some bound =>
      exact
        Or.inr
          ⟨bound, link_of_exceededBy?_eq_some operator exceeded⟩

theorem IsMeasured.link
    {left right : Parsed}
    (leftMeasured : left.IsMeasured)
    (rightMeasured : right.IsMeasured)
    (limit : Limit)
    (operator : Token) :
    (link limit left operator right).IsMeasured := by
  rcases link_cases limit left operator right with
    joined | ⟨bound, crossed⟩
  · rw [joined]
    unfold IsMeasured at *
    simp only [Expression.height, leftMeasured, rightMeasured]
  · rw [crossed]
    exact leftMeasured

theorem precedes_link
    (limit : Limit)
    (left : Parsed)
    (operator : Token)
    (right : Parsed) :
    right.cursor.Precedes (link limit left operator right).cursor := by
  rcases link_cases limit left operator right with
    joined | ⟨bound, crossed⟩
  · rw [joined]
    exact Cursor.Precedes.refl right.cursor
  · rw [crossed]
    exact Cursor.precedes_cross right.cursor bound operator

@[simp]
theorem depth_link
    (limit : Limit)
    (left : Parsed)
    (operator : Token)
    (right : Parsed) :
    (link limit left operator right).cursor.depth =
      right.cursor.depth := by
  rcases link_cases limit left operator right with
    joined | ⟨bound, crossed⟩
  · rw [joined]
  · rw [crossed]
    rfl

theorem precedes_enclose
    (opening : Token)
    (inner : Parsed) :
    inner.cursor.Precedes (enclose opening inner).cursor :=
  inner.cursor.precedes_leaveGroup.trans
    (Cursor.precedes_expect _ .closeParen)

@[simp]
theorem depth_enclose
    (opening : Token)
    (inner : Parsed) :
    (enclose opening inner).cursor.depth =
      inner.cursor.depth - 1 :=
  Cursor.depth_expect inner.cursor.leaveGroup .closeParen

@[simp]
theorem crossings_enclose
    (opening : Token)
    (inner : Parsed) :
    (enclose opening inner).cursor.crossings =
      inner.cursor.crossings :=
  Cursor.crossings_expect inner.cursor.leaveGroup .closeParen

theorem mem_parts_link
    (limit : Limit)
    (left : Parsed)
    (operator : Token)
    (right : Parsed) :
    left.expression ∈
      (link limit left operator right).expression.parts := by
  rcases link_cases limit left operator right with
    joined | ⟨bound, crossed⟩
  · rw [joined, Expression.mem_parts_binary]
    exact Or.inl (Expression.self_mem_parts _)
  · rw [crossed]
    exact Expression.self_mem_parts _

end Parsed

/-- Every reading takes tokens, adds faults and ends as deep as it began. -/
theorem follows_reading (limit : Limit) :
    (∀ rank cursor, (read limit rank cursor).Follows cursor) ∧
      ∀ rank (left : Parsed),
        left.IsMeasured →
          (readChain limit rank left).Follows left.cursor := by
  apply reading_induction
  constructor
  case chain =>
    intro rank cursor first chain
    have chained := chain first.measured
    rw [read_eq_readChain]
    exact
      ⟨first.precedes.trans chained.precedes,
        chained.depth.trans first.depth, chained.measured⟩
  case number =>
    intro cursor closed
    rw [read_number limit closed]
    exact
      ⟨cursor.precedes_expect .number,
        cursor.depth_expect .number, rfl⟩
  case skipped =>
    intro cursor bound opens exceeded
    rw [read_skipped opens exceeded]
    exact
      ⟨(cursor.precedes_cross bound cursor.current).trans
          (Cursor.precedes_skipGroup _), rfl, rfl⟩
  case group =>
    intro cursor opens within inner
    rw [read_group opens within]
    refine ⟨?_, ?_, congrArg (· + 1) inner.measured⟩
    · exact
        cursor.precedes_advance.trans
          (cursor.advance.precedes_enterGroup.trans
            (inner.precedes.trans (Parsed.precedes_enclose _ _)))
    · rw [Parsed.depth_enclose, inner.depth]
      rfl
  case link =>
    intro rank left joins right chain measured
    have chained := chain (measured.link right.measured limit _)
    rw [readChain_link limit joins]
    refine ⟨?_, ?_, chained.measured⟩
    · exact
        left.cursor.precedes_advance.trans
          (right.precedes.trans
            ((Parsed.precedes_link limit left _ _).trans
              chained.precedes))
    · rw [chained.depth, Parsed.depth_link, right.depth]
      rfl
  case stop =>
    intro rank left stops measured
    rw [readChain_stop limit stops]
    exact ⟨Cursor.Precedes.refl _, rfl, measured⟩

theorem follows_read
    (limit : Limit)
    (rank : Rank)
    (cursor : Cursor) :
    (read limit rank cursor).Follows cursor :=
  (follows_reading limit).1 rank cursor

theorem follows_readChain
    (limit : Limit)
    (rank : Rank)
    {left : Parsed}
    (measured : left.IsMeasured) :
    (readChain limit rank left).Follows left.cursor :=
  (follows_reading limit).2 rank left measured

/-- What a chain began with is still a part of it at its end. -/
theorem mem_parts_readChain
    (limit : Limit)
    (rank : Rank)
    (left : Parsed) :
    left.expression ∈
      (readChain limit rank left).expression.parts := by
  have both :
      (∀ (_ : Rank) (_ : Cursor), True) ∧
        ∀ (rank : Rank) (left : Parsed),
          left.expression ∈
            (readChain limit rank left).expression.parts := by
    apply @reading_induction limit
    constructor
    case chain => exact fun _ _ => trivial
    case number => exact fun _ => trivial
    case skipped => exact fun _ _ => trivial
    case group => exact fun _ _ _ => trivial
    case link =>
      intro rank left joins right chain
      rw [readChain_link limit joins]
      exact
        Expression.parts_subset_of_mem_parts chain
          (Parsed.mem_parts_link limit left _ _)
    case stop =>
      intro rank left stops
      rw [readChain_stop limit stops]
      exact Expression.self_mem_parts _
  exact both.2 rank left

end Abacus.Grammar
