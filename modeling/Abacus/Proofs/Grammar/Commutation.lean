import Abacus.Proofs.Grammar.Reading

/-!
# Changes that commute with a reading

A reading decides by the kinds of tokens, by the number of open groups and by
the heights of what was read.  So a change of cursors that leaves these alone
can be made before a reading or after it.  To know this of a change, it is
enough to look at the single steps of a reading.

One such change is to have found other faults before.  A reading adds to the
faults without looking at them, and so the earlier ones make no difference to
what is read and to what is found from then on.
-/

namespace Abacus.Grammar

variable
    {limit : Limit}
    {moveCursor : Cursor → Cursor}
    {moveParsed : Parsed → Parsed}

/--
Whether a change of cursors, and a change of what is read that goes with it, may
be made before each step of a reading as well as after it.
-/
structure CommutesWithSteps
    (limit : Limit)
    (moveCursor : Cursor → Cursor)
    (moveParsed : Parsed → Parsed) :
    Prop where
  kind :
    ∀ cursor,
      (moveCursor cursor).current.kind = cursor.current.kind
  depth : ∀ cursor, (moveCursor cursor).depth = cursor.depth
  cursor :
    ∀ parsed, (moveParsed parsed).cursor = moveCursor parsed.cursor
  advance :
    ∀ cursor, (moveCursor cursor).advance = moveCursor cursor.advance
  enterGroup :
    ∀ cursor,
      (moveCursor cursor).enterGroup = moveCursor cursor.enterGroup
  literal :
    ∀ cursor,
      Parsed.literal (moveCursor cursor) =
        moveParsed (.literal cursor)
  skipped :
    ∀ bound cursor,
      Parsed.skipped bound (moveCursor cursor) =
        moveParsed (.skipped bound cursor)
  enclose :
    ∀ (cursor : Cursor) inner,
      Parsed.enclose (moveCursor cursor).current (moveParsed inner) =
        moveParsed (.enclose cursor.current inner)
  link :
    ∀ left (cursor : Cursor) right,
      Parsed.link limit (moveParsed left) (moveCursor cursor).current
          (moveParsed right) =
        moveParsed (.link limit left cursor.current right)

/-- What commutes with the steps of a reading commutes with the whole. -/
theorem CommutesWithSteps.reading
    (commutes : CommutesWithSteps limit moveCursor moveParsed) :
    (∀ rank cursor,
      read limit rank (moveCursor cursor) =
        moveParsed (read limit rank cursor)) ∧
      ∀ rank left,
        readChain limit rank (moveParsed left) =
          moveParsed (readChain limit rank left) := by
  apply reading_induction
  constructor
  case chain =>
    intro rank cursor first chain
    rw [read_eq_readChain, first, chain, ← read_eq_readChain]
  case number =>
    intro cursor closed
    have same : (moveCursor cursor).current.kind ≠ .openParen := by
      rw [commutes.kind]
      exact closed
    rw [read_number limit closed, read_number limit same,
      commutes.literal]
  case skipped =>
    intro cursor bound opens exceeded
    have same : (moveCursor cursor).current.kind = .openParen := by
      rw [commutes.kind]
      exact opens
    rw [← commutes.depth] at exceeded
    rw [read_skipped same exceeded, commutes.skipped]
    rw [commutes.depth] at exceeded
    rw [read_skipped opens exceeded]
  case group =>
    intro cursor opens within inner
    have same : (moveCursor cursor).current.kind = .openParen := by
      rw [commutes.kind]
      exact opens
    have sameWithin :
        limit.exceededBy? ((moveCursor cursor).depth + 1) = none := by
      rw [commutes.depth]
      exact within
    rw [read_group opens within, read_group same sameWithin,
      commutes.advance, commutes.enterGroup, inner, commutes.enclose]
  case link =>
    intro rank left joins right chain
    have same :
        rank.isJoinedBy (moveParsed left).cursor.current.kind =
          true := by
      rw [commutes.cursor, commutes.kind]
      exact joins
    rw [readChain_link limit joins, readChain_link limit same,
      commutes.cursor, commutes.advance, right, commutes.link, chain]
  case stop =>
    intro rank left stops
    have same :
        rank.isJoinedBy (moveParsed left).cursor.current.kind =
          false := by
      rw [commutes.cursor, commutes.kind]
      exact stops
    rw [readChain_stop limit stops, readChain_stop limit same]

/-! ## Earlier faults -/

/-- The same place, with some faults that were found before all others. -/
def Cursor.withEarlier
    (earlier : List Diagnostic)
    (cursor : Cursor) :
    Cursor :=
  { cursor with faults := cursor.faults ++ earlier.reverse }

/-- What was read, with some faults that were found before all others. -/
def Parsed.withEarlier
    (earlier : List Diagnostic)
    (parsed : Parsed) :
    Parsed :=
  { parsed with cursor := parsed.cursor.withEarlier earlier }

namespace Cursor

variable
    (earlier : List Diagnostic)
    (cursor : Cursor)

theorem diagnostics_withEarlier :
    (cursor.withEarlier earlier).diagnostics =
      earlier ++ cursor.diagnostics := by
  simp [withEarlier, diagnostics]

/-- A fault is found behind all earlier ones. -/
theorem expect_withEarlier (expected : Token.Kind) :
    (cursor.withEarlier earlier).expect expected =
      ((cursor.expect expected).1,
        (cursor.expect expected).2.withEarlier earlier) := by
  have same : (cursor.withEarlier earlier).current = cursor.current :=
    rfl
  simp only [expect, same]
  split <;> rfl

theorem cross_withEarlier
    (bound : Nat)
    (token : Token) :
    (cursor.withEarlier earlier).cross bound token =
      (cursor.cross bound token).withEarlier earlier := by
  have same :
      (cursor.withEarlier earlier).isTooDeep = cursor.isTooDeep := rfl
  unfold cross
  rw [same]
  cases cursor.isTooDeep <;> rfl

end Cursor

/-- Earlier faults make no difference to any step of a reading. -/
theorem commutesWithSteps_withEarlier
    (limit : Limit)
    (earlier : List Diagnostic) :
    CommutesWithSteps limit (Cursor.withEarlier earlier)
      (Parsed.withEarlier earlier) where
  kind _ := rfl
  depth _ := rfl
  cursor _ := rfl
  advance _ := rfl
  enterGroup _ := rfl
  literal cursor := by
    unfold Parsed.literal
    rw [cursor.expect_withEarlier]
    rfl
  skipped bound cursor := by
    unfold Parsed.skipped
    simp only [Cursor.cross_withEarlier]
    rfl
  enclose cursor inner := by
    have closing :=
      inner.cursor.leaveGroup.expect_withEarlier earlier .closeParen
    have inside :
        (inner.withEarlier earlier).cursor.leaveGroup =
          inner.cursor.leaveGroup.withEarlier earlier := rfl
    unfold Parsed.enclose
    simp only [inside, closing]
    rfl
  link left cursor right := by
    have operator :
        (cursor.withEarlier earlier).current = cursor.current := rfl
    rw [operator]
    cases exceeded :
        limit.exceededBy? (max left.height right.height + 1) with
    | none =>
        rw [Parsed.link_of_exceededBy?_eq_none _ exceeded]
        exact Parsed.link_of_exceededBy?_eq_none _ exceeded
    | some bound =>
        have crossed :=
          @Parsed.link_of_exceededBy?_eq_some limit
            (left.withEarlier earlier) (right.withEarlier earlier)
            bound cursor.current exceeded
        have behind :=
          right.cursor.cross_withEarlier earlier bound cursor.current
        rw [crossed, Parsed.link_of_exceededBy?_eq_some _ exceeded]
        simp only [Parsed.withEarlier, behind]

end Abacus.Grammar
