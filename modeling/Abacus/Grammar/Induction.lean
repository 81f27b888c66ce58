import Abacus.Grammar.Descent

/-!
# Induction on a reading

What holds of every step of a reading holds of the whole.  `read_induction`
takes one hypothesis for each equation of `read` and `readChain`; a statement
about reading is proved by checking the steps, and never by looking at how the
descent terminates.
-/

namespace Abacus.Grammar

/--
The steps that lead from a cursor to what is read there, for a property of
whole expressions and a property of the links behind a part of a chain.
-/
structure ReadingSteps
    (limit : Limit)
    (whole : Rank → Cursor → Parsed → Prop)
    (links : Rank → Parsed → Parsed → Prop) :
    Prop where
  term :
    ∀ {cursor first chain},
      whole .factor cursor first →
      links .term first chain →
      whole .term cursor chain
  factor :
    ∀ {cursor first chain},
      whole .primary cursor first →
      links .factor first chain →
      whole .factor cursor chain
  number :
    ∀ {cursor : Cursor},
      cursor.current.kind ≠ .openParen →
      whole .primary cursor (.literal cursor)
  skipped :
    ∀ {cursor : Cursor} {bound : Nat},
      cursor.current.kind = .openParen →
      limit.exceededBy? (cursor.depth + 1) = some bound →
      whole .primary cursor (.skipped bound cursor)
  group :
    ∀ {cursor : Cursor} {inner : Parsed},
      cursor.current.kind = .openParen →
      limit.exceededBy? (cursor.depth + 1) = none →
      whole .term cursor.advance.enterGroup inner →
      whole .primary cursor (.enclose cursor.current inner)
  link :
    ∀ {rank : Rank} {left right chain : Parsed},
      rank.isJoinedBy left.cursor.current.kind = true →
      whole rank.operand left.cursor.advance right →
      links rank
        (.link limit left left.cursor.current right) chain →
      links rank left chain
  stop :
    ∀ {rank : Rank} {left : Parsed},
      rank.isJoinedBy left.cursor.current.kind = false →
      links rank left left

/-- What follows from the steps holds of all that is read. -/
theorem read_induction
    {limit : Limit}
    {whole : Rank → Cursor → Parsed → Prop}
    {links : Rank → Parsed → Parsed → Prop}
    (steps : ReadingSteps limit whole links) :
    (∀ rank cursor, whole rank cursor (read limit rank cursor)) ∧
      ∀ rank left, links rank left (readChain limit rank left) := by
  have both :
      ∀ measure,
        (∀ rank cursor,
          4 * cursor.rest.length + rank.level = measure →
          whole rank cursor (read limit rank cursor)) ∧
        ∀ rank left,
          4 * left.cursor.rest.length = measure →
          links rank left (readChain limit rank left) := by
    intro measure
    induction measure using Nat.strongRecOn with
    | ind measure hypothesis =>
        constructor
        · intro rank cursor size
          cases rank with
          | term =>
              have fewer :=
                length_rest_read_le limit .factor cursor
              simp only [Rank.level] at size
              rw [read_term]
              exact steps.term
                ((hypothesis _ (by simp only [Rank.level]; omega)).1
                  .factor cursor rfl)
                ((hypothesis _ (by omega)).2 .term _ rfl)
          | factor =>
              have fewer :=
                length_rest_read_le limit .primary cursor
              simp only [Rank.level] at size
              rw [read_factor]
              exact steps.factor
                ((hypothesis _ (by simp only [Rank.level]; omega)).1
                  .primary cursor rfl)
                ((hypothesis _ (by omega)).2 .factor _ rfl)
          | primary =>
              simp only [Rank.level] at size
              by_cases opens : cursor.current.kind = .openParen
              · cases exceeded :
                    limit.exceededBy? (cursor.depth + 1) with
                | some bound =>
                    rw [read_skipped opens exceeded]
                    exact steps.skipped opens exceeded
                | none =>
                    have fewer :=
                      @Cursor.length_rest_advance_lt cursor
                        (by simp [opens])
                    rw [read_group opens exceeded]
                    refine steps.group opens exceeded
                      ((hypothesis _ ?_).1 .term _ rfl)
                    simp only [Rank.level, Cursor.rest_enterGroup]
                    omega
              · rw [read_number limit opens]
                exact steps.number opens
        · intro rank left size
          by_cases joins :
              rank.isJoinedBy left.cursor.current.kind = true
          · have fewer :=
              @Cursor.length_rest_advance_lt left.cursor (by
                intro finished
                simp [finished] at joins)
            have rightFewer :=
              length_rest_read_le limit rank.operand
                left.cursor.advance
            have level := rank.operand.level_le
            rw [readChain_link limit joins]
            refine steps.link joins
              ((hypothesis _ ?_).1 _ _ rfl)
              ((hypothesis _ ?_).2 rank _ rfl)
            · omega
            · rw [Parsed.rest_link]
              omega
          · rw [Bool.not_eq_true] at joins
            rw [readChain_stop limit joins]
            exact steps.stop joins
  exact
    ⟨fun rank cursor => (both _).1 rank cursor rfl,
      fun rank left => (both _).2 rank left rfl⟩

end Abacus.Grammar
