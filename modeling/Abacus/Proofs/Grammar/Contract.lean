import Abacus.Proofs.Grammar.Faults
import Abacus.Proofs.Grammar.Groups
import Abacus.Proofs.SyntaxTree.Depth

/-!
# Readings from any place

A reading may begin at any place of a buffer, inside any number of groups and
after any faults.  It comes to an end, for each task that it hands on has fewer
tokens before it or a tighter rank.  And it comes to something: either it takes
a token, or it reports one that is missing.

Whether the nesting limit has been crossed is recorded in two ways, by a flag and
among the faults.  No reading makes the two disagree.
-/

namespace Abacus.Grammar

variable {limit : Limit}

/-! ## The end of a reading -/

namespace Task

/-- A number that falls from each task to those that it hands on. -/
def weight : Task → Nat
  | .whole rank cursor => 4 * cursor.rest.length + rank.level
  | .links _ left => 4 * left.cursor.rest.length

/-- Whether a task does not go on handing on tasks forever. -/
def Terminates (limit : Limit) (task : Task) : Prop :=
  Acc (fun next caller => Calls limit caller next) task

theorem weight_lt_of_calls
    {task next : Task}
    (calls : task.Calls limit next) :
    next.weight < task.weight := by
  cases calls with
  | @operand rank cursor compound =>
      simp only [weight]
      cases rank with
      | primary => contradiction
      | _ =>
          simp only [Rank.operand, Rank.level]
          omega
  | @chain rank cursor compound =>
      have fewer := length_rest_read_le limit rank.operand cursor
      have positive : 0 < rank.level := by
        cases rank <;> decide
      simp only [weight]
      omega
  | @group cursor opens within =>
      have fewer :=
        @Cursor.length_rest_advance_lt cursor (by simp [opens])
      simp only [weight, Rank.level, Cursor.rest_enterGroup]
      omega
  | @right rank left joins =>
      have fewer :=
        Cursor.length_rest_advance_lt
          (Rank.ne_endOfFile_of_isJoinedBy joins)
      have level := rank.operand.level_le
      simp only [weight]
      omega
  | @others rank left joins =>
      have fewer :=
        Cursor.length_rest_advance_lt
          (Rank.ne_endOfFile_of_isJoinedBy joins)
      have rightFewer :=
        length_rest_read_le limit rank.operand left.cursor.advance
      simp only [weight, Parsed.rest_link]
      omega

theorem terminates (limit : Limit) (task : Task) :
    task.Terminates limit := by
  have lighter := (measure weight).wf.apply task
  exact Subrelation.accessible weight_lt_of_calls lighter

end Task

/-! ## Progress -/

namespace Cursor

/-- Whether a token is taken or a fault is found between two places. -/
def Progresses (before after : Cursor) : Prop :=
  after.rest.length < before.rest.length ∨
    before.faults.length < after.faults.length

variable {before middle after : Cursor}

theorem Progresses.trans_precedes
    (progresses : before.Progresses middle)
    (precedes : middle.Precedes after) :
    before.Progresses after := by
  have fewer := precedes.rest.length_le
  have more := precedes.faults.length_le
  rcases progresses with taken | found
  · exact Or.inl (Nat.lt_of_le_of_lt fewer taken)
  · exact Or.inr (Nat.lt_of_lt_of_le found more)

theorem progresses_advance
    (unfinished : before.current.kind ≠ .endOfFile) :
    before.Progresses before.advance :=
  Or.inl (length_rest_advance_lt unfinished)

/-- A token that is asked for is taken, or else its absence is a fault. -/
theorem progresses_expect
    {expected : Token.Kind}
    (cursor : Cursor)
    (inside : expected ≠ .endOfFile) :
    cursor.Progresses (cursor.expect expected).2 := by
  rcases cursor.expect_cases expected with ⟨found, taken⟩ | ⟨_, absent⟩
  · rw [taken]
    exact progresses_advance (by rw [found]; exact inside)
  · rw [absent]
    exact Or.inr (Nat.lt_succ_self _)

/-- A group that is skipped has at least one token. -/
theorem length_rest_skipGroup_lt
    {cursor : Cursor}
    (opens : cursor.current.kind = .openParen) :
    cursor.skipGroup.rest.length < cursor.rest.length := by
  obtain ⟨skipped, split, skips⟩ := exists_skipsGroup opens
  obtain ⟨opening, others, rfl, -⟩ := skips.begins
  rw [split, List.length_append, List.length_cons]
  omega

end Cursor

theorem progresses_primary
    (limit : Limit)
    (cursor : Cursor) :
    cursor.Progresses (read limit .primary cursor).cursor := by
  by_cases opens : cursor.current.kind = .openParen
  · cases exceeded : limit.exceededBy? (cursor.depth + 1) with
    | some bound =>
        rw [read_skipped opens exceeded]
        exact Or.inl (Cursor.length_rest_skipGroup_lt opens)
    | none =>
        have inner :=
          follows_read limit .term cursor.advance.enterGroup
        have opening : cursor.Progresses cursor.advance :=
          Cursor.progresses_advance (by simp [opens])
        rw [read_group opens exceeded]
        exact
          opening.trans_precedes
            (cursor.advance.precedes_enterGroup.trans
              (inner.precedes.trans (Parsed.precedes_enclose _ _)))
  · rw [read_number limit opens]
    exact cursor.progresses_expect (by decide)

/-- Every reading takes a token or finds a fault. -/
theorem progresses_read
    (limit : Limit)
    (rank : Rank)
    (cursor : Cursor) :
    cursor.Progresses (read limit rank cursor).cursor := by
  have factor :
      cursor.Progresses (read limit .factor cursor).cursor := by
    have first := follows_read limit .primary cursor
    have chain := follows_readChain limit .factor first.measured
    rw [read_factor]
    exact
      (progresses_primary limit cursor).trans_precedes chain.precedes
  cases rank with
  | term =>
      have first := follows_read limit .factor cursor
      have chain := follows_readChain limit .term first.measured
      rw [read_term]
      exact factor.trans_precedes chain.precedes
  | factor => exact factor
  | primary => exact progresses_primary limit cursor

/-! ## The flag -/

namespace Cursor

/--
Whether a place is marked as one behind a crossing of the nesting limit exactly
if such a crossing is among its diagnostics.
-/
def IsFlagged (cursor : Cursor) : Prop :=
  cursor.isTooDeep = true ↔
    ∃ fault ∈ cursor.diagnostics, fault.isNestingTooDeep = true

/-- What has been crossed once stays crossed. -/
theorem Precedes.isTooDeep
    {before after : Cursor}
    (precedes : before.Precedes after)
    (already : before.isTooDeep = true) :
    after.isTooDeep = true := by
  unfold Cursor.isTooDeep at already ⊢
  cases crossings : after.crossings with
  | nil =>
      have none := precedes.crossings
      rw [crossings, List.suffix_nil] at none
      rw [none] at already
      contradiction
  | cons token others => rfl

theorem ReportsOnce.isFlagged
    {cursor : Cursor}
    (once : cursor.ReportsOnce) :
    cursor.IsFlagged := by
  unfold IsFlagged diagnostics
  simp only [List.mem_reverse]
  rw [← List.countP_pos_iff, once]
  cases cursor.isTooDeep <;> decide

/-- A crossing that is recorded in both ways stays so, and so does none. -/
theorem IsFlagged.read
    {cursor : Cursor}
    (flagged : cursor.IsFlagged)
    (limit : Limit)
    (rank : Rank) :
    (Grammar.read limit rank cursor).cursor.IsFlagged := by
  cases already : cursor.isTooDeep with
  | true =>
      have precedes := (follows_read limit rank cursor).precedes
      obtain ⟨fault, member, nests⟩ := flagged.1 already
      have found :=
        precedes.faults.subset (List.mem_reverse.1 member)
      have crossed := precedes.isTooDeep already
      constructor
      · intro _
        exact ⟨fault, List.mem_reverse.2 found, nests⟩
      · intro _
        exact crossed
  | false =>
      have silent :
          cursor.faults.countP Diagnostic.isNestingTooDeep = 0 := by
        rw [List.countP_eq_zero]
        intro fault member nests
        have crossed :=
          flagged.2 ⟨fault, List.mem_reverse.2 member, nests⟩
        rw [already] at crossed
        contradiction
      have once : cursor.ReportsOnce := by
        rw [ReportsOnce, silent, already]
        rfl
      exact ((reportsOnce_reading limit).1 rank cursor once).isFlagged

end Cursor

/-! ## What is read at any place -/

/--
What is known of an expression of some rank that was read at a place of a
buffer.
-/
structure Parsed.IsReadAt
    (buffer : TokenBuffer)
    (index : Nat)
    (rank : Rank)
    (cursor : Cursor)
    (parsed : Parsed) :
    Prop where
  /-- The place behind it is further on, or else a fault has been found. -/
  place :
    ∃ next,
      parsed.cursor.IsAt buffer next ∧
        index ≤ next ∧
        (index < next ∨
          cursor.diagnostics.length <
            parsed.cursor.diagnostics.length)
  depth : parsed.cursor.depth = cursor.depth
  diagnostics : cursor.diagnostics <+: parsed.cursor.diagnostics
  flagged : parsed.cursor.IsFlagged
  height : parsed.height = parsed.expression.height
  behindFactor :
    rank = .factor →
      parsed.cursor.current.kind ∉ [Token.Kind.star, .slash]
  behindTerm :
    rank = .term →
      parsed.cursor.current.kind ∉
        [Token.Kind.plus, .minus, .star, .slash]

/-- No link of a factor is left behind it. -/
theorem Rank.IsEndedBy.not_mem_factors
    {kind : Token.Kind}
    (ended : Rank.factor.IsEndedBy kind) :
    kind ∉ [Token.Kind.star, .slash] := by
  have chain := ended.chain
  revert chain
  cases kind <;> decide

/--
At any place of a buffer, inside any number of groups and after any faults that
are flagged as they should be, every reading comes to an end.  What it reads
ends no earlier than it began and at least one token or one fault further on; it
closes the groups that it opened, keeps the earlier diagnostics and the flag,
knows the height of what it read, and leaves no operator of its own behind.
-/
theorem read_terminates_isReadAt
    {buffer : TokenBuffer}
    {index : Nat}
    {cursor : Cursor}
    (place : cursor.IsAt buffer index)
    (flagged : cursor.IsFlagged)
    (limit : Limit)
    (rank : Rank) :
    (Task.whole rank cursor).Terminates limit ∧
      (read limit rank cursor).IsReadAt buffer index rank cursor := by
  have followed := follows_read limit rank cursor
  have ended := ended_read limit rank cursor
  have progress := progresses_read limit rank cursor
  obtain ⟨taken, split⟩ := followed.precedes.rest
  refine ⟨Task.terminates limit _, ?_⟩
  constructor
  case place =>
    refine
      ⟨index + taken.length,
        place.of_taken split.symm followed.precedes.sourceEnd,
        Nat.le_add_right _ _, ?_⟩
    rcases progress with fewer | found
    · left
      rw [← split, List.length_append] at fewer
      omega
    · right
      simpa [Cursor.diagnostics] using found
  case depth => exact followed.depth
  case diagnostics =>
    exact List.reverse_prefix.2 followed.precedes.faults
  case flagged => exact flagged.read limit rank
  case height => exact followed.measured
  case behindFactor =>
    rintro rfl
    exact ended.not_mem_factors
  case behindTerm =>
    rintro rfl
    exact ended.not_mem_operators

/--
The place behind the first parenthesis of `((1+)*3`, inside 256 groups and behind
a crossing of the nesting limit.
-/
def crossedPlace : Cursor :=
  { rest := (TokenBuffer.ofSource "((1+)*3").tokens.drop 1
    sourceEnd := (TokenBuffer.ofSource "((1+)*3").sourceEnd
    depth := 256
    crossings := [Token.plain .openParen 0 "("]
    faults := [.nestingTooDeep 256 0] }

theorem read_terminates_isReadAt_crossedPlace :
    crossedPlace.IsAt (.ofSource "((1+)*3") 1 ∧
      crossedPlace.IsFlagged ∧
      (Task.whole .term crossedPlace).Terminates (some 256) ∧
      (read (some 256) .term crossedPlace).IsReadAt
        (.ofSource "((1+)*3") 1 .term crossedPlace := by
  have place : crossedPlace.IsAt (.ofSource "((1+)*3") 1 :=
    ⟨by decide +kernel, rfl, rfl⟩
  have flagged : crossedPlace.IsFlagged := by
    unfold Cursor.IsFlagged
    decide
  exact
    ⟨place, flagged,
      read_terminates_isReadAt place flagged (some 256) .term⟩

end Abacus.Grammar
