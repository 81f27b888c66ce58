import Abacus.Proofs.SyntaxTree.NestingLimit

/-!
# Depth

Two rules keep trees shallow.  A group is opened only while fewer groups than
the limit are open, and two operands are joined only if the result is no taller
than the limit.  Neither bounds the height of a tree alone, since parentheses
add to the height without being counted as a chain.  Together they do: on the
way down from any node there are at most as many groups as the limit allows, and
below the last of them nothing is taller than the limit.

The number of open groups is followed through all the tasks of a reading.  A
task is what `read` or `readChain` is called with, and `Task.Calls` has one rule
for each call that their equations make.  There are no other calls: what a task
results in depends on these alone (`Task.outcome_eq_result`).
-/

namespace Abacus

theorem Expression.NestsWithin.height_le
    {bound depth : Nat}
    {expression : Expression}
    (nests : expression.NestsWithin bound depth)
    (positive : 0 < bound) :
    expression.height ≤ bound + expression.groupDepth := by
  induction expression generalizing depth with
  | number literal =>
      simp only [height, groupDepth]
      omega
  | binary left operator right leftHypothesis rightHypothesis =>
      obtain ⟨-, -, low⟩ := nestsWithin_binary_iff.1 nests
      exact Nat.le_trans low (Nat.le_add_right _ _)
  | parenthesized opening inner closing hypothesis =>
      have inside :=
        hypothesis (nestsWithin_parenthesized_iff.1 nests)
      simp only [height, groupDepth]
      omega

namespace Grammar

/-! ## Nesting of what is read -/

theorem Parsed.nestsWithin_link
    {bound depth : Nat}
    {left right : Parsed}
    {operator : Token}
    (leftMeasured : left.IsMeasured)
    (rightMeasured : right.IsMeasured)
    (leftNests : left.expression.NestsWithin bound depth)
    (rightNests : right.expression.NestsWithin bound depth) :
    (link (some bound) left operator right).expression.NestsWithin
      bound depth := by
  cases exceeded :
      Limit.exceededBy? (some bound)
        (max left.height right.height + 1) with
  | some other =>
      rw [link_of_exceededBy?_eq_some operator exceeded]
      exact leftNests
  | none =>
      have low := Limit.exceededBy?_some_eq_none_iff.1 exceeded
      rw [leftMeasured, rightMeasured] at low
      rw [link_of_exceededBy?_eq_none operator exceeded]
      exact
        Expression.nestsWithin_binary_iff.2
          ⟨leftNests, rightNests, low⟩

/-- What is read under a limit nests within it, whatever the tokens are. -/
theorem nestsWithin_reading (bound : Nat) :
    (∀ rank (cursor : Cursor),
      cursor.depth ≤ bound →
        (read (some bound) rank cursor).expression.NestsWithin bound
          cursor.depth) ∧
      ∀ rank (left : Parsed),
        left.IsMeasured →
          left.expression.NestsWithin bound left.cursor.depth →
            (readChain (some bound) rank left).expression.NestsWithin
              bound left.cursor.depth := by
  apply reading_induction
  constructor
  case chain =>
    intro rank cursor first chain shallow
    have followed := follows_read (some bound) rank.operand cursor
    rw [followed.depth] at chain
    rw [read_eq_readChain]
    exact chain followed.measured (first shallow)
  case number =>
    intro cursor closed shallow
    rw [read_number _ closed]
    exact Expression.nestsWithin_number_iff.2 shallow
  case skipped =>
    intro cursor other opens exceeded shallow
    rw [read_skipped opens exceeded]
    exact Expression.nestsWithin_number_iff.2 shallow
  case group =>
    intro cursor opens within inner _
    have deeper := Limit.exceededBy?_some_eq_none_iff.1 within
    rw [read_group opens within]
    exact Expression.nestsWithin_parenthesized_iff.2 (inner deeper)
  case link =>
    intro rank left joins right chain measured nests
    have followed :=
      follows_read (some bound) rank.operand left.cursor.advance
    have rightNests :=
      right (Nat.le_trans (Nat.le_add_right _ _) nests.groups)
    rw [Parsed.depth_link, followed.depth] at chain
    rw [readChain_link _ joins]
    exact
      chain (measured.link followed.measured _ _)
        (Parsed.nestsWithin_link measured followed.measured nests
          rightNests)
  case stop =>
    intro rank left stops _ nests
    rw [readChain_stop _ stops]
    exact nests

/-! ## Open groups -/

/-- What a reading has to do at some place. -/
inductive Task where
  /-- An expression of a rank is to be read. -/
  | whole (rank : Rank) (cursor : Cursor)
  /-- The links behind a part of a chain are to be read. -/
  | links (rank : Rank) (left : Parsed)

namespace Task

/-- The place at which a task begins. -/
def cursor : Task → Cursor
  | .whole _ cursor => cursor
  | .links _ left => left.cursor

/-- What a task results in. -/
def result (limit : Limit) : Task → Parsed
  | .whole rank cursor => read limit rank cursor
  | .links rank left => readChain limit rank left

/-- The tasks that a task hands on. -/
inductive Calls (limit : Limit) : Task → Task → Prop where
  | operand
      {rank : Rank}
      {cursor : Cursor}
      (compound : rank ≠ .primary) :
      Calls limit (.whole rank cursor) (.whole rank.operand cursor)
  | chain
      {rank : Rank}
      {cursor : Cursor}
      (compound : rank ≠ .primary) :
      Calls limit (.whole rank cursor)
        (.links rank (read limit rank.operand cursor))
  | group
      {cursor : Cursor}
      (opens : cursor.current.kind = .openParen)
      (within : limit.exceededBy? (cursor.depth + 1) = none) :
      Calls limit (.whole .primary cursor)
        (.whole .term cursor.advance.enterGroup)
  | right
      {rank : Rank}
      {left : Parsed}
      (joins : rank.isJoinedBy left.cursor.current.kind = true) :
      Calls limit (.links rank left)
        (.whole rank.operand left.cursor.advance)
  | others
      {rank : Rank}
      {left : Parsed}
      (joins : rank.isJoinedBy left.cursor.current.kind = true) :
      Calls limit (.links rank left)
        (.links rank
          (.link limit left left.cursor.current
            (read limit rank.operand left.cursor.advance)))

/-- What a task results in, given the results of the tasks that it hands on. -/
def outcome (limit : Limit) (results : Task → Parsed) : Task → Parsed
  | .whole .primary cursor =>
      if cursor.current.kind = .openParen then
        match limit.exceededBy? (cursor.depth + 1) with
        | some bound => .skipped bound cursor
        | none =>
            .enclose cursor.current
              (results (.whole .term cursor.advance.enterGroup))
      else
        .literal cursor
  | .whole rank cursor =>
      results (.links rank (results (.whole rank.operand cursor)))
  | .links rank left =>
      if rank.isJoinedBy left.cursor.current.kind = true then
        results
          (.links rank
            (.link limit left left.cursor.current
              (results (.whole rank.operand left.cursor.advance))))
      else
        left

/-- The result of a task depends on the tasks that it hands on and no others. -/
theorem outcome_eq_result
    {limit : Limit}
    {results : Task → Parsed}
    {task : Task}
    (agree :
      ∀ next, task.Calls limit next → results next = next.result limit) :
    task.outcome limit results = task.result limit := by
  cases task with
  | whole rank cursor =>
      by_cases compound : rank ≠ .primary
      · rw [outcome, agree _ (.operand compound)]
        · exact
            (agree _ (.chain compound)).trans
              (read_eq_readChain limit rank cursor).symm
        · exact compound
      · obtain rfl := Classical.not_not.1 compound
        rw [outcome, result]
        split
        case isTrue opens =>
          cases exceeded : limit.exceededBy? (cursor.depth + 1) with
          | some bound => exact (read_skipped opens exceeded).symm
          | none =>
              rw [agree _ (.group opens exceeded)]
              exact (read_group opens exceeded).symm
        case isFalse closed => exact (read_number limit closed).symm
  | links rank left =>
      rw [outcome, result]
      split
      case isTrue joins =>
        rw [agree _ (.right joins)]
        exact
          (agree _ (.others joins)).trans (readChain_link limit joins).symm
      case isFalse stops =>
        rw [Bool.not_eq_true] at stops
        exact (readChain_stop limit stops).symm

/-- The tasks that come up in the course of a task. -/
inductive Reaches (limit : Limit) (first : Task) : Task → Prop where
  | start : Reaches limit first first
  | call
      {caller task : Task}
      (reached : Reaches limit first caller)
      (calls : Calls limit caller task) :
      Reaches limit first task

/-- The places at which a task leaves a group. -/
inductive Leaves (limit : Limit) : Task → Cursor → Prop where
  | group
      {cursor : Cursor}
      (opens : cursor.current.kind = .openParen)
      (within : limit.exceededBy? (cursor.depth + 1) = none) :
      Leaves limit (.whole .primary cursor)
        (read limit .term cursor.advance.enterGroup).cursor

/--
The places that a task passes, other than those of the tasks that it hands on:
its first and its last one, the ones right before a group is entered and right
after it is left, and the one before a group is skipped.
-/
inductive Passes (limit : Limit) : Task → Cursor → Prop where
  | start (task : Task) : Passes limit task task.cursor
  | finish (task : Task) :
      Passes limit task (task.result limit).cursor
  | opening
      {cursor : Cursor}
      (opens : cursor.current.kind = .openParen)
      (within : limit.exceededBy? (cursor.depth + 1) = none) :
      Passes limit (.whole .primary cursor) cursor.advance
  | closing
      {task : Task}
      {place : Cursor}
      (leaves : Leaves limit task place) :
      Passes limit task place.leaveGroup
  | crossing
      {cursor : Cursor}
      {bound : Nat}
      (opens : cursor.current.kind = .openParen)
      (exceeded :
        limit.exceededBy? (cursor.depth + 1) = some bound) :
      Passes limit (.whole .primary cursor)
        (cursor.cross bound cursor.current)

/-- Whether a task begins with no more open groups than a bound allows. -/
structure IsShallow (bound : Nat) (task : Task) : Prop where
  depth_le : task.cursor.depth ≤ bound
  measured :
    ∀ rank left, task = .links rank left → left.IsMeasured

theorem isShallow_whole
    {bound : Nat}
    {rank : Rank}
    {cursor : Cursor}
    (shallow : cursor.depth ≤ bound) :
    (whole rank cursor).IsShallow bound where
  depth_le := shallow
  measured := by
    intro rank left same
    contradiction

theorem isShallow_links
    {bound : Nat}
    {rank : Rank}
    {left : Parsed}
    (shallow : left.cursor.depth ≤ bound)
    (measured : left.IsMeasured) :
    (links rank left).IsShallow bound where
  depth_le := shallow
  measured := by
    rintro rank left ⟨⟩
    exact measured

variable
    {bound : Nat}
    {task next : Task}

/-- A task ends with as many open groups as it began with. -/
theorem IsShallow.depth_result
    (shallow : task.IsShallow bound)
    (limit : Limit) :
    (task.result limit).cursor.depth = task.cursor.depth := by
  cases task with
  | whole rank cursor => exact (follows_read limit rank cursor).depth
  | links rank left =>
      have measured := shallow.measured rank left rfl
      exact (follows_readChain limit rank measured).depth

/-- The tasks that a task hands on begin within the limit if it does. -/
theorem IsShallow.of_calls
    (shallow : task.IsShallow bound)
    (calls : task.Calls (some bound) next) :
    next.IsShallow bound := by
  have depth := shallow.depth_le
  cases calls with
  | operand compound => exact isShallow_whole depth
  | @chain rank cursor compound =>
      have followed := follows_read (some bound) rank.operand cursor
      refine isShallow_links ?_ followed.measured
      rw [followed.depth]
      exact depth
  | group opens within =>
      exact
        isShallow_whole
          (Limit.exceededBy?_some_eq_none_iff.1 within)
  | right joins => exact isShallow_whole depth
  | @others rank left joins =>
      have followed :=
        follows_read (some bound) rank.operand left.cursor.advance
      have measured := shallow.measured rank left rfl
      refine
        isShallow_links ?_
          (measured.link followed.measured (some bound) _)
      rw [Parsed.depth_link, followed.depth]
      exact depth

theorem IsShallow.of_reaches
    (shallow : task.IsShallow bound)
    (reaches : task.Reaches (some bound) next) :
    next.IsShallow bound := by
  induction reaches with
  | start => exact shallow
  | call reached calls hypothesis => exact hypothesis.of_calls calls

/-- A group that is left has been entered before. -/
theorem Leaves.depth_eq
    {limit : Limit}
    {place : Cursor}
    (leaves : task.Leaves limit place) :
    place.depth = task.cursor.depth + 1 := by
  cases leaves with
  | group opens within => exact (follows_read limit .term _).depth

/-- Nowhere in a task are more groups open than the limit allows. -/
theorem IsShallow.depth_le_of_passes
    {place : Cursor}
    (shallow : task.IsShallow bound)
    (passes : task.Passes (some bound) place) :
    place.depth ≤ bound := by
  have depth := shallow.depth_le
  cases passes with
  | start => exact depth
  | finish =>
      rw [shallow.depth_result (some bound)]
      exact depth
  | opening opens within => exact depth
  | closing leaves =>
      change _ - 1 ≤ bound
      rw [leaves.depth_eq]
      exact depth
  | crossing opens exceeded => exact depth

end Task

end Grammar

open Grammar

namespace TokenBuffer

/-- The task of reading a buffer. -/
def task (buffer : TokenBuffer) : Task :=
  .whole .term (.start buffer)

variable {buffer : TokenBuffer}

theorem isShallow_of_reaches
    {bound : Nat}
    {task : Task}
    (reaches : buffer.task.Reaches (some bound) task) :
    task.IsShallow bound := by
  have first : buffer.task.IsShallow bound :=
    Task.isShallow_whole (Nat.zero_le bound)
  exact first.of_reaches reaches

theorem nestsWithin_root
    (bound : Nat)
    (buffer : TokenBuffer) :
    (buffer.parseWithin (some bound)).root.NestsWithin bound 0 :=
  (nestsWithin_reading bound).1 .term (.start buffer)
    (Nat.zero_le bound)

end TokenBuffer

/--
No tree is deep.  Its chains of operators are no taller than the limit and there
are no more groups inside each other, so it is at most twice as tall as the
limit, and only groups are taller than it.  While it is read, no more groups are
open than the limit allows, and a group is left only if one is open.
-/
theorem SyntaxTree.ofSource_shallow (source : String) :
    (∀ part ∈ (ofSource source).root.parts,
        part.nodeKind = .binary → part.height ≤ maxNestingDepth) ∧
      (ofSource source).root.groupDepth ≤ maxNestingDepth ∧
      (ofSource source).root.height ≤ 2 * maxNestingDepth ∧
      (∀ part ∈ (ofSource source).root.parts,
        maxNestingDepth < part.height →
          part.nodeKind = .parenthesized) ∧
      ∀ task,
        (TokenBuffer.ofSource source).task.Reaches
            (some maxNestingDepth) task →
          (∀ place,
            task.Passes (some maxNestingDepth) place →
              place.depth ≤ maxNestingDepth) ∧
          ∀ place,
            task.Leaves (some maxNestingDepth) place →
              0 < place.depth := by
  have nests :=
    TokenBuffer.nestsWithin_root maxNestingDepth
      (TokenBuffer.ofSource source)
  have groups := nests.groups
  rw [Nat.zero_add] at groups
  refine ⟨nests.chains, groups, ?_, ?_, ?_⟩
  · have height := nests.height_le (by decide)
    exact
      Nat.le_trans height
        (Nat.le_trans (Nat.add_le_add_left groups _)
          (Nat.le_of_eq (Nat.two_mul _).symm))
  · intro part member tall
    cases part with
    | number literal => contradiction
    | binary left operator right =>
        have low := nests.chains _ member rfl
        exact (Nat.not_le_of_lt tall low).elim
    | parenthesized opening inner closing => rfl
  · intro task reaches
    have shallow := TokenBuffer.isShallow_of_reaches reaches
    refine ⟨fun place => shallow.depth_le_of_passes, ?_⟩
    intro place leaves
    rw [leaves.depth_eq]
    exact Nat.succ_pos _

end Abacus
