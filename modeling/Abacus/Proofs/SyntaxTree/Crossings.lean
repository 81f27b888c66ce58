import Abacus.Proofs.Grammar.Groups
import Abacus.Proofs.SyntaxTree.Recovery
import Abacus.Proofs.SyntaxTree.Depth
import Abacus.Proofs.Token.Layout

/-!
# The crossing that is reported

The nesting limit is crossed at a parenthesis before its group is read, but at an
operator only when its right operand has been read.  So an operator is overtaken
if the limit is crossed inside its right operand: that crossing is found first,
although it stands further on in the source.

Only the crossing that is found first is reported.  The crossings that stand
before it are exactly the operators that it overtakes, and there are sources with
such operators.
-/

namespace Abacus

namespace Grammar

variable {limit : Limit}

/-! ## Crossings and tokens that are taken -/

/-- What a list ends with, every list ends with that goes on to be that list. -/
theorem getLast?_of_suffix
    {element : Type}
    {last : element}
    {earlier later : List element}
    (suffix : earlier <:+ later)
    (ends : earlier.getLast? = some last) :
    later.getLast? = some last := by
  obtain ⟨found, rfl⟩ := suffix
  rw [List.getLast?_append, ends]
  rfl

theorem eq_of_getLast?
    {element : Type}
    {last other : element}
    {earlier later : List element}
    (suffix : earlier <:+ later)
    (ends : earlier.getLast? = some last)
    (otherEnds : later.getLast? = some other) :
    last = other :=
  Option.some.inj ((getLast?_of_suffix suffix ends).symm.trans otherEnds)

namespace Cursor

/--
Whether the crossings that are found between two places are among the tokens that
are taken between them.
-/
def CrossesTaken (before after : Cursor) : Prop :=
  ∃ taken found,
    before.rest = taken ++ after.rest ∧
      after.crossings = found ++ before.crossings ∧
      found ⊆ taken

variable {before middle after : Cursor}

theorem CrossesTaken.suffix
    (crosses : before.CrossesTaken after) :
    before.crossings <:+ after.crossings := by
  obtain ⟨taken, found, -, crossings, -⟩ := crosses
  exact ⟨found, crossings.symm⟩

theorem CrossesTaken.rest
    (crosses : before.CrossesTaken after) :
    after.rest <:+ before.rest := by
  obtain ⟨taken, found, rest, -, -⟩ := crosses
  exact ⟨taken, rest.symm⟩

theorem CrossesTaken.trans
    (left : before.CrossesTaken middle)
    (right : middle.CrossesTaken after) :
    before.CrossesTaken after := by
  obtain ⟨taken, found, rest, crossings, inside⟩ := left
  obtain ⟨laterTaken, laterFound, laterRest, later, laterInside⟩ :=
    right
  refine ⟨taken ++ laterTaken, laterFound ++ found, ?_, ?_, ?_⟩
  · rw [rest, laterRest, List.append_assoc]
  · rw [later, crossings, List.append_assoc]
  · exact
      List.append_subset.2
        ⟨List.subset_append_of_subset_right _ laterInside,
          List.subset_append_of_subset_left _ inside⟩

/-- Tokens may be taken without a crossing. -/
theorem Precedes.crossesTaken
    (precedes : before.Precedes after)
    (same : after.crossings = before.crossings) :
    before.CrossesTaken after := by
  obtain ⟨taken, rest⟩ := precedes.rest
  exact ⟨taken, [], rest.symm, same, List.nil_subset _⟩

theorem CrossesTaken.refl (cursor : Cursor) :
    cursor.CrossesTaken cursor :=
  (Precedes.refl cursor).crossesTaken rfl

theorem crossesTaken_enterGroup (cursor : Cursor) :
    cursor.CrossesTaken cursor.advance.enterGroup :=
  (cursor.precedes_advance.trans
    cursor.advance.precedes_enterGroup).crossesTaken rfl

/-- A group that is skipped is crossed at its first token. -/
theorem crossesTaken_skipped
    {cursor : Cursor}
    (opens : cursor.current.kind = .openParen)
    (bound : Nat) :
    cursor.CrossesTaken (Parsed.skipped bound cursor).cursor := by
  obtain ⟨skipped, split, skips⟩ := exists_skipsGroup opens
  obtain ⟨opening, others, rfl, -⟩ := skips.begins
  have first : cursor.current = opening := by
    unfold current
    rw [split]
    rfl
  refine ⟨opening :: others, [cursor.current], split, rfl, ?_⟩
  rw [first]
  exact List.cons_subset_cons _ (List.nil_subset _)

/-- A link is crossed at its operator, which is taken before the right operand. -/
theorem crossesTaken_link
    {left right : Parsed}
    (unfinished : left.cursor.current.kind ≠ .endOfFile)
    (crosses : left.cursor.advance.CrossesTaken right.cursor)
    (limit : Limit) :
    left.cursor.CrossesTaken
      (Parsed.link limit left left.cursor.current right).cursor := by
  have shape := left.cursor.rest_eq_current_cons unfinished
  obtain ⟨taken, found, rest, crossings, inside⟩ := crosses
  have split :
      left.cursor.rest =
        left.cursor.current :: taken ++ right.cursor.rest := by
    rw [shape, rest]
    rfl
  rcases Parsed.link_cases limit left left.cursor.current right with
    joined | ⟨bound, crossed⟩
  · rw [joined]
    exact
      ⟨_, found, split, crossings, List.subset_cons_of_subset _ inside⟩
  · rw [crossed]
    exact
      ⟨_, left.cursor.current :: found, split,
        congrArg (left.cursor.current :: ·) crossings,
        List.cons_subset_cons _ inside⟩

/-- The crossing that is found first is at one of the tokens that are taken. -/
theorem CrossesTaken.exists_taken
    {first : Token}
    (crosses : before.CrossesTaken after)
    (uncrossed : before.crossings = [])
    (isFirst : after.crossings.getLast? = some first) :
    ∃ taken, before.rest = taken ++ after.rest ∧ first ∈ taken := by
  obtain ⟨taken, found, rest, crossings, inside⟩ := crosses
  have last := List.mem_of_getLast? isFirst
  rw [crossings, uncrossed, List.append_nil] at last
  exact ⟨taken, rest, inside last⟩

end Cursor

open Cursor in
/-- Every crossing that a reading finds is at a token that it takes. -/
theorem crossesTaken_reading (limit : Limit) :
    (∀ rank (cursor : Cursor),
      cursor.CrossesTaken (read limit rank cursor).cursor) ∧
      ∀ rank (left : Parsed),
        left.cursor.CrossesTaken
          (readChain limit rank left).cursor := by
  apply reading_induction
  constructor
  case chain =>
    intro rank cursor first chain
    rw [read_eq_readChain]
    exact first.trans chain
  case number =>
    intro cursor closed
    rw [read_number limit closed]
    exact
      (cursor.precedes_expect .number).crossesTaken
        (cursor.crossings_expect .number)
  case skipped =>
    intro cursor bound opens exceeded
    rw [read_skipped opens exceeded]
    exact crossesTaken_skipped opens bound
  case group =>
    intro cursor opens within inner
    have closing :=
      (Parsed.precedes_enclose cursor.current
        (read limit .term cursor.advance.enterGroup)).crossesTaken
        (Parsed.crossings_enclose _ _)
    rw [read_group opens within]
    exact (crossesTaken_enterGroup cursor).trans (inner.trans closing)
  case link =>
    intro rank left joins right chain
    have unfinished := Rank.ne_endOfFile_of_isJoinedBy joins
    rw [readChain_link limit joins]
    exact (crossesTaken_link unfinished right limit).trans chain
  case stop =>
    intro rank left stops
    rw [readChain_stop limit stops]
    exact CrossesTaken.refl left.cursor

/-! ## The crossings of a task -/

namespace Task

/--
The token at which a task crosses the nesting limit: the parenthesis of a group
that is skipped, or the operator of a link that is dropped.
-/
inductive Crosses (limit : Limit) : Task → Token → Prop where
  | group
      {cursor : Cursor}
      {bound : Nat}
      (opens : cursor.current.kind = .openParen)
      (exceeded :
        limit.exceededBy? (cursor.depth + 1) = some bound) :
      Crosses limit (.whole .primary cursor) cursor.current
  | link
      {rank : Rank}
      {left : Parsed}
      {bound : Nat}
      (joins : rank.isJoinedBy left.cursor.current.kind = true)
      (exceeded :
        limit.exceededBy?
            (max left.height
                (read limit rank.operand left.cursor.advance).height +
              1) =
          some bound) :
      Crosses limit (.links rank left) left.cursor.current

/--
The operator of a link that is dropped, if a crossing has been found in its right
operand and none before.
-/
inductive Overtakes (limit : Limit) : Task → Token → Prop where
  | link
      {rank : Rank}
      {left : Parsed}
      {operator : Token}
      (crosses : Crosses limit (.links rank left) operator)
      (uncrossed : left.cursor.crossings = [])
      (crossed :
        (read limit rank.operand
          left.cursor.advance).cursor.crossings ≠ []) :
      Overtakes limit (.links rank left) operator

variable
    {task next : Task}
    {token : Token}

/-- A crossing is at the current token. -/
theorem Crosses.rest_eq_cons
    (crosses : task.Crosses limit token) :
    ∃ others, task.cursor.rest = token :: others := by
  cases crosses with
  | @group cursor bound opens exceeded =>
      exact ⟨_, cursor.rest_eq_current_cons (by simp [opens])⟩
  | @link rank left bound joins exceeded =>
      have unfinished := Rank.ne_endOfFile_of_isJoinedBy joins
      exact ⟨_, left.cursor.rest_eq_current_cons unfinished⟩

theorem crossesTaken_result
    (limit : Limit)
    (task : Task) :
    task.cursor.CrossesTaken (task.result limit).cursor := by
  cases task with
  | whole rank cursor => exact (crossesTaken_reading limit).1 rank cursor
  | links rank left => exact (crossesTaken_reading limit).2 rank left

/-- The crossings found before a task is handed on are at tokens taken till then. -/
theorem crossesTaken_of_calls
    (calls : task.Calls limit next) :
    task.cursor.CrossesTaken next.cursor := by
  cases calls with
  | @operand rank cursor compound =>
      exact Cursor.CrossesTaken.refl cursor
  | @chain rank cursor compound =>
      exact (crossesTaken_reading limit).1 rank.operand cursor
  | @group cursor opens within =>
      exact cursor.crossesTaken_enterGroup
  | @right rank left joins =>
      exact left.cursor.precedes_advance.crossesTaken rfl
  | @others rank left joins =>
      have unfinished := Rank.ne_endOfFile_of_isJoinedBy joins
      have right :=
        (crossesTaken_reading limit).1 rank.operand
          left.cursor.advance
      exact Cursor.crossesTaken_link unfinished right limit

/-- The crossings found in a task are found in those that hand it on. -/
theorem crossings_suffix_of_calls
    (calls : task.Calls limit next) :
    (next.result limit).cursor.crossings <:+
      (task.result limit).cursor.crossings := by
  cases calls with
  | @operand rank cursor compound =>
      simp only [result]
      rw [read_eq_readChain limit rank]
      exact ((crossesTaken_reading limit).2 rank _).suffix
  | @chain rank cursor compound =>
      refine ⟨[], ?_⟩
      simp only [result]
      rw [List.nil_append, read_eq_readChain limit rank]
  | @group cursor opens within =>
      refine ⟨[], ?_⟩
      simp only [result]
      rw [List.nil_append, read_group opens within,
        Parsed.crossings_enclose]
  | @right rank left joins =>
      simp only [result]
      rw [readChain_link limit joins]
      exact
        (Parsed.precedes_link limit left _ _).crossings.trans
          ((crossesTaken_reading limit).2 rank _).suffix
  | @others rank left joins =>
      refine ⟨[], ?_⟩
      simp only [result]
      rw [List.nil_append, readChain_link limit joins]

theorem crossesTaken_of_reaches
    (reaches : task.Reaches limit next) :
    task.cursor.CrossesTaken next.cursor := by
  induction reaches with
  | start => exact Cursor.CrossesTaken.refl task.cursor
  | call reached calls hypothesis =>
      exact hypothesis.trans (crossesTaken_of_calls calls)

theorem crossings_suffix_of_reaches
    (reaches : task.Reaches limit next) :
    (next.result limit).cursor.crossings <:+
      (task.result limit).cursor.crossings := by
  induction reaches with
  | start => exact List.suffix_refl _
  | call reached calls hypothesis =>
      exact (crossings_suffix_of_calls calls).trans hypothesis

/-- What comes up in a task that is handed on comes up before. -/
theorem Reaches.of_calls
    {last : Task}
    (calls : task.Calls limit next)
    (reaches : next.Reaches limit last) :
    task.Reaches limit last := by
  induction reaches with
  | start => exact .call .start calls
  | call reached calls hypothesis => exact .call hypothesis calls

/-- Whether the nesting limit is crossed at a token in the course of a task. -/
def CrossesWithin
    (limit : Limit)
    (task : Task)
    (token : Token) :
    Prop :=
  ∃ next, task.Reaches limit next ∧ next.Crosses limit token

theorem CrossesWithin.of_calls
    (calls : task.Calls limit next)
    (crosses : next.CrossesWithin limit token) :
    task.CrossesWithin limit token := by
  obtain ⟨last, reaches, crosses⟩ := crosses
  exact ⟨last, reaches.of_calls calls, crosses⟩

theorem Crosses.crossesWithin
    (crosses : task.Crosses limit token) :
    task.CrossesWithin limit token :=
  ⟨task, .start, crosses⟩

end Task

/-- Whatever a reading records as a crossing is one. -/
theorem crossesWithin_reading (limit : Limit) :
    (∀ rank (cursor : Cursor),
      ∀ token ∈ (read limit rank cursor).cursor.crossings,
        token ∈ cursor.crossings ∨
          (Task.whole rank cursor).CrossesWithin limit token) ∧
      ∀ rank (left : Parsed),
        ∀ token ∈ (readChain limit rank left).cursor.crossings,
          token ∈ left.cursor.crossings ∨
            (Task.links rank left).CrossesWithin limit token := by
  apply reading_induction
  constructor
  case chain =>
    intro rank cursor first chain token member
    by_cases compound : rank = .primary
    · subst compound
      exact first token member
    · rw [read_eq_readChain] at member
      rcases chain token member with earlier | later
      · exact
          (first token earlier).imp_right
            (Task.CrossesWithin.of_calls (.operand compound))
      · exact Or.inr (later.of_calls (.chain compound))
  case number =>
    intro cursor closed token member
    rw [read_number limit closed] at member
    exact Or.inl ((cursor.crossings_expect .number) ▸ member)
  case skipped =>
    intro cursor bound opens exceeded token member
    rw [read_skipped opens exceeded] at member
    rcases List.mem_cons.1 member with rfl | before
    · exact Or.inr (Task.Crosses.group opens exceeded).crossesWithin
    · exact Or.inl before
  case group =>
    intro cursor opens within inner token member
    rw [read_group opens within, Parsed.crossings_enclose] at member
    exact
      (inner token member).imp_right
        (Task.CrossesWithin.of_calls (.group opens within))
  case link =>
    intro rank left joins right chain token member
    rw [readChain_link limit joins] at member
    rcases chain token member with earlier | later
    · have inOperand :
          token ∈
              (read limit rank.operand
                left.cursor.advance).cursor.crossings →
            token ∈ left.cursor.crossings ∨
              (Task.links rank left).CrossesWithin limit token :=
        fun found =>
          (right token found).imp_right
            (Task.CrossesWithin.of_calls (.right joins))
      cases exceeded :
          limit.exceededBy?
            (max left.height
                (read limit rank.operand left.cursor.advance).height +
              1) with
      | none =>
          rw [Parsed.link_of_exceededBy?_eq_none _ exceeded] at earlier
          exact inOperand earlier
      | some bound =>
          rw [Parsed.link_of_exceededBy?_eq_some _ exceeded] at earlier
          rcases List.mem_cons.1 earlier with rfl | found
          · exact Or.inr (Task.Crosses.link joins exceeded).crossesWithin
          · exact inOperand found
    · exact Or.inr (later.of_calls (.others joins))
  case stop =>
    intro rank left stops token member
    rw [readChain_stop limit stops] at member
    exact Or.inl member

/-! ## The crossing that is found first -/

namespace Task

variable
    {task : Task}
    {token : Token}

/--
If no crossing has been found before one, then it is the first to be found, unless
it is overtaken.
-/
theorem Crosses.overtakes_or_getLast?
    (crosses : task.Crosses limit token)
    (uncrossed : task.cursor.crossings = []) :
    task.Overtakes limit token ∨
      (task.result limit).cursor.crossings.getLast? = some token := by
  cases crosses with
  | @group cursor bound opens exceeded =>
      have found :
          (read limit .primary cursor).cursor.crossings =
            cursor.current :: cursor.crossings := by
        rw [read_skipped opens exceeded]
        rfl
      right
      rw [result, found]
      change cursor.crossings = [] at uncrossed
      rw [uncrossed]
      rfl
  | @link rank left bound joins exceeded =>
      by_cases crossed :
          (read limit rank.operand
            left.cursor.advance).cursor.crossings = []
      · right
        refine
          getLast?_of_suffix
            (crossings_suffix_of_calls (.others joins)) ?_
        refine
          getLast?_of_suffix (crossesTaken_result limit _).suffix ?_
        simp only [cursor]
        rw [Parsed.link_of_exceededBy?_eq_some _ exceeded]
        simp only [Cursor.cross, crossed]
        rfl
      · exact Or.inl (.link (.link joins exceeded) uncrossed crossed)

/-- An operator that is overtaken stands before the crossing found first. -/
theorem Overtakes.exists_first
    (overtakes : task.Overtakes limit token)
    (ordered :
      task.cursor.rest.Pairwise
        fun earlier later => earlier.position < later.position) :
    ∃ first,
      (task.result limit).cursor.crossings.getLast? = some first ∧
        token.position < first.position := by
  cases overtakes with
  | @link rank left _ crosses uncrossed crossed =>
      cases crosses with
      | link joins exceeded =>
          have unfinished := Rank.ne_endOfFile_of_isJoinedBy joins
          have inOperand :=
            (crossesTaken_reading limit).1 rank.operand
              left.cursor.advance
          have ends := List.getLast?_eq_some_getLast crossed
          obtain ⟨taken, rest, member⟩ :=
            inOperand.exists_taken uncrossed ends
          change left.cursor.rest.Pairwise _ at ordered
          rw [left.cursor.rest_eq_current_cons unfinished, rest]
            at ordered
          exact
            ⟨_,
              getLast?_of_suffix
                (crossings_suffix_of_calls (.right joins)) ends,
              (List.pairwise_cons.1 ordered).1 _
                (List.mem_append_left _ member)⟩

/-- Whether an operator is overtaken in the course of a task. -/
def OvertakesWithin
    (limit : Limit)
    (task : Task)
    (token : Token) :
    Prop :=
  ∃ next, task.Reaches limit next ∧ next.Overtakes limit token

theorem Overtakes.crosses
    (overtakes : task.Overtakes limit token) :
    task.Crosses limit token := by
  cases overtakes with
  | link crosses uncrossed crossed => exact crosses

/--
In a task that begins without a crossing, the crossings that stand before the one
found first are the operators that are overtaken.  Where they stand no crossing has
been found, or the first one would have been taken before them.
-/
theorem crossesWithin_before_iff
    {first : Token}
    (uncrossed : task.cursor.crossings = [])
    (ordered :
      task.cursor.rest.Pairwise
        fun earlier later => earlier.position < later.position)
    (isFirst :
      (task.result limit).cursor.crossings.getLast? = some first) :
    task.CrossesWithin limit token ∧
        token.position < first.position ↔
      task.OvertakesWithin limit token := by
  constructor
  · rintro ⟨⟨next, reaches, crosses⟩, before⟩
    have taken := crossesTaken_of_reaches reaches
    have later := crossings_suffix_of_reaches reaches
    have inside := (crossesTaken_result limit next).suffix
    have fresh : next.cursor.crossings = [] := by
      refine Classical.byContradiction fun crossed => ?_
      have ends := List.getLast?_eq_some_getLast crossed
      obtain ⟨passed, rest, member⟩ :=
        taken.exists_taken uncrossed ends
      obtain ⟨others, shape⟩ := crosses.rest_eq_cons
      rw [eq_of_getLast? (inside.trans later) ends isFirst] at member
      rw [rest, shape] at ordered
      have behind : first.position < token.position :=
        (List.pairwise_append.1 ordered).2.2 first member token
          (List.mem_cons_self ..)
      exact Nat.lt_asymm before behind
    rcases crosses.overtakes_or_getLast? fresh with overtakes | ends
    · exact ⟨next, reaches, overtakes⟩
    · rw [eq_of_getLast? later ends isFirst] at before
      exact (Nat.lt_irrefl _ before).elim
  · rintro ⟨next, reaches, overtakes⟩
    have left := (crossesTaken_of_reaches reaches).rest.sublist
    have later := crossings_suffix_of_reaches reaches
    obtain ⟨other, ends, before⟩ :=
      overtakes.exists_first (ordered.sublist left)
    rw [eq_of_getLast? later ends isFirst] at before
    exact ⟨⟨next, reaches, overtakes.crosses⟩, before⟩

end Task

/-! ## The crossing that is reported -/

/-- The nesting limit is reported at the crossing that was found first. -/
def Cursor.ReportsFirst (cursor : Cursor) : Prop :=
  ∀ bound position,
    .nestingTooDeep bound position ∈ cursor.faults →
      ∃ first,
        cursor.crossings.getLast? = some first ∧
          first.position = position

theorem Cursor.ReportsFirst.expect
    {cursor : Cursor}
    (reports : cursor.ReportsFirst)
    (expected : Token.Kind) :
    (cursor.expect expected).2.ReportsFirst := by
  intro bound position member
  rw [cursor.crossings_expect]
  rcases cursor.expect_cases expected with ⟨_, taken⟩ | ⟨_, absent⟩
  · rw [taken] at member
    exact reports bound position member
  · rw [absent] at member
    rcases List.mem_cons.1 member with unexpected | earlier
    · contradiction
    · exact reports bound position earlier

theorem Cursor.ReportsFirst.cross
    {cursor : Cursor}
    (reports : cursor.ReportsFirst)
    (bound : Nat)
    (token : Token) :
    (cursor.cross bound token).ReportsFirst := by
  have earlier :
      ∀ other position,
        .nestingTooDeep other position ∈ cursor.faults →
          ∃ first,
            (cursor.cross bound token).crossings.getLast? =
                some first ∧
              first.position = position := by
    intro other position member
    obtain ⟨first, ends, same⟩ := reports other position member
    exact
      ⟨first,
        getLast?_of_suffix
          (cursor.precedes_cross bound token).crossings ends,
        same⟩
  intro other position member
  cases already : cursor.isTooDeep with
  | true =>
      simp only [Cursor.cross, already, if_true] at member
      exact earlier other position member
  | false =>
      have uncrossed : cursor.crossings = [] := by
        simpa [isTooDeep] using already
      simp only [Cursor.cross, already] at member
      rcases List.mem_cons.1 member with same | before
      · obtain ⟨-, rfl⟩ := Diagnostic.nestingTooDeep.inj same
        refine ⟨token, ?_, rfl⟩
        rw [Cursor.cross, uncrossed]
        rfl
      · exact earlier other position before

theorem reportsFirst_reading (limit : Limit) :
    (∀ rank (cursor : Cursor),
      cursor.ReportsFirst →
        (read limit rank cursor).cursor.ReportsFirst) ∧
      ∀ rank (left : Parsed),
        left.cursor.ReportsFirst →
          (readChain limit rank left).cursor.ReportsFirst := by
  apply reading_induction
  constructor
  case chain =>
    intro rank cursor first chain reports
    rw [read_eq_readChain]
    exact chain (first reports)
  case number =>
    intro cursor closed reports
    rw [read_number limit closed]
    exact reports.expect .number
  case skipped =>
    intro cursor bound opens exceeded reports
    rw [read_skipped opens exceeded]
    exact reports.cross bound cursor.current
  case group =>
    intro cursor opens within inner reports
    have inside :
        (read limit .term
          cursor.advance.enterGroup).cursor.leaveGroup.ReportsFirst :=
      inner reports
    rw [read_group opens within]
    exact inside.expect .closeParen
  case link =>
    intro rank left joins right chain reports
    rw [readChain_link limit joins]
    apply chain
    rcases Parsed.link_cases limit left left.cursor.current
        (read limit rank.operand left.cursor.advance) with
      joined | ⟨bound, crossed⟩
    · rw [joined]
      exact right reports
    · rw [crossed]
      exact (right reports).cross bound left.cursor.current
  case stop =>
    intro rank left stops reports
    rw [readChain_stop limit stops]
    exact reports

end Grammar

open Grammar

namespace TokenBuffer

variable {buffer : TokenBuffer}

theorem IsScanned.exists_first_of_reported
    {limit : Limit}
    {bound position : Nat}
    (scanned : buffer.IsScanned)
    (reported :
      .nestingTooDeep bound position ∈
        (buffer.parseWithin limit).diagnostics) :
    ∃ first,
      (buffer.task.result limit).cursor.crossings.getLast? =
          some first ∧
        first.position = position := by
  have start : (Cursor.start buffer).ReportsFirst := by
    intro other place member
    have lexical := scanned.lexical _ (List.mem_reverse.1 member)
    contradiction
  have finish :=
    ((reportsFirst_reading limit).1 .term _ start).expect .endOfFile
  rw [diagnostics_parseWithin, List.mem_reverse] at reported
  obtain ⟨first, ends, same⟩ := finish bound position reported
  rw [Cursor.crossings_expect] at ends
  exact ⟨first, ends, same⟩

/-- Whatever a buffer's reading records as a crossing is one. -/
theorem crossesWithin_task
    {limit : Limit}
    {token : Token}
    (member :
      token ∈ (buffer.task.result limit).cursor.crossings) :
    buffer.task.CrossesWithin limit token := by
  rcases (crossesWithin_reading limit).1 .term (.start buffer) token
      member with
    before | crosses
  · contradiction
  · exact crosses

end TokenBuffer

/-! ## A sum with too many groups -/

/-- The text of `1+((1))`, with so many groups instead of two. -/
def nestedSum (groups : Nat) : String :=
  String.ofList
    ('1' :: '+' ::
      (List.replicate groups '(' ++
        '1' :: List.replicate groups ')'))

/-- The tokens of `1+((1))`, with so many groups instead of two. -/
def nestedSumTokens (groups : Nat) : List Token :=
  .number 0 "1" (some 1) :: .plain .plus 1 "+" ::
    ((List.range' 2 groups).map (fun place => .plain .openParen place "(") ++
      .number (2 + groups) "1" (some 1) ::
        (List.range' (2 + groups + 1) groups).map
          (fun place => .plain .closeParen place ")"))

theorem tiling_nestedSum (groups : Nat) :
    Token.Tiling 0 (nestedSum groups).toList
      (nestedSumTokens groups) := by
  have closing :
      Token.Tiling (2 + groups + 1) (List.replicate groups ')')
        ((List.range' (2 + groups + 1) groups).map
          fun place => .plain .closeParen place ")") := by
    rw [← List.append_nil (List.replicate groups ')')]
    rw [← List.append_nil (List.map _ _)]
    exact .replicate rfl (.nil _)
  have inner :
      Token.Tiling (2 + groups) ('1' :: List.replicate groups ')')
        (.number (2 + groups) "1" (some 1) ::
          (List.range' (2 + groups + 1) groups).map
            fun place => .plain .closeParen place ")") := by
    refine @Token.Tiling.cons _ '1' [] _ _ (by simp) ?_ closing
    intro character member
    rw [List.head?_replicate] at member
    split at member
    · contradiction
    · obtain rfl := Option.some.inj member
      rfl
  have opening :
      Token.Tiling 2
        (List.replicate groups '(' ++ '1' :: List.replicate groups ')')
        ((nestedSumTokens groups).drop 2) :=
    .replicate rfl inner
  have behind :
      Token.Tiling 1
        ('+' :: (List.replicate groups '(' ++
          '1' :: List.replicate groups ')'))
        (nestedSumTokens groups).tail :=
    @Token.Tiling.cons _ '+' [] _ _ (by simp) (fun _ _ => rfl) opening
  rw [nestedSum, String.toList_ofList]
  refine @Token.Tiling.cons _ '1' [] _ _ (by simp) ?_ behind
  intro character member
  obtain rfl := Option.some.inj member
  rfl

theorem of_mem_nestedSumTokens
    {groups : Nat}
    (source : String) :
    ∀ token ∈ nestedSumTokens groups,
      token.kind.isSignificant = true ∧
        token.lexicalFault? source = none := by
  intro token member
  simp only [nestedSumTokens, List.mem_cons, List.mem_append,
    List.mem_map] at member
  rcases member with
      rfl | rfl | ⟨place, -, rfl⟩ | rfl | ⟨place, -, rfl⟩ <;>
    exact ⟨rfl, rfl⟩

theorem TokenBuffer.ofSource_nestedSum (groups : Nat) :
    ofSource (nestedSum groups) =
      { tokens := nestedSumTokens groups
        sourceEnd := (nestedSum groups).utf8ByteSize
        diagnostics := [] } := by
  have known :=
    @of_mem_nestedSumTokens groups (nestedSum groups)
  rw [ofSource_eq_of_tiling (tiling_nestedSum groups),
    List.filter_eq_self.2 fun token member => (known token member).1,
    List.filterMap_eq_nil_iff.2 fun token member =>
      (known token member).2]

/-- Of 257 groups the innermost one is crossed first, and then the sum. -/
theorem SyntaxTree.ofSource_nestedSum :
    (ofSource (nestedSum 257)).diagnostics =
        [.nestingTooDeep maxNestingDepth 258] ∧
      ((TokenBuffer.ofSource (nestedSum 257)).task.result
          (some maxNestingDepth)).cursor.crossings.map
        Token.position = [1, 258] := by
  unfold ofSource
  rw [TokenBuffer.ofSource_nestedSum]
  decide +kernel

/-! ## The report and the source -/

namespace SyntaxTree

/--
The nesting limit is reported at the crossing that is found first.  What is
crossed before it in the source are exactly the operators that it overtakes: those
whose links are dropped, and in whose right operands it was found.
-/
theorem ofSource_reports_first_found
    {source : String}
    {bound position : Nat}
    (reported :
      .nestingTooDeep bound position ∈ (ofSource source).diagnostics) :
    (∃ first,
        (TokenBuffer.ofSource source).task.CrossesWithin
            (some maxNestingDepth) first ∧
          first.position = position) ∧
      ∀ token,
        (TokenBuffer.ofSource source).task.CrossesWithin
              (some maxNestingDepth) token ∧
            token.position < position ↔
          (TokenBuffer.ofSource source).task.OvertakesWithin
            (some maxNestingDepth) token := by
  have scanned := TokenBuffer.isScanned_ofSource source
  obtain ⟨first, isFirst, rfl⟩ :=
    scanned.exists_first_of_reported reported
  constructor
  · have member := List.mem_of_getLast? isFirst
    exact ⟨first, TokenBuffer.crossesWithin_task member, rfl⟩
  · intro token
    exact Task.crossesWithin_before_iff rfl scanned.ordered isFirst

theorem ofSource_reports_first_found_nestedSum :
    .nestingTooDeep maxNestingDepth 258 ∈
        (ofSource (nestedSum 257)).diagnostics ∧
      (∃ first,
        (TokenBuffer.ofSource (nestedSum 257)).task.CrossesWithin
            (some maxNestingDepth) first ∧
          first.position = 258) ∧
      ∀ token,
        (TokenBuffer.ofSource (nestedSum 257)).task.CrossesWithin
              (some maxNestingDepth) token ∧
            token.position < 258 ↔
          (TokenBuffer.ofSource (nestedSum 257)).task.OvertakesWithin
            (some maxNestingDepth) token := by
  have reported :
      .nestingTooDeep maxNestingDepth 258 ∈
        (ofSource (nestedSum 257)).diagnostics := by
    rw [ofSource_nestedSum.1]
    exact List.mem_cons_self ..
  exact ⟨reported, ofSource_reports_first_found reported⟩

/-- The limit may be reported behind a token at which it is crossed. -/
theorem not_forall_position_le_of_reported :
    ¬ ∀ source bound position token,
        .nestingTooDeep bound position ∈
            (ofSource source).diagnostics →
          (TokenBuffer.ofSource source).task.CrossesWithin
              (some maxNestingDepth) token →
            position ≤ token.position := by
  intro first
  obtain ⟨reported, crossings⟩ := ofSource_nestedSum
  have member : 1 ∈ [1, 258] := List.mem_cons_self ..
  rw [← crossings] at member
  obtain ⟨sign, crossed, position⟩ := List.mem_map.1 member
  have early :=
    first (nestedSum 257) maxNestingDepth 258 sign
      (by rw [reported]; exact List.mem_cons_self ..)
      (TokenBuffer.crossesWithin_task crossed)
  rw [position] at early
  contradiction

end SyntaxTree

end Abacus
