import Abacus.Proofs.Grammar.Nesting
import Abacus.Proofs.Token.Tiling
import Abacus.SyntaxTree.Basic

/-!
# Reports of the nesting limit

However often a reading crosses the nesting limit, it reports that once.  The
invariant behind this is a count: a cursor has one report of the limit among
its faults if the limit has been crossed, and none otherwise.

Together with the agreement of limited and unlimited readings this says what
the limit does to syntax trees.  A tree without such a report is the tree of a
reading without a limit, and there is a report exactly if that tree has groups
or chains that go past the limit.
-/

namespace Abacus

/-- Whether a diagnostic says that the nesting limit was crossed. -/
def Diagnostic.isNestingTooDeep : Diagnostic → Bool
  | .nestingTooDeep _ _ => true
  | _ => false

namespace Grammar

variable {limit : Limit}

/-- One fault reports that the nesting limit was crossed, if it was. -/
def Cursor.ReportsOnce (cursor : Cursor) : Prop :=
  cursor.faults.countP Diagnostic.isNestingTooDeep =
    if cursor.isTooDeep then 1 else 0

theorem Cursor.ReportsOnce.expect
    {cursor : Cursor}
    (once : cursor.ReportsOnce)
    (expected : Token.Kind) :
    (cursor.expect expected).2.ReportsOnce := by
  rcases cursor.expect_cases expected with ⟨_, taken⟩ | ⟨_, absent⟩
  · rw [taken]
    exact once
  · rw [absent]
    exact (List.countP_cons_of_neg Bool.false_ne_true).trans once

theorem Cursor.ReportsOnce.cross
    {cursor : Cursor}
    (once : cursor.ReportsOnce)
    (bound : Nat)
    (token : Token) :
    (cursor.cross bound token).ReportsOnce := by
  unfold ReportsOnce at once ⊢
  unfold Cursor.cross
  cases already : cursor.isTooDeep with
  | true =>
      rw [already] at once
      exact once
  | false =>
      rw [already] at once
      exact
        (List.countP_cons_of_pos rfl).trans
          (congrArg (· + 1) once)

theorem Parsed.reportsOnce_link
    {left right : Parsed}
    (once : right.cursor.ReportsOnce)
    (operator : Token) :
    (link limit left operator right).cursor.ReportsOnce := by
  rcases link_cases limit left operator right with
    joined | ⟨bound, crossed⟩
  · rw [joined]
    exact once
  · rw [crossed]
    exact once.cross bound operator

theorem Parsed.reportsOnce_enclose
    {inner : Parsed}
    (once : inner.cursor.ReportsOnce)
    (opening : Token) :
    (enclose opening inner).cursor.ReportsOnce := by
  have left : inner.cursor.leaveGroup.ReportsOnce := once
  exact left.expect .closeParen

theorem reportsOnce_reading (limit : Limit) :
    (∀ rank (cursor : Cursor),
      cursor.ReportsOnce →
        (read limit rank cursor).cursor.ReportsOnce) ∧
      ∀ rank (left : Parsed),
        left.cursor.ReportsOnce →
          (readChain limit rank left).cursor.ReportsOnce := by
  apply reading_induction
  constructor
  case chain =>
    intro rank cursor first chain once
    rw [read_eq_readChain]
    exact chain (first once)
  case number =>
    intro cursor closed once
    rw [read_number limit closed]
    exact once.expect .number
  case skipped =>
    intro cursor bound opens exceeded once
    rw [read_skipped opens exceeded]
    exact once.cross bound cursor.current
  case group =>
    intro cursor opens within inner once
    rw [read_group opens within]
    exact Parsed.reportsOnce_enclose (inner once) _
  case link =>
    intro rank left joins right chain once
    rw [readChain_link limit joins]
    exact chain (Parsed.reportsOnce_link (right once) _)
  case stop =>
    intro rank left stops once
    rw [readChain_stop limit stops]
    exact once

/-- Without a limit there is nothing to cross. -/
theorem crossings_unlimited :
    (∀ rank (cursor : Cursor),
      (read none rank cursor).cursor.crossings =
        cursor.crossings) ∧
      ∀ rank (left : Parsed),
        (readChain none rank left).cursor.crossings =
          left.cursor.crossings := by
  apply reading_induction
  constructor
  case chain =>
    intro rank cursor first chain
    rw [read_eq_readChain]
    exact chain.trans first
  case number =>
    intro cursor closed
    rw [read_number none closed]
    exact cursor.crossings_expect .number
  case skipped =>
    intro cursor bound opens exceeded
    contradiction
  case group =>
    intro cursor opens within inner
    rw [read_group opens within, Parsed.crossings_enclose, inner]
    rfl
  case link =>
    intro rank left joins right chain
    rw [readChain_link none joins]
    exact chain.trans right
  case stop =>
    intro rank left stops
    rw [readChain_stop none stops]

end Grammar

/-- Whether the diagnostics of a tree say that the nesting limit was crossed. -/
def SyntaxTree.ReportsNesting (tree : SyntaxTree) : Prop :=
  ∃ fault ∈ tree.diagnostics, fault.isNestingTooDeep = true

namespace TokenBuffer

open Grammar

variable {buffer : TokenBuffer}

/-- The place at which a buffer has been read to its end. -/
def finish (limit : Limit) (buffer : TokenBuffer) : Cursor :=
  ((read limit .term (.start buffer)).cursor.expect .endOfFile).2

theorem diagnostics_parseWithin
    (limit : Limit)
    (buffer : TokenBuffer) :
    (buffer.parseWithin limit).diagnostics =
      (buffer.finish limit).faults.reverse := rfl

theorem crossings_finish
    (limit : Limit)
    (buffer : TokenBuffer) :
    (buffer.finish limit).crossings =
      (read limit .term (.start buffer)).cursor.crossings :=
  Cursor.crossings_expect _ .endOfFile

/-- A tree has one report of the limit if it was crossed, and none otherwise. -/
theorem countP_isNestingTooDeep
    (lexical :
      buffer.diagnostics.countP Diagnostic.isNestingTooDeep = 0)
    (limit : Limit) :
    (buffer.parseWithin limit).diagnostics.countP
        Diagnostic.isNestingTooDeep =
      if (buffer.finish limit).isTooDeep then 1 else 0 := by
  have start : (Cursor.start buffer).ReportsOnce :=
    List.countP_reverse.trans lexical
  have once :=
    ((reportsOnce_reading limit).1 .term _ start).expect .endOfFile
  rw [diagnostics_parseWithin, List.countP_reverse]
  exact once

theorem reportsNesting_iff
    (lexical :
      buffer.diagnostics.countP Diagnostic.isNestingTooDeep = 0)
    (limit : Limit) :
    (buffer.parseWithin limit).ReportsNesting ↔
      (read limit .term (.start buffer)).cursor.crossings ≠ [] := by
  rw [SyntaxTree.ReportsNesting, ← List.countP_pos_iff,
    countP_isNestingTooDeep lexical, Cursor.isTooDeep,
    crossings_finish]
  cases (read limit .term (.start buffer)).cursor.crossings <;> simp

/--
A limited reading that crosses no limit gives the tree of the unlimited one,
and the root of that tree nests within the limit.
-/
theorem parseWithin_eq_of_crossings_eq_nil
    {bound : Nat}
    (uncrossed :
      (read (some bound) .term (.start buffer)).cursor.crossings =
        []) :
    buffer.parseWithin (some bound) = buffer.parseWithin none ∧
      (buffer.parseWithin none).root.NestsWithin bound 0 := by
  obtain ⟨same, nests⟩ :=
    (unlimited_eq_of_crossings_eq bound).1 .term (.start buffer)
      (Nat.zero_le bound) uncrossed
  rw [← same] at nests
  refine ⟨?_, nests⟩
  unfold parseWithin
  rw [same]

/-- A limited reading crosses no limit if the unlimited one nests within it. -/
theorem crossings_eq_nil_of_nestsWithin
    {bound : Nat}
    (nests : (buffer.parseWithin none).root.NestsWithin bound 0) :
    (read (some bound) .term (.start buffer)).cursor.crossings =
      [] := by
  rw [(limited_eq_of_nestsWithin bound).1 .term (.start buffer) nests]
  exact crossings_unlimited.1 .term (.start buffer)

theorem crossings_eq_nil_iff
    {bound : Nat} :
    (read (some bound) .term (.start buffer)).cursor.crossings = [] ↔
      (buffer.parseWithin none).root.NestsWithin bound 0 :=
  ⟨fun uncrossed =>
      (parseWithin_eq_of_crossings_eq_nil uncrossed).2,
    crossings_eq_nil_of_nestsWithin⟩

theorem countP_isNestingTooDeep_ofSource (source : String) :
    (ofSource source).diagnostics.countP
        Diagnostic.isNestingTooDeep =
      0 := by
  rw [List.countP_eq_zero]
  intro fault member
  have lexical := isLexical_of_mem_diagnostics member
  cases fault <;>
    simp_all [Diagnostic.isLexical, Diagnostic.isNestingTooDeep]

end TokenBuffer

theorem Expression.not_nestsWithin_iff
    {bound : Nat}
    {expression : Expression} :
    ¬ expression.NestsWithin bound 0 ↔
      bound < expression.groupDepth ∨
        ∃ part ∈ expression.parts,
          part.nodeKind = .binary ∧ bound < part.height := by
  constructor
  · intro tooDeep
    by_cases groups : bound < expression.groupDepth
    · exact Or.inl groups
    · refine Or.inr (Classical.byContradiction fun low => ?_)
      refine tooDeep ⟨by omega, ?_⟩
      intro part member joined
      exact
        Nat.le_of_not_lt fun tall =>
          low ⟨part, member, joined, tall⟩
  · rintro (groups | ⟨part, member, joined, tall⟩) nests
    · have bounded := nests.groups
      omega
    · have bounded := nests.chains part member joined
      omega

/--
Until the nesting limit is reported it changes nothing: a source that is read
without such a report reads the same without a limit.  It is reported exactly
if the reading without a limit has too many groups inside each other or a
chain of operators that is too tall, and it is never reported twice.
-/
theorem SyntaxTree.ofSource_nesting_limit (source : String) :
    (¬ (ofSource source).ReportsNesting ↔
        ofSource source =
          (TokenBuffer.ofSource source).parseWithin none) ∧
      ((ofSource source).ReportsNesting ↔
        maxNestingDepth <
            ((TokenBuffer.ofSource source).parseWithin
              none).root.groupDepth ∨
          ∃ part ∈
              ((TokenBuffer.ofSource source).parseWithin
                none).root.parts,
            part.nodeKind = .binary ∧
              maxNestingDepth < part.height) ∧
      (ofSource source).diagnostics.countP
          Diagnostic.isNestingTooDeep ≤ 1 := by
  have lexical := TokenBuffer.countP_isNestingTooDeep_ofSource source
  have limited :=
    TokenBuffer.reportsNesting_iff lexical (some maxNestingDepth)
  have unlimited := TokenBuffer.reportsNesting_iff lexical none
  refine ⟨⟨?_, ?_⟩, ?_, ?_⟩
  · intro silent
    have uncrossed := Classical.not_not.1 (mt limited.2 silent)
    exact
      (TokenBuffer.parseWithin_eq_of_crossings_eq_nil uncrossed).1
  · intro same
    rw [same, unlimited, Classical.not_not]
    exact Grammar.crossings_unlimited.1 .term _
  · rw [← Expression.not_nestsWithin_iff]
    exact limited.trans (not_congr TokenBuffer.crossings_eq_nil_iff)
  · have counted :=
      TokenBuffer.countP_isNestingTooDeep lexical
        (some maxNestingDepth)
    refine Nat.le_trans (Nat.le_of_eq counted) ?_
    split <;> omega

end Abacus
