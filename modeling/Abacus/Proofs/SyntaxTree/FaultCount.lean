import Abacus.Proofs.SyntaxTree.Faults

/-!
# The number of faults

A reading may report several missing tokens at one place: a number, and then one
closing parenthesis for each group that is open there.  Every such report is paid
for by a token that was taken before, an operator or a parenthesis that opens a
group, apart from the report of one number that nothing was taken for.

So the reports and the tokens that are left are counted together.  A token that
is taken makes room for one report, and reading an expression adds no more than
one to the whole count.  A link adds nothing, since its operator pays for its
operand.
-/

namespace Abacus

/-- A fault of the grammar is an unexpected token or a crossing of the limit. -/
theorem Diagnostic.length_filter_not_isLexical
    (faults : List Diagnostic) :
    (faults.filter fun fault => !fault.isLexical).length =
      faults.countP isUnexpectedToken +
        faults.countP isNestingTooDeep := by
  induction faults with
  | nil => rfl
  | cons fault others hypothesis =>
      rw [← List.countP_eq_length_filter] at hypothesis ⊢
      simp only [List.countP_cons, hypothesis]
      cases fault <;>
        simp only [isLexical, isUnexpectedToken, isNestingTooDeep] <;>
        simp <;> omega

namespace Grammar

namespace Cursor

/--
The number of unexpected tokens that have been found and of tokens that are left.
-/
def potential (cursor : Cursor) : Nat :=
  cursor.faults.countP Diagnostic.isUnexpectedToken +
    cursor.rest.length

variable {cursor : Cursor}

/-- A token that is taken makes room for a fault. -/
theorem potential_advance
    (unfinished : cursor.current.kind ≠ .endOfFile) :
    cursor.advance.potential + 1 = cursor.potential := by
  unfold potential
  rw [cursor.rest_eq_current_cons unfinished]
  rfl

theorem potential_report
    {fault : Diagnostic}
    (unexpected : fault.isUnexpectedToken = true) :
    (cursor.report fault).potential = cursor.potential + 1 := by
  unfold potential report
  rw [List.countP_cons_of_pos unexpected]
  exact Nat.succ_add _ _

theorem potential_expect_le
    (cursor : Cursor)
    (expected : Token.Kind) :
    (cursor.expect expected).2.potential ≤ cursor.potential + 1 := by
  rcases cursor.expect_cases expected with ⟨_, taken⟩ | ⟨_, absent⟩
  · have fewer := cursor.length_rest_advance_le
    rw [taken]
    exact Nat.le_succ_of_le (Nat.add_le_add_left fewer _)
  · rw [absent, potential_report rfl]

@[simp]
theorem potential_cross
    (cursor : Cursor)
    (bound : Nat)
    (token : Token) :
    (cursor.cross bound token).potential = cursor.potential := by
  unfold potential cross
  split
  · rfl
  · rw [List.countP_cons_of_neg Bool.false_ne_true]

theorem potential_skipGroup_le (cursor : Cursor) :
    cursor.skipGroup.potential ≤ cursor.potential :=
  Nat.add_le_add_left cursor.length_rest_skipGroup_le _

end Cursor

namespace Parsed

@[simp]
theorem potential_link
    (limit : Limit)
    (left : Parsed)
    (operator : Token)
    (right : Parsed) :
    (link limit left operator right).cursor.potential =
      right.cursor.potential := by
  rcases link_cases limit left operator right with
    joined | ⟨bound, crossed⟩
  · rw [joined]
  · rw [crossed]
    exact right.cursor.potential_cross bound operator

theorem potential_enclose_le
    (opening : Token)
    (inner : Parsed) :
    (enclose opening inner).cursor.potential ≤
      inner.cursor.potential + 1 :=
  inner.cursor.leaveGroup.potential_expect_le .closeParen

end Parsed

/--
An expression adds at most one fault that no token pays for, a link none.  An
operator pays for its right operand, and an opening parenthesis for the closing one.
-/
theorem potential_reading (limit : Limit) :
    (∀ rank (cursor : Cursor),
      (read limit rank cursor).cursor.potential ≤
        cursor.potential + 1) ∧
      ∀ rank (left : Parsed),
        (readChain limit rank left).cursor.potential ≤
          left.cursor.potential := by
  apply reading_induction
  constructor
  case chain =>
    intro rank cursor first chain
    rw [read_eq_readChain]
    exact Nat.le_trans chain first
  case number =>
    intro cursor closed
    rw [read_number limit closed]
    exact cursor.potential_expect_le .number
  case skipped =>
    intro cursor bound opens exceeded
    have skipped :=
      (cursor.cross bound cursor.current).potential_skipGroup_le
    rw [Cursor.potential_cross] at skipped
    rw [read_skipped opens exceeded]
    exact Nat.le_succ_of_le skipped
  case group =>
    intro cursor opens within inner
    have opening : cursor.advance.potential + 1 = cursor.potential :=
      Cursor.potential_advance (by simp [opens])
    have entered :
        cursor.advance.enterGroup.potential =
          cursor.advance.potential := rfl
    have closing :=
      Parsed.potential_enclose_le cursor.current
        (read limit .term cursor.advance.enterGroup)
    rw [read_group opens within]
    omega
  case link =>
    intro rank left joins right chain
    have operator :
        left.cursor.advance.potential + 1 = left.cursor.potential :=
      Cursor.potential_advance (Rank.ne_endOfFile_of_isJoinedBy joins)
    rw [Parsed.potential_link] at chain
    rw [readChain_link limit joins]
    omega
  case stop =>
    intro rank left stops
    rw [readChain_stop limit stops]

end Grammar

namespace TokenBuffer

open Grammar

variable {buffer : TokenBuffer}

theorem IsScanned.potential_start
    (scanned : buffer.IsScanned) :
    (Cursor.start buffer).potential = buffer.tokens.length := by
  have silent :
      buffer.diagnostics.countP Diagnostic.isUnexpectedToken = 0 := by
    rw [List.countP_eq_zero]
    intro fault member unexpected
    have lexical := scanned.lexical fault member
    cases fault <;> contradiction
  unfold Cursor.potential Cursor.start
  rw [List.countP_reverse, silent, Nat.zero_add]

/--
No more tokens are unexpected than there are, and the end of file.  If tokens are
left over, they pay for the report of that.
-/
theorem IsScanned.countP_isUnexpectedToken_le
    (scanned : buffer.IsScanned)
    (limit : Limit) :
    (buffer.parseWithin limit).diagnostics.countP
        Diagnostic.isUnexpectedToken ≤
      buffer.tokens.length + 1 := by
  have bounded :=
    (potential_reading limit).1 .term (Cursor.start buffer)
  rw [scanned.potential_start] at bounded
  rw [diagnostics_parseWithin, List.countP_reverse, finish]
  rcases
      (read limit .term
        (Cursor.start buffer)).cursor.expect_cases .endOfFile with
    ⟨_, taken⟩ | ⟨other, absent⟩
  · rw [taken]
    exact Nat.le_trans (Nat.le_add_right _ _) bounded
  · have nonempty := Cursor.rest_ne_nil_of_kind_ne other
    have positive := List.length_pos_iff.2 nonempty
    rw [absent]
    unfold Cursor.potential at bounded
    unfold Cursor.report
    rw [List.countP_cons_of_pos rfl]
    omega

end TokenBuffer

namespace SyntaxTree

/--
Recovery from faults does not flood the user: there are at most two faults of the
grammar more than tokens, and at most one more if the nesting limit is not
reported.
-/
theorem ofSource_limits_faults (source : String) :
    ((ofSource source).diagnostics.filter fun fault =>
          !fault.isLexical).length ≤
        (TokenBuffer.ofSource source).tokens.length + 2 ∧
      (¬ (ofSource source).ReportsNesting →
        ((ofSource source).diagnostics.filter fun fault =>
            !fault.isLexical).length ≤
          (TokenBuffer.ofSource source).tokens.length + 1) := by
  have scanned := TokenBuffer.isScanned_ofSource source
  have unexpected :
      (ofSource source).diagnostics.countP
          Diagnostic.isUnexpectedToken ≤
        (TokenBuffer.ofSource source).tokens.length + 1 :=
    scanned.countP_isUnexpectedToken_le (some maxNestingDepth)
  have reported :=
    TokenBuffer.countP_isNestingTooDeep
      (TokenBuffer.countP_isNestingTooDeep_ofSource source)
      (some maxNestingDepth)
  rw [Diagnostic.length_filter_not_isLexical]
  constructor
  · have once :
        (ofSource source).diagnostics.countP
            Diagnostic.isNestingTooDeep ≤ 1 := by
      refine Nat.le_trans (Nat.le_of_eq reported) ?_
      split <;> omega
    omega
  · intro silent
    have none :
        (ofSource source).diagnostics.countP
            Diagnostic.isNestingTooDeep = 0 := by
      rw [List.countP_eq_zero]
      intro fault member nests
      exact silent ⟨fault, member, nests⟩
    rw [none]
    exact unexpected

/-- As many faults as the bound allows, behind two unclosed parentheses. -/
example :
    (ofSource "((").diagnostics =
      [.unexpectedToken .endOfFile .number 2,
        .unexpectedToken .endOfFile .closeParen 2,
        .unexpectedToken .endOfFile .closeParen 2] := by
  cbv

end SyntaxTree

end Abacus
