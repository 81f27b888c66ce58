import Abacus.Calculation
import Abacus.Session.Report

/-!
# What is written for a line

A line that is run is read and valued step by step, and each of its diagnostics
is written as a message of its own.  The calculation of a line has one result
for all of this, and if that is a failure it has one message.

Both say the same.  What is written for a line is its drawing and the value of
its calculation, or else the message of the failure, and nothing of the one when
there is the other.
-/

namespace Abacus

namespace Session

variable {faults : List Diagnostic}

/-! ## Reports in order -/

namespace Report

@[simp]
theorem output_join (reports : List Report) :
    (join reports).output = String.join (reports.map output) := by
  induction reports with
  | nil => rfl
  | cons report reports hypothesis =>
      rw [join_cons, output_append, hypothesis, List.map_cons,
        String.join_cons]

@[simp]
theorem errors_join (reports : List Report) :
    (join reports).errors = String.join (reports.map errors) := by
  induction reports with
  | nil => rfl
  | cons report reports hypothesis =>
      rw [join_cons, errors_append, hypothesis, List.map_cons,
        String.join_cons]

@[simp]
theorem succeeded_join (reports : List Report) :
    (join reports).succeeded = reports.all succeeded := by
  induction reports with
  | nil => rfl
  | cons report reports hypothesis =>
      rw [join_cons, succeeded_append, hypothesis, List.all_cons]

theorem ofFailure_append
    (message other : String) :
    ofFailure message ++ ofFailure other =
      ofFailure (message ++ "\n" ++ other) := by
  show append (ofFailure message) (ofFailure other) = _
  simp [append, ofFailure, String.append_assoc]

/-- Diagnostics one by one are one failure with their joined messages. -/
theorem join_ofFailure_message
    (nonempty : faults ≠ []) :
    join (faults.map fun fault => ofFailure fault.message) =
      ofFailure (Diagnostic.joinedMessages faults) := by
  induction faults with
  | nil => contradiction
  | cons fault others hypothesis =>
      cases others with
      | nil =>
          have alone :
              Diagnostic.joinedMessages [fault] = fault.message :=
            String.intercalate_singleton
          rw [List.map_singleton, join_cons, join_nil, append_empty, alone]
      | cons next others =>
          have behind := hypothesis (List.cons_ne_nil next others)
          have joined :
              Diagnostic.joinedMessages (fault :: next :: others) =
                fault.message ++ "\n" ++
                  Diagnostic.joinedMessages (next :: others) :=
            String.intercalate_cons_cons
          rw [List.map_cons, join_cons, behind, ofFailure_append, joined]

end Report

/-! ## Single lines -/

/-- The value that is written for a calculation, if it has one. -/
def resultText : Except CalculationError Int32 → String
  | .ok value => toString value ++ "\n"
  | .error _ => ""

/-- The message that is written for a calculation, if it fails. -/
def failureText : Except CalculationError Int32 → String
  | .ok _ => ""
  | .error failure => failure.message ++ "\n"

@[simp]
theorem resultText_mapError
    (change : CalculationError → CalculationError)
    (result : Except CalculationError Int32) :
    resultText (result.mapError change) = resultText result := by
  cases result <;> rfl

/-- What is written for a calculation, and whether it went well. -/
def Report.ofCalculation (result : Except CalculationError Int32) : Report :=
  { output := resultText result
    errors := failureText result
    succeeded := result.isOk }

variable
    (trees : Trees)
    (line : String)

/-- The root of a tree is drawn, unless trees are hidden. -/
theorem Trees.drawing_eq (tree : SyntaxTree) :
    trees.drawing tree =
      if trees = .hidden then "" else (Node.expression tree.root).render := by
  cases trees <;> rfl

/-- A line is run as its calculation says, behind its drawing. -/
theorem runLine_eq :
    runLine trees line =
      .ofOutput (trees.drawing (SyntaxTree.ofSource line)) ++
        .ofCalculation (calculate line) := by
  unfold runLine calculate SyntaxTree.calculate
  cases accepted : (SyntaxTree.ofSource line).diagnostics.isEmpty with
  | true =>
      simp only [accepted, if_true]
      cases (SyntaxTree.ofSource line).root.value <;> rfl
  | false =>
      have nonempty : (SyntaxTree.ofSource line).diagnostics ≠ [] := by
        intro empty
        rw [empty] at accepted
        contradiction
      simp only [accepted, Report.join_ofFailure_message nonempty]
      rfl

@[simp]
theorem output_runLine :
    (runLine trees line).output =
      trees.drawing (SyntaxTree.ofSource line) ++
        resultText (calculate line) := by
  rw [runLine_eq]
  rfl

@[simp]
theorem errors_runLine :
    (runLine trees line).errors = failureText (calculate line) := by
  rw [runLine_eq]
  exact String.empty_append

theorem succeeded_runLine_iff :
    (runLine trees line).succeeded = true ↔
      ∃ value, calculate line = .ok value := by
  rw [runLine_eq]
  cases calculate line with
  | ok value => exact iff_of_true rfl ⟨value, rfl⟩
  | error failure => exact iff_of_false Bool.false_ne_true (by simp)

end Session

end Abacus
