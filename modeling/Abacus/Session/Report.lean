import Abacus.Calculation
import Abacus.SyntaxTree.Node

/-!
# Reports

A report is what a run writes for its user: its output, the error messages,
and whether everything went well.  Reports are put together in order, and the
whole succeeds if every part does.
-/

namespace Abacus.Session

/-- What a run writes, and whether it succeeds. -/
structure Report where
  /-- The text for the standard output. -/
  output : String
  /-- The text for the standard error output. -/
  errors : String
  /-- Whether nothing went wrong. -/
  succeeded : Bool
deriving DecidableEq

namespace Report

/-- A run in which nothing happens. -/
def empty : Report :=
  { output := "", errors := "", succeeded := true }

/-- A run that only writes some output. -/
def ofOutput (output : String) : Report :=
  { empty with output }

/-- A run that only fails with some message. -/
def ofFailure (message : String) : Report :=
  { output := "", errors := message ++ "\n", succeeded := false }

/-- One run after another. -/
def append (first second : Report) : Report :=
  { output := first.output ++ second.output
    errors := first.errors ++ second.errors
    succeeded := first.succeeded && second.succeeded }

instance : Append Report := ⟨append⟩

/-- Some runs, one after another. -/
def join (reports : List Report) : Report :=
  reports.foldl (· ++ ·) empty

@[simp]
theorem output_append
    (first second : Report) :
    (first ++ second).output = first.output ++ second.output := rfl

@[simp]
theorem errors_append
    (first second : Report) :
    (first ++ second).errors = first.errors ++ second.errors := rfl

@[simp]
theorem succeeded_append
    (first second : Report) :
    (first ++ second).succeeded =
      (first.succeeded && second.succeeded) := rfl

theorem append_assoc
    (first second third : Report) :
    first ++ second ++ third = first ++ (second ++ third) := by
  change append (append first second) third =
    append first (append second third)
  simp only [append, String.append_assoc, Bool.and_assoc]

@[simp]
theorem empty_append (report : Report) : empty ++ report = report := by
  change append empty report = report
  simp [append, empty]

@[simp]
theorem append_empty (report : Report) : report ++ empty = report := by
  change append report empty = report
  simp [append, empty]

@[simp]
theorem join_nil : join [] = empty := rfl

theorem foldl_append
    (first : Report)
    (reports : List Report) :
    reports.foldl (· ++ ·) first = first ++ join reports := by
  induction reports generalizing first with
  | nil => rw [List.foldl_nil, join_nil, append_empty]
  | cons report reports hypothesis =>
      rw [join, List.foldl_cons, List.foldl_cons, hypothesis,
        hypothesis (empty ++ report), empty_append, append_assoc]

@[simp]
theorem join_cons
    (report : Report)
    (reports : List Report) :
    join (report :: reports) = report ++ join reports := by
  rw [join, List.foldl_cons, foldl_append, empty_append]

/-- Runs that come one after another may be put together in any way. -/
@[simp]
theorem join_append
    (first second : List Report) :
    join (first ++ second) = join first ++ join second := by
  rw [join, List.foldl_append, foldl_append, ← join]

end Report

/-- Whether trees are drawn before the results. -/
inductive Trees where
  | shown
  | hidden
deriving DecidableEq

/-- What is drawn of a tree. -/
def Trees.drawing : Trees → SyntaxTree → String
  | .shown, tree => (Node.expression tree.root).render
  | .hidden, _ => ""

/--
Calculates one line: its drawing, and then its value or what is wrong.  Each
diagnostic is a message of its own, and a line that has any is not valued.
-/
def runLine (trees : Trees) (line : String) : Report :=
  let tree := SyntaxTree.ofSource line
  Report.ofOutput (trees.drawing tree) ++
    if tree.diagnostics.isEmpty then
      match tree.root.value with
      | .ok value => Report.ofOutput (toString value ++ "\n")
      | .error failure => Report.ofFailure failure.message
    else
      Report.join
        (tree.diagnostics.map fun fault =>
          Report.ofFailure fault.message)

end Abacus.Session
