import Abacus.Expression.Value
import Abacus.SyntaxTree.Basic

/-!
# Calculation

A source line is calculated by reading it and taking the value of what it
reads as.  A line with any diagnostic is never valued, since its tree stands
for no expression that was written.
-/

namespace Abacus

/-- Why a source line has no value. -/
inductive CalculationError where
  /-- The line has faults. -/
  | diagnostics (faults : List Diagnostic)
  /-- The line reads well, but its expression has no value. -/
  | value (failure : ValueError)
deriving DecidableEq

/-- What the user is told. -/
def CalculationError.message : CalculationError → String
  | .diagnostics faults => Diagnostic.joinedMessages faults
  | .value failure => failure.message

/-- The value of a syntax tree, unless it has diagnostics. -/
def SyntaxTree.calculate
    (tree : SyntaxTree) :
    Except CalculationError Int32 :=
  if tree.diagnostics.isEmpty then
    tree.root.value.mapError .value
  else
    .error (.diagnostics tree.diagnostics)

/-- The value of a source line. -/
def calculate (source : String) : Except CalculationError Int32 :=
  (SyntaxTree.ofSource source).calculate

end Abacus
