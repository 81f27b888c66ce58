import Abacus.Session.Report
import Abacus.Text.Input

/-!
# The prompt

The prompt asks for a line, calculates it, and asks again.  A blank line ends
it, and so does the end of the input, which reads as a line without any
characters.
-/

namespace Abacus.Session

/-- What is written when a line is asked for. -/
def promptText : String := "> "

/-- What follows on a typed line, unless the line ends the prompt. -/
def respond? (trees : Trees) (line : String) : Option Report :=
  if Text.isBlankLine line then
    none
  else
    some (runLine trees
      (String.ofList (Text.trimLineEnd line.toList)))

/-- What follows on each of some typed lines, up to the one that ends. -/
def responses (trees : Trees) : List String → List Report
  | [] => []
  | line :: others =>
      match respond? trees line with
      | none => []
      | some report => report :: responses trees others

/--
A conversation in which some lines are typed.  Every response is asked for,
and so is the line that ends the prompt.
-/
def converse (trees : Trees) (lines : List String) : Report :=
  Report.join
      ((responses trees lines).map fun report =>
        Report.ofOutput promptText ++ report) ++
    Report.ofOutput promptText

/-- A conversation in which some text is typed. -/
def runPrompt (trees : Trees) (input : String) : Report :=
  converse trees (Text.typedLines input)

end Abacus.Session
