import Abacus.Session.Report
import Abacus.Text.Lines

/-!
# Scripts

A script is a text with one expression on each line.  Blank lines are passed
over.  Every other line is calculated by itself, whatever became of the lines
before it.
-/

namespace Abacus.Session

/-- The lines of a script that hold anything but blanks. -/
def scriptEntries (script : String) : List String :=
  (Text.scriptLines script).filter fun line =>
    !Text.isBlankLine line

/-- Calculates the lines of a script. -/
def runScript (trees : Trees) (script : String) : Report :=
  Report.join ((scriptEntries script).map (runLine trees))

end Abacus.Session
