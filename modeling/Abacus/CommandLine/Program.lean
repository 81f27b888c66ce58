import Abacus.CommandLine.Arguments
import Abacus.Session.Prompt
import Abacus.Session.Script

/-!
# The program

The program is given its arguments, what is typed, and a way to read files,
and ends with a report and an exit status.  The status is zero if all went
well, one if an expression or a file failed, and two if the arguments were
refused.
-/

namespace Abacus.CommandLine

/-- What a run of the program leaves behind. -/
structure Outcome where
  /-- The exit status. -/
  status : UInt8
  /-- The text on the standard output. -/
  output : String
  /-- The text on the standard error output. -/
  errors : String
deriving DecidableEq

/-- The version, as it is printed. -/
def versionText : String := "ezc 0.1.0\n"

/-- The help, as it is printed. -/
def helpText : String :=
  "A minimal arithmetic expression compiler: " ++
  "lexer, parser and evaluator for integer expressions.\n" ++
  "\n" ++
  "Usage: ezc [OPTIONS] [CONTENTS]\n" ++
  "\n" ++
  "Arguments:\n" ++
  "  [CONTENTS]  The expression to evaluate, " ++
  "or a path when `--file` is given\n" ++
  "\n" ++
  "Options:\n" ++
  "  -f, --file     Tells ezc to read the expressions from a file, " ++
  "one per line\n" ++
  "      --no-tree  Do not print the syntax tree before the result\n" ++
  "  -h, --help     Print help\n" ++
  "  -V, --version  Print version\n"

/-- What the user is told about a file that is not there or is no text. -/
def unreadableMessage (path : String) : String :=
  "Failed to read the input file '" ++ path ++
    "'. Perhaps this file does not exist?"

namespace Outcome

/-- The outcome of calculations. -/
def ofReport (report : Session.Report) : Outcome :=
  { status := if report.succeeded then 0 else 1
    output := report.output
    errors := report.errors }

/-- The outcome of a conversation, which succeeds whatever was typed. -/
def ofConversation (report : Session.Report) : Outcome :=
  { status := 0, output := report.output, errors := report.errors }

end Outcome

/-- What happens when the arguments are not read to their end. -/
def Interruption.outcome : Interruption → Outcome
  | .help => { status := 0, output := helpText, errors := "" }
  | .version => { status := 0, output := versionText, errors := "" }
  | .usage error =>
      { status := 2, output := "", errors := error.message ++ "\n" }

/-- What a run works on. -/
inductive Task where
  /-- Lines that are typed one after another. -/
  | prompt
  /-- A script that is given as an argument. -/
  | script (text : String)
  /-- A script in a file. -/
  | file (path : String)
deriving DecidableEq

/--
What the settings ask for.  Without a positional argument there is no file to
read, and the prompt starts.
-/
def Settings.task (settings : Settings) : Task :=
  match settings.contents with
  | none => .prompt
  | some contents =>
      if settings.fromFile then .file contents else .script contents

/-- Calculates the script in a file with some bytes, if it could be read. -/
def runFile
    (trees : Session.Trees)
    (path : String)
    (bytes? : Option ByteArray) :
    Outcome :=
  match bytes?.bind String.fromUTF8? with
  | some script => .ofReport (Session.runScript trees script)
  | none => .ofReport (.ofFailure (unreadableMessage path))

/-- Runs the program. -/
def run
    (arguments : List String)
    (typed : ByteArray)
    (readFile? : String → Option ByteArray) :
    Outcome :=
  match readArguments arguments with
  | .error interruption => interruption.outcome
  | .ok settings =>
      match settings.task with
      | .prompt =>
          .ofConversation
            (Session.runPrompt settings.trees
              (Text.readableText typed))
      | .script text =>
          .ofReport (Session.runScript settings.trees text)
      | .file path =>
          runFile settings.trees path (readFile? path)

end Abacus.CommandLine
