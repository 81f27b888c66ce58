import Abacus.CommandLine.Program

/-!
# The command

This is the outer layer: it reads what the program is given, and writes what
the program ends with.  Only the prompt is spread over time, since each line
is typed after the response to the line before it.
-/

namespace Abacus

/-- Writes an outcome and gives back its exit status. -/
def finish (outcome : CommandLine.Outcome) : IO UInt32 := do
  (← IO.getStdout).putStr outcome.output
  (← IO.getStderr).putStr outcome.errors
  return outcome.status.toUInt32

/-- The bytes of the next typed line, behind those that were read already. -/
partial def readLineBytes
    (input : IO.FS.Stream)
    (bytes : ByteArray) :
    IO ByteArray := do
  let more ← input.read 1
  let bytes := bytes ++ more
  if more.isEmpty || more[0]? = some Text.newlineByte then
    return bytes
  else
    readLineBytes input bytes

/-- The next typed line.  A line that is no text ends the input. -/
def readTypedLine : IO String := do
  let bytes ← readLineBytes (← IO.getStdin) ByteArray.empty
  return (String.fromUTF8? bytes).getD ""

/-- Asks for lines and responds to each, until one ends the prompt. -/
partial def interact (trees : Session.Trees) : IO UInt32 := do
  let output ← IO.getStdout
  output.putStr Session.promptText
  output.flush
  match Session.respond? trees (← readTypedLine) with
  | none => return 0
  | some report =>
      output.putStr report.output
      output.flush
      (← IO.getStderr).putStr report.errors
      interact trees

/-- The bytes of a file, if it can be read. -/
def readFile? (path : String) : IO (Option ByteArray) := do
  try
    return some (← IO.FS.readBinFile path)
  catch _ =>
    return none

/-- Runs the program with some arguments. -/
def runCommand (arguments : List String) : IO UInt32 := do
  match CommandLine.readArguments arguments with
  | .error interruption => finish interruption.outcome
  | .ok settings =>
      match settings.task with
      | .prompt => interact settings.trees
      | .script text =>
          finish (.ofReport (Session.runScript settings.trees text))
      | .file path =>
          let bytes? ← readFile? path
          finish (CommandLine.runFile settings.trees path bytes?)

end Abacus

/-- The program, as it is started from a command line. -/
def main (arguments : List String) : IO UInt32 :=
  Abacus.runCommand arguments
