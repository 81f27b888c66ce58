import Abacus.Proofs.CommandLine.Modes

/-!
# Scripts one after another

A script can be put together from two scripts with a newline between them.  The
newline ends the last line of the first one, or it makes a blank line, which is
passed over.  So the program runs the entries of both scripts in their order,
and what it writes is put together in the same way.

Only a carriage return at the end of the first script does not stay what it is:
with the newline it becomes a line end.
-/

namespace Abacus

namespace Session

/-- What a script makes of one of its pieces: an entry, unless it is blank. -/
def pieceEntry (piece : List Char) : List String :=
  [String.ofList (Text.withoutLineEnd piece)].filter fun line =>
    !Text.isBlankLine line

/-- The entries of a script are those of its pieces. -/
theorem scriptEntries_eq_flatMap (script : String) :
    scriptEntries script =
      (Text.pieces script.toList).flatMap pieceEntry := by
  unfold scriptEntries Text.scriptLines
  induction Text.pieces script.toList with
  | nil => rfl
  | cons piece pieces hypothesis =>
      rw [List.map_cons, ← List.singleton_append, List.filter_append,
        hypothesis, List.flatMap_cons]
      rfl

/--
A newline between two texts adds no entry and takes none away.  Behind a whole line
it is a line by itself, and a blank one.
-/
theorem flatMap_pieceEntry_append
    {lines : List (List Char)}
    (cut : Text.IsCut lines)
    (unreturned : lines.flatten.getLast? ≠ some '\r')
    (text : List Char) :
    (Text.pieces (lines.flatten ++ '\n' :: text)).flatMap pieceEntry =
      lines.flatMap pieceEntry ++
        (Text.pieces text).flatMap pieceEntry := by
  induction cut with
  | nil => rfl
  | @last line nonempty plain =>
      rw [List.flatten_singleton] at unreturned
      have ended : pieceEntry (line ++ ['\n']) = pieceEntry line := by
        rw [pieceEntry, pieceEntry,
          Text.withoutLineEnd_append_newline unreturned,
          Text.withoutLineEnd_of_plain plain]
      rw [List.flatten_singleton, Text.pieces_line plain,
        List.flatMap_cons, ended, List.flatMap_singleton]
  | @cons line others plain cut hypothesis =>
      have behind : others.flatten.getLast? ≠ some '\r' := by
        intro returned
        apply unreturned
        rw [List.flatten_cons, List.getLast?_append, returned]
        rfl
      rw [List.flatten_cons, List.append_assoc, List.append_assoc,
        List.singleton_append, Text.pieces_line plain,
        List.flatMap_cons, List.flatMap_cons, hypothesis behind,
        List.append_assoc]

theorem scriptEntries_append
    {front : String}
    (unreturned : front.toList.getLast? ≠ some '\r')
    (back : String) :
    scriptEntries (front ++ "\n" ++ back) =
      scriptEntries front ++ scriptEntries back := by
  have joined :=
    flatMap_pieceEntry_append (Text.isCut_pieces front.toList)
  rw [Text.flatten_pieces] at joined
  rw [scriptEntries_eq_flatMap, scriptEntries_eq_flatMap,
    scriptEntries_eq_flatMap, String.toList_append,
    String.toList_append, List.append_assoc]
  exact joined unreturned back.toList

/-- Two scripts one after the other are run one after the other. -/
theorem runScript_append
    {front : String}
    (unreturned : front.toList.getLast? ≠ some '\r')
    (trees : Trees)
    (back : String) :
    runScript trees (front ++ "\n" ++ back) =
      runScript trees front ++ runScript trees back := by
  rw [runScript, scriptEntries_append unreturned, List.map_append,
    Report.join_append]
  rfl

end Session

namespace CommandLine

open Session

/-- A way to run a script, from an argument or from a file. -/
structure BatchRun (trees : Trees) (script : String) where
  /-- The arguments of the program. -/
  arguments : List String
  /-- What is typed, which does not matter. -/
  typed : ByteArray
  /-- What is in the files. -/
  readFile? : String → Option ByteArray
  /-- The settings that the arguments make. -/
  settings : Settings
  /-- The arguments make these settings. -/
  understood : readArguments arguments = .ok settings
  /-- Trees are drawn as they should be. -/
  sameTrees : settings.trees = trees
  /-- The script is where the arguments say. -/
  given : settings.task.script? readFile? = some script

namespace BatchRun

variable {trees : Trees} {script front back : String}

/-- The outcome of running the script in this way. -/
def outcome (batch : BatchRun trees script) : Outcome :=
  run batch.arguments batch.typed batch.readFile?

theorem outcome_eq (batch : BatchRun trees script) :
    batch.outcome = .ofReport (runScript trees script) := by
  rw [outcome, run_of_script?_eq_some batch.understood batch.given,
    batch.sameTrees]

/-- The run with the script as an argument. -/
def ofArgument (trees : Trees) (script : String) : BatchRun trees script where
  arguments := scriptArguments trees script
  typed := ByteArray.empty
  readFile? _ := none
  settings := { fromFile := false, trees, contents := some script }
  understood := readArguments_scriptArguments trees script
  sameTrees := rfl
  given := rfl

/-- The run with the script in the only file that there is. -/
def ofFile
    (trees : Trees)
    (script : String) :
    BatchRun trees script where
  arguments := treeArguments trees ++ ["-f", "script"]
  typed := ByteArray.empty
  readFile? path := if path = "script" then some script.toUTF8 else none
  settings := { fromFile := true, trees, contents := some "script" }
  understood := by
    cases trees <;> rfl
  sameTrees := rfl
  given := fromUTF8?_toUTF8 script

/--
Two scripts with a newline between them write what the one writes and then what
the other writes, to both outputs, and succeed if both do.
-/
theorem outcome_concatenation
    (unreturned : front.toList.getLast? ≠ some '\r')
    (whole : BatchRun trees (front ++ "\n" ++ back))
    (first : BatchRun trees front)
    (second : BatchRun trees back) :
    whole.outcome.output =
        first.outcome.output ++ second.outcome.output ∧
      whole.outcome.errors =
          first.outcome.errors ++ second.outcome.errors ∧
        (whole.outcome.status = 0 ↔
          first.outcome.status = 0 ∧ second.outcome.status = 0) := by
  rw [whole.outcome_eq, first.outcome_eq, second.outcome_eq,
    runScript_append unreturned]
  refine ⟨rfl, rfl, ?_⟩
  rw [Outcome.status_ofReport_eq_zero_iff,
    Outcome.status_ofReport_eq_zero_iff,
    Outcome.status_ofReport_eq_zero_iff, Report.succeeded_append,
    Bool.and_eq_true]

/-- A script that ends within a line, and a file that starts with a blank one. -/
theorem outcome_concatenation_mixed :
    let front := "1 + 1\r\n7 / 0"
    let back := "\n2 * 3"
    front.toList.getLast? ≠ some '\r' ∧
      (ofArgument .hidden (front ++ "\n" ++ back)).outcome.output =
        "2\n6\n" ∧
      (ofArgument .hidden (front ++ "\n" ++ back)).outcome.errors =
        "Error at position 2: Division by zero.\n" ∧
      (ofArgument .hidden (front ++ "\n" ++ back)).outcome.status ≠ 0 := by
  intro front back
  have unreturned : front.toList.getLast? ≠ some '\r' := by
    decide +kernel
  obtain ⟨output, errors, status⟩ :=
    outcome_concatenation unreturned
      (ofArgument .hidden (front ++ "\n" ++ back))
      (ofArgument .hidden front) (ofFile .hidden back)
  refine ⟨unreturned, output.trans ?_, errors.trans ?_, ?_⟩
  · decide +kernel
  · decide +kernel
  · intro succeeded
    have first := (status.1 succeeded).1
    revert first
    decide +kernel

end BatchRun

end CommandLine

end Abacus
