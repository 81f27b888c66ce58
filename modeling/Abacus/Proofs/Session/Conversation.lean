import Abacus.Proofs.Session.Line
import Abacus.Proofs.SyntaxTree.Blanks
import Abacus.Proofs.Text.Lines
import Abacus.Session.Prompt
import Abacus.Session.Script

/-!
# Conversations and scripts

A conversation responds to each line up to the first blank one with what a
script of that line alone writes.  So it responds to all of them with the output
of a script of the text before the blank line.

The error messages differ only if carriage returns are left at the end of a line
of the script, since a message may quote the line.
-/

namespace Abacus

namespace Session

variable
    (trees : Trees)
    {line gap text : String}
    {piece : List Char}

/-! ## Single lines -/

/-- What is drawn of a tree does not show where its tokens are. -/
theorem Trees.drawing_tree
    (relocation : Relocation)
    (tree : SyntaxTree) :
    trees.drawing (relocation.tree tree) = trees.drawing tree := by
  cases trees with
  | shown => exact relocation.render_expression tree.root
  | hidden => rfl

/--
Blanks at the end of a line do not change what is written for it.  No digits can
meet there, since nothing is behind them.
-/
theorem output_runLine_append
    (blanks :
      ∀ character ∈ gap.toList, Text.isBlank character = true) :
    (runLine trees (line ++ gap)).output = (runLine trees line).output := by
  have moved :=
    @SyntaxTree.ofSource_insertion line gap "" blanks fun _ => rfl
  rw [String.append_empty, String.append_empty] at moved
  rw [output_runLine, output_runLine, calculate, calculate, moved]
  simp only [Trees.drawing_tree, Relocation.calculate_tree,
    resultText_mapError]

/-- A line that holds more than blanks is the one entry of its script. -/
theorem scriptEntries_of_plain
    (plain : '\n' ∉ line.toList)
    (visible : Text.isBlankLine line = false) :
    scriptEntries line = [line] := by
  have nonempty : line.toList ≠ [] := by
    intro empty
    rw [Text.isBlankLine, empty] at visible
    contradiction
  unfold scriptEntries Text.scriptLines
  rw [Text.pieces_of_plain nonempty plain, List.map_singleton,
    Text.withoutLineEnd_of_plain plain, String.ofList_toList]
  have kept : (!Text.isBlankLine line) = true := by
    rw [visible]
    rfl
  exact List.filter_cons_of_pos kept

theorem runScript_of_plain
    (plain : '\n' ∉ line.toList)
    (visible : Text.isBlankLine line = false) :
    runScript trees line = runLine trees line := by
  rw [runScript, scriptEntries_of_plain plain visible]
  simp

/-! ## Lines up to a blank one -/

/-- A conversation responds to the lines up to the first blank one. -/
theorem responses_eq (lines : List String) :
    responses trees lines =
      (lines.takeWhile fun line => !Text.isBlankLine line).map
        fun line =>
          runLine trees
            (String.ofList (Text.trimLineEnd line.toList)) := by
  induction lines with
  | nil => rfl
  | cons line lines hypothesis =>
      unfold responses respond?
      cases blank : Text.isBlankLine line with
      | true => simp [blank]
      | false => simp [blank, hypothesis]

/-- The responses are those to the pieces of the text before a blank line. -/
theorem responses_typedLines (text : String) :
    responses trees (Text.typedLines text) =
      (Text.pieces (Text.beforeBlankLine text).toList).map fun piece =>
        runLine trees (String.ofList (Text.trimLineEnd piece)) := by
  rw [responses_eq, Text.pieces_beforeBlankLine, Text.typedLines,
    List.takeWhile_map, List.map_map]
  simp only [Function.comp_def, String.toList_ofList]

/-- A script of the text before a blank line has no lines to pass over. -/
theorem scriptEntries_beforeBlankLine (text : String) :
    scriptEntries (Text.beforeBlankLine text) =
      Text.scriptLines (Text.beforeBlankLine text) := by
  refine List.filter_eq_self.2 fun line member => ?_
  obtain ⟨piece, isPiece, rfl⟩ := List.mem_map.1 member
  rw [Text.isBlankLine_withoutLineEnd,
    Text.isBlankLine_of_mem_beforeBlankLine isPiece]
  rfl

/-- A script of one of these lines calculates that line. -/
theorem runScript_withoutLineEnd
    (member : piece ∈ Text.pieces (Text.beforeBlankLine text).toList) :
    runScript trees (String.ofList (Text.withoutLineEnd piece)) =
      runLine trees (String.ofList (Text.withoutLineEnd piece)) := by
  apply runScript_of_plain
  · rw [String.toList_ofList]
    exact Text.newline_not_mem_withoutLineEnd member
  · rw [Text.isBlankLine_withoutLineEnd]
    exact Text.isBlankLine_of_mem_beforeBlankLine member

/-- A prompt and a script write the same for a piece. -/
theorem output_runLine_trimLineEnd
    (member : piece ∈ Text.pieces text.toList) :
    (runLine trees (String.ofList (Text.trimLineEnd piece))).output =
      (runLine trees
        (String.ofList (Text.withoutLineEnd piece))).output := by
  obtain ⟨returns, whole, areReturns⟩ :=
    Text.exists_trimLineEnd_append member
  rw [whole, String.ofList_append]
  refine (output_runLine_append trees ?_).symm
  intro character dropped
  rw [String.toList_ofList] at dropped
  rw [areReturns character dropped]
  rfl

/-! ## Whole texts -/

/-- A script up to a blank line writes what its lines do as scripts alone. -/
theorem output_runScript_beforeBlankLine (text : String) :
    (runScript trees (Text.beforeBlankLine text)).output =
      String.join
        ((Text.scriptLines (Text.beforeBlankLine text)).map fun line =>
          (runScript trees line).output) := by
  rw [runScript, scriptEntries_beforeBlankLine, Report.output_join,
    Text.scriptLines, List.map_map, List.map_map, List.map_map]
  refine congrArg String.join (List.map_congr_left ?_)
  intro piece member
  exact
    congrArg Report.output (runScript_withoutLineEnd trees member).symm

/-- A conversation asks for each line and writes what its script does. -/
theorem output_runPrompt (text : String) :
    (runPrompt trees text).output =
      String.join
          ((Text.scriptLines (Text.beforeBlankLine text)).map fun line =>
            promptText ++ (runScript trees line).output) ++
        promptText := by
  unfold runPrompt converse
  rw [responses_typedLines, Report.output_append, Report.output_join,
    Text.scriptLines, List.map_map, List.map_map, List.map_map]
  refine congrArg (String.join · ++ promptText) (List.map_congr_left ?_)
  intro piece member
  have same := output_runLine_trimLineEnd trees member
  rw [← runScript_withoutLineEnd trees member] at same
  exact congrArg (promptText ++ ·) same

/--
The messages are those of the script, if no line of it has a carriage return at
its end.
-/
theorem errors_runPrompt
    (noReturns :
      ∀ line ∈ Text.scriptLines (Text.beforeBlankLine text),
        line.toList.getLast? ≠ some '\r') :
    (runPrompt trees text).errors =
      (runScript trees (Text.beforeBlankLine text)).errors := by
  have silent : (Report.ofOutput promptText).errors = "" := rfl
  unfold runPrompt converse runScript
  rw [responses_typedLines, scriptEntries_beforeBlankLine,
    Report.errors_append, Report.errors_join, Report.errors_join, silent,
    String.append_empty, Text.scriptLines, List.map_map, List.map_map,
    List.map_map, List.map_map]
  refine congrArg String.join (List.map_congr_left ?_)
  intro piece member
  have noReturn := noReturns _ (List.mem_map_of_mem member)
  rw [String.toList_ofList] at noReturn
  have same := Text.trimLineEnd_eq_withoutLineEnd member noReturn
  simp only [Function.comp_apply, Report.errors_append, silent,
    String.empty_append, same]

end Session

end Abacus
