import Abacus.CommandLine.Program
import Abacus.Proofs.Session.Conversation

/-!
# The two modes of the program

The program calculates the lines of a script, or it asks for lines.  Both ways
it writes the same for the same lines, up to the first blank one.  A prompt
succeeds even if some line does not.

A script may be an argument or a file.  What is written for it is what is
written for its lines, one after another, and a line that fails leaves the other
ones alone.
-/

namespace Abacus.CommandLine

open Session

/-- The arguments that hide the trees, or show them. -/
def treeArguments : Trees → List String
  | .shown => []
  | .hidden => ["--no-tree"]

/-- The arguments for a script, which may look like a flag itself. -/
def scriptArguments (trees : Trees) (script : String) : List String :=
  treeArguments trees ++ ["--", script]

namespace Outcome

@[simp]
theorem output_ofReport (report : Report) :
    (ofReport report).output = report.output := rfl

@[simp]
theorem errors_ofReport (report : Report) :
    (ofReport report).errors = report.errors := rfl

@[simp]
theorem output_ofConversation (report : Report) :
    (ofConversation report).output = report.output := rfl

@[simp]
theorem errors_ofConversation (report : Report) :
    (ofConversation report).errors = report.errors := rfl

@[simp]
theorem status_ofConversation (report : Report) :
    (ofConversation report).status = 0 := rfl

theorem status_ofReport_eq_zero_iff (report : Report) :
    (ofReport report).status = 0 ↔ report.succeeded = true := by
  unfold ofReport
  cases report.succeeded <;> simp

end Outcome

variable
    {arguments : List String}
    {settings : Settings}
    {script : String}
    {readFile? : String → Option ByteArray}

theorem readArguments_scriptArguments
    (trees : Trees)
    (script : String) :
    readArguments (scriptArguments trees script) =
      .ok { fromFile := false, trees, contents := some script } := by
  cases trees <;> rfl

/-- With a script as its argument, the program runs that script. -/
@[simp]
theorem run_scriptArguments
    (trees : Trees)
    (script : String)
    (typed : ByteArray)
    (readFile? : String → Option ByteArray) :
    run (scriptArguments trees script) typed readFile? =
      .ofReport (runScript trees script) := by
  unfold run
  rw [readArguments_scriptArguments]
  rfl

/-- Without anything to run, the program asks for lines. -/
theorem run_of_prompt
    (understood : readArguments arguments = .ok settings)
    (interactive : settings.task = .prompt)
    (typed : ByteArray)
    (readFile? : String → Option ByteArray) :
    run arguments typed readFile? =
      .ofConversation
        (runPrompt settings.trees (Text.readableText typed)) := by
  unfold run
  rw [understood]
  simp only [interactive]

@[simp]
theorem fromUTF8?_toUTF8 (text : String) :
    String.fromUTF8? text.toUTF8 = some text :=
  dif_pos text.isValidUTF8

/-- The bytes of a text are read as that text. -/
@[simp]
theorem readableText_toUTF8 (text : String) :
    Text.readableText text.toUTF8 = text := by
  unfold Text.readableText
  rw [fromUTF8?_toUTF8]

/--
A prompt asks for the lines of what is typed up to the first blank one, and
writes for each line what the program writes with that line as its script.
Together this is what the program writes with all of them as its script.  The
messages are the same as well, unless a line has a carriage return at its end.
Whatever is typed, a prompt succeeds.
-/
theorem prompt_agrees_with_script
    (understood : readArguments arguments = .ok settings)
    (interactive : settings.task = .prompt)
    (text : String)
    (readFile? : String → Option ByteArray) :
    let prompt := run arguments text.toUTF8 readFile?
    let batch (script : String) :=
      run (scriptArguments settings.trees script) ByteArray.empty readFile?
    let asked := Text.beforeBlankLine text
    prompt.output =
        String.join
            ((Text.scriptLines asked).map fun line =>
              promptText ++ (batch line).output) ++
          promptText ∧
      String.join
          ((Text.scriptLines asked).map fun line =>
            (batch line).output) =
        (batch asked).output ∧
      ((∀ line ∈ Text.scriptLines asked,
          line.toList.getLast? ≠ some '\r') →
        prompt.errors = (batch asked).errors) ∧
      ∀ typed : ByteArray,
        (run arguments typed readFile?).status = 0 := by
  intro prompt batch asked
  have conversation :
      prompt =
        .ofConversation (runPrompt settings.trees text) := by
    have typed :=
      run_of_prompt understood interactive text.toUTF8 readFile?
    rw [readableText_toUTF8] at typed
    exact typed
  have calculation (script : String) :
      batch script = .ofReport (runScript settings.trees script) :=
    run_scriptArguments settings.trees script _ _
  simp only [conversation, calculation, Outcome.output_ofReport,
    Outcome.errors_ofReport, Outcome.output_ofConversation,
    Outcome.errors_ofConversation]
  refine ⟨?_, ?_, ?_, ?_⟩
  · exact output_runPrompt settings.trees text
  · exact (output_runScript_beforeBlankLine settings.trees text).symm
  · exact errors_runPrompt settings.trees
  · intro typed
    rw [run_of_prompt understood interactive,
      Outcome.status_ofConversation]

/-- Two lines with different line ends, and one that is not asked for. -/
theorem prompt_agrees_with_script_blank :
    readArguments ["--no-tree"] =
        .ok { fromFile := false, trees := .hidden, contents := none } ∧
      Settings.task
          { fromFile := false, trees := .hidden, contents := none } =
        .prompt ∧
      (run ["--no-tree"] "2 * 3\r\n7 / -4\n8 / 4\n \n5".toUTF8
          fun _ => none).output =
        "> 6\n> > 2\n> " := by
  have understood :
      readArguments ["--no-tree"] =
        .ok { fromFile := false, trees := .hidden, contents := none } :=
    rfl
  have interactive :
      Settings.task
          { fromFile := false, trees := .hidden, contents := none } =
        .prompt :=
    rfl
  obtain ⟨written, -⟩ :=
    prompt_agrees_with_script understood interactive
      "2 * 3\r\n7 / -4\n8 / 4\n \n5" fun _ => none
  refine ⟨understood, interactive, written.trans ?_⟩
  decide +kernel

/-! ## Scripts -/

/-- The script of a task, if it has one and that can be read. -/
def Task.script? (readFile? : String → Option ByteArray) : Task → Option String
  | .prompt => none
  | .script text => some text
  | .file path => (readFile? path).bind String.fromUTF8?

/-- Wherever a script comes from, the program runs it. -/
theorem run_of_script?_eq_some
    (understood : readArguments arguments = .ok settings)
    (given : settings.task.script? readFile? = some script)
    (typed : ByteArray) :
    run arguments typed readFile? =
      .ofReport (runScript settings.trees script) := by
  unfold run
  rw [understood]
  cases task : settings.task with
  | prompt =>
      rw [task] at given
      contradiction
  | script text =>
      rw [task] at given
      obtain rfl := Option.some.inj given
      simp only [task]
  | file path =>
      rw [task] at given
      simp only [task, runFile]
      rw [show (readFile? path).bind String.fromUTF8? = some script
        from given]

/--
For a script the program writes, line by line, the drawing of the root of the
line's tree unless trees are hidden, and then the value of the line's
calculation.  The messages of the calculations that fail are written in their
order to the error output, and the status is zero exactly if no calculation
fails.  A line that fails thus prints no value, and what is written for the
lines around it stays as it is.
-/
theorem script_calculates_lines
    (understood : readArguments arguments = .ok settings)
    (given : settings.task.script? readFile? = some script)
    (typed : ByteArray) :
    let outcome := run arguments typed readFile?
    let entries :=
      (Text.scriptLines script).filter fun line =>
        !Text.isBlankLine line
    let drawing (line : String) :=
      if settings.trees = .hidden then ""
      else (Node.expression (SyntaxTree.ofSource line).root).render
    let written (lines : List String) :=
      String.join
        (lines.map fun line =>
          drawing line ++ resultText (calculate line))
    outcome.output = written entries ∧
      outcome.errors =
        String.join
          (entries.map fun line => failureText (calculate line)) ∧
      (outcome.status = 0 ↔
        ∀ line ∈ entries, ∃ value, calculate line = .ok value) ∧
      ∀ before line after failure,
        entries = before ++ line :: after →
          calculate line = .error failure →
            outcome.output =
              written before ++ drawing line ++ written after := by
  intro outcome entries drawing written
  have calculation :
      outcome = .ofReport (runScript settings.trees script) :=
    run_of_script?_eq_some understood given typed
  have output : outcome.output = written entries := by
    rw [calculation, Outcome.output_ofReport, runScript,
      Report.output_join, List.map_map]
    exact
      congrArg String.join
        (List.map_congr_left fun line _ => by
          rw [Function.comp_apply, output_runLine, Trees.drawing_eq])
  refine ⟨output, ?_, ?_, ?_⟩
  · rw [calculation, Outcome.errors_ofReport, runScript,
      Report.errors_join, List.map_map]
    exact
      congrArg String.join
        (List.map_congr_left fun line _ =>
          errors_runLine settings.trees line)
  · rw [calculation, Outcome.status_ofReport_eq_zero_iff, runScript,
      Report.succeeded_join, List.all_map, List.all_eq_true]
    exact
      forall₂_congr fun line _ =>
        succeeded_runLine_iff settings.trees line
  · intro before line after failure split fails
    have silent : resultText (calculate line) = "" := by
      rw [fails]
      rfl
    rw [output, split]
    simp only [written, List.map_append, List.map_cons,
      String.join_append, String.join_cons, silent,
      String.append_empty, String.append_assoc]

/--
A file with lines that fail around a blank line and one that does not, with
hidden trees and with trees that are shown.
-/
theorem script_calculates_lines_mixed :
    let settings (trees : Trees) : Settings :=
      { fromFile := true, trees, contents := some "sums" }
    let script := "1 +\n\n 2 * 3\r\n7 / 0"
    let messages :=
      "ERROR: Unexpected token<EndOfFile>, expected <Number>\n" ++
        "Error at position 2: Division by zero.\n"
    let readFile? (_ : String) := some script.toUTF8
    let hidden :=
      run ["--no-tree", "-f", "sums"] ByteArray.empty readFile?
    let shown := run ["-f", "sums"] ByteArray.empty readFile?
    readArguments ["--no-tree", "-f", "sums"] =
        .ok (settings .hidden) ∧
      readArguments ["-f", "sums"] = .ok (settings .shown) ∧
      (settings .hidden).task.script? readFile? = some script ∧
      (settings .shown).task.script? readFile? = some script ∧
      hidden.output = "6\n" ∧
      shown.output =
        "└──BinaryExpression\n" ++
        "    ├──NumberExpression\n" ++
        "    │   └──NumberToken 1\n" ++
        "    ├──PlusToken\n" ++
        "    └──NumberExpression\n" ++
        "        └──NumberToken\n" ++
        "└──BinaryExpression\n" ++
        "    ├──NumberExpression\n" ++
        "    │   └──NumberToken 2\n" ++
        "    ├──StarToken\n" ++
        "    └──NumberExpression\n" ++
        "        └──NumberToken 3\n" ++
        "6\n" ++
        "└──BinaryExpression\n" ++
        "    ├──NumberExpression\n" ++
        "    │   └──NumberToken 7\n" ++
        "    ├──SlashToken\n" ++
        "    └──NumberExpression\n" ++
        "        └──NumberToken 0\n" ∧
      hidden.errors = messages ∧
      shown.errors = messages ∧
      hidden.status ≠ 0 ∧
      shown.status ≠ 0 := by
  intro settings script messages readFile? hidden shown
  have understoodHidden :
      readArguments ["--no-tree", "-f", "sums"] =
        .ok (settings .hidden) := rfl
  have understoodShown :
      readArguments ["-f", "sums"] = .ok (settings .shown) := rfl
  have given (trees : Trees) :
      (settings trees).task.script? readFile? = some script :=
    fromUTF8?_toUTF8 script
  obtain ⟨hiddenOutput, hiddenErrors, hiddenStatus, -⟩ :=
    script_calculates_lines understoodHidden (given .hidden)
      ByteArray.empty
  obtain ⟨shownOutput, shownErrors, shownStatus, -⟩ :=
    script_calculates_lines understoodShown (given .shown)
      ByteArray.empty
  have fails :
      ¬ ∀ line ∈ (Text.scriptLines script).filter fun line =>
          !Text.isBlankLine line,
        ∃ value, calculate line = .ok value := by
    intro succeeds
    have first :
        "1 +" ∈ (Text.scriptLines script).filter fun line =>
          !Text.isBlankLine line := by
      decide +kernel
    obtain ⟨value, valued⟩ := succeeds "1 +" first
    have failed : (calculate "1 +").isOk = false := by
      decide +kernel
    rw [valued] at failed
    contradiction
  refine
    ⟨understoodHidden, understoodShown, given .hidden, given .shown,
      hiddenOutput.trans ?_, shownOutput.trans ?_,
      hiddenErrors.trans ?_, shownErrors.trans ?_,
      mt hiddenStatus.1 fails, mt shownStatus.1 fails⟩
  all_goals decide +kernel

end Abacus.CommandLine
