import Abacus.Text.Lines
import Mathlib.Data.List.DropRight

/-!
# Pieces of a text and their line ends

A text is cut behind its newlines in one way only: its pieces are lines with
their newlines, which the last piece may lack.  So the pieces up to some place
are the pieces of the text up to that place.

A script and a prompt drop different line ends.  What a script leaves of a piece
is what a prompt leaves of it, with some carriage returns behind.
-/

namespace Abacus.Text

variable
    {character : Char}
    {text front line piece ending : List Char}
    {others : List (List Char)}

/-! ## Pieces -/

/--
Whether some pieces are lines with their newlines.  The last one may be a line
without a newline, but not an empty one.
-/
inductive IsCut : List (List Char) → Prop where
  | nil : IsCut []
  | last
      {line : List Char}
      (nonempty : line ≠ [])
      (plain : '\n' ∉ line) :
      IsCut [line]
  | cons
      {line : List Char}
      {others : List (List Char)}
      (plain : '\n' ∉ line)
      (cut : IsCut others) :
      IsCut ((line ++ ['\n']) :: others)

theorem prependToPieces_cons
    (plain : character ≠ '\n')
    (piece : List Char)
    (others : List (List Char)) :
    prependToPieces character (piece :: others) =
      (character :: piece) :: others :=
  if_neg plain

theorem prependToPieces_nil (character : Char) :
    prependToPieces character [] = [[character]] := by
  unfold prependToPieces
  exact ite_self _

/-- A text with one more character in front is cut into pieces like that. -/
theorem IsCut.prepend
    (cut : IsCut others)
    (character : Char) :
    IsCut (prependToPieces character others) := by
  by_cases newline : character = '\n'
  · subst newline
    exact .cons (List.not_mem_nil) cut
  · cases cut with
    | nil =>
        rw [prependToPieces_nil]
        refine .last (List.cons_ne_nil _ _) ?_
        exact mt List.mem_singleton.1 (Ne.symm newline)
    | last nonempty plain =>
        rw [prependToPieces_cons newline]
        refine .last (List.cons_ne_nil _ _) ?_
        exact List.not_mem_cons_of_ne_of_not_mem (Ne.symm newline) plain
    | cons plain cut =>
        rw [prependToPieces_cons newline, ← List.cons_append]
        refine .cons ?_ cut
        exact List.not_mem_cons_of_ne_of_not_mem (Ne.symm newline) plain

theorem isCut_pieces (text : List Char) : IsCut (pieces text) := by
  induction text with
  | nil => exact .nil
  | cons character text cut => exact cut.prepend character

/-- A line without a newline is one piece. -/
theorem pieces_of_plain
    (nonempty : line ≠ [])
    (plain : '\n' ∉ line) :
    pieces line = [line] := by
  induction line with
  | nil => contradiction
  | cons character line hypothesis =>
      have others := List.not_mem_of_not_mem_cons plain
      have first := List.ne_of_not_mem_cons plain
      by_cases empty : line = []
      · rw [empty]
        exact prependToPieces_nil character
      · rw [pieces_cons, hypothesis empty others]
        exact prependToPieces_cons (Ne.symm first) line []

/-- A line with its newline is the first piece of a text. -/
theorem pieces_line
    (plain : '\n' ∉ line)
    (text : List Char) :
    pieces (line ++ '\n' :: text) = (line ++ ['\n']) :: pieces text := by
  induction line with
  | nil => rfl
  | cons character line hypothesis =>
      have others := List.not_mem_of_not_mem_cons plain
      have first := List.ne_of_not_mem_cons plain
      rw [List.cons_append, pieces_cons, hypothesis others]
      exact prependToPieces_cons (Ne.symm first) _ _

/-- A text is cut into the pieces it is put together from. -/
theorem IsCut.pieces_flatten
    (cut : IsCut others) :
    pieces others.flatten = others := by
  induction cut with
  | nil => rfl
  | @last line nonempty plain =>
      rw [List.flatten_singleton]
      exact pieces_of_plain nonempty plain
  | @cons line others plain cut hypothesis =>
      rw [List.flatten_cons, List.append_assoc, List.singleton_append,
        pieces_line plain, hypothesis]

/-- Lines with a newline each are what their text is cut into. -/
theorem isCut_map_newline
    {lines : List (List Char)}
    (plain : ∀ line ∈ lines, '\n' ∉ line) :
    IsCut (lines.map (· ++ ['\n'])) := by
  induction lines with
  | nil => exact .nil
  | cons line lines hypothesis =>
      obtain ⟨first, others⟩ := List.forall_mem_cons.1 plain
      exact .cons first (hypothesis others)

theorem IsCut.takeWhile
    (cut : IsCut others)
    (keeps : List Char → Bool) :
    IsCut (others.takeWhile keeps) := by
  induction cut with
  | nil => exact .nil
  | last nonempty plain =>
      rw [List.takeWhile_cons]
      split
      · exact .last nonempty plain
      · exact .nil
  | cons plain cut hypothesis =>
      rw [List.takeWhile_cons]
      split
      · exact .cons plain hypothesis
      · exact .nil

/-- The pieces up to some place are the pieces of the text up to there. -/
theorem pieces_flatten_takeWhile
    (text : List Char)
    (keeps : List Char → Bool) :
    pieces ((pieces text).takeWhile keeps).flatten =
      (pieces text).takeWhile keeps :=
  ((isCut_pieces text).takeWhile keeps).pieces_flatten

/-- A piece is a line without newlines, with or without one behind it. -/
theorem IsCut.exists_line
    (cut : IsCut others)
    (member : piece ∈ others) :
    ∃ line, '\n' ∉ line ∧ (piece = line ∨ piece = line ++ ['\n']) := by
  induction cut with
  | nil => contradiction
  | @last line nonempty plain =>
      exact ⟨line, plain, .inl (List.mem_singleton.1 member)⟩
  | @cons line others plain cut hypothesis =>
      rcases List.mem_cons.1 member with same | later
      · exact ⟨line, plain, .inr same⟩
      · exact hypothesis later

/-! ## Line ends -/

/-- Whether a character is one of those that end lines. -/
def isLineEnd (character : Char) : Bool :=
  character = '\r' || character = '\n'

theorem isBlank_of_isLineEnd
    (ends : isLineEnd character = true) :
    isBlank character = true := by
  unfold isLineEnd at ends
  rw [Bool.or_eq_true, decide_eq_true_eq, decide_eq_true_eq] at ends
  rcases ends with rfl | rfl <;> rfl

/-- A script drops a newline, and with it one carriage return before it. -/
theorem withoutLineEnd_cases (piece : List Char) :
    withoutLineEnd piece ++ ['\r', '\n'] = piece ∨
      withoutLineEnd piece ++ ['\n'] = piece ∨
        withoutLineEnd piece = piece ∧ piece.getLast? ≠ some '\n' := by
  unfold withoutLineEnd
  split
  case h_1 reversed same =>
    rw [List.reverse_eq_iff] at same
    rw [same, List.reverse_cons, List.reverse_cons, List.append_assoc]
    exact .inl rfl
  case h_2 reversed _ same =>
    rw [List.reverse_eq_iff] at same
    rw [same, List.reverse_cons]
    exact .inr (.inl rfl)
  case h_3 differs =>
    refine .inr (.inr ⟨rfl, ?_⟩)
    intro ends
    rw [← List.head?_reverse, List.head?_eq_some_iff] at ends
    obtain ⟨reversed, same⟩ := ends
    exact differs reversed same

/-- What a script drops from a piece are line ends. -/
theorem exists_withoutLineEnd_append (piece : List Char) :
    ∃ ending,
      withoutLineEnd piece ++ ending = piece ∧
        ∀ character ∈ ending, isLineEnd character = true := by
  rcases withoutLineEnd_cases piece with whole | whole | ⟨same, -⟩
  · exact ⟨['\r', '\n'], whole, List.all_eq_true.1 rfl⟩
  · exact ⟨['\n'], whole, List.all_eq_true.1 rfl⟩
  · refine ⟨[], ?_, List.forall_mem_nil _⟩
    rw [same, List.append_nil]

/-- A script drops nothing from a line that has no newline. -/
theorem withoutLineEnd_of_plain
    (plain : '\n' ∉ line) :
    withoutLineEnd line = line := by
  rcases withoutLineEnd_cases line with whole | whole | ⟨same, -⟩
  · rw [← whole] at plain
    simp at plain
  · rw [← whole] at plain
    simp at plain
  · exact same

/-- A script drops only the newline behind a line that does not return. -/
theorem withoutLineEnd_append_newline
    (unreturned : line.getLast? ≠ some '\r') :
    withoutLineEnd (line ++ ['\n']) = line := by
  rcases withoutLineEnd_cases (line ++ ['\n']) with
    whole | whole | ⟨-, unended⟩
  · have split :
        withoutLineEnd (line ++ ['\n']) ++ ['\r'] ++ ['\n'] =
          line ++ ['\n'] := by
      rw [List.append_assoc]
      exact whole
    have returned := List.append_cancel_right split
    rw [← returned, List.getLast?_concat] at unreturned
    contradiction
  · exact List.append_cancel_right whole
  · rw [List.getLast?_concat] at unended
    contradiction

/-- What a script leaves of a piece has no newline. -/
theorem newline_not_mem_withoutLineEnd
    (member : piece ∈ pieces text) :
    '\n' ∉ withoutLineEnd piece := by
  obtain ⟨line, plain, rfl | rfl⟩ :=
    (isCut_pieces text).exists_line member
  · rw [withoutLineEnd_of_plain plain]
    exact plain
  · rcases withoutLineEnd_cases (line ++ ['\n']) with
      whole | whole | ⟨-, unended⟩
    · have split :
          withoutLineEnd (line ++ ['\n']) ++ ['\r'] ++ ['\n'] =
            line ++ ['\n'] := by
        rw [List.append_assoc]
        exact whole
      have before := List.append_cancel_right split
      intro inside
      apply plain
      rw [← before]
      exact List.mem_append_left _ inside
    · rw [List.append_cancel_right whole]
      exact plain
    · rw [List.getLast?_concat] at unended
      contradiction

/-- A prompt drops all line ends from the end of a piece. -/
theorem trimLineEnd_append
    (ends : ∀ character ∈ ending, isLineEnd character = true) :
    trimLineEnd (front ++ ending) = trimLineEnd front := by
  unfold trimLineEnd
  rw [List.reverse_append]
  congr 1
  apply List.dropWhile_append_of_pos
  intro character member
  exact ends character (List.mem_reverse.1 member)

/--
A script leaves what a prompt leaves, with carriage returns behind.  There is no
newline among these, since it would have ended the line before.
-/
theorem exists_trimLineEnd_append
    (member : piece ∈ pieces text) :
    ∃ returns,
      withoutLineEnd piece = trimLineEnd piece ++ returns ∧
        ∀ character ∈ returns, character = '\r' := by
  obtain ⟨ending, whole, ends⟩ := exists_withoutLineEnd_append piece
  have same :
      trimLineEnd piece =
        (withoutLineEnd piece).rdropWhile isLineEnd := by
    calc
      trimLineEnd piece =
          trimLineEnd (withoutLineEnd piece ++ ending) := by
        rw [whole]
      _ = trimLineEnd (withoutLineEnd piece) := trimLineEnd_append ends
      _ = (withoutLineEnd piece).rdropWhile isLineEnd := rfl
  have split := @List.rdropWhile_append_rtakeWhile _ isLineEnd
    (withoutLineEnd piece)
  refine ⟨(withoutLineEnd piece).rtakeWhile isLineEnd, ?_, ?_⟩
  · rw [same, split]
  · intro character dropped
    have isEnd := List.mem_rtakeWhile_imp dropped
    have inside : character ∈ withoutLineEnd piece := by
      rw [← split]
      exact List.mem_append_right _ dropped
    unfold isLineEnd at isEnd
    rw [Bool.or_eq_true, decide_eq_true_eq, decide_eq_true_eq] at isEnd
    refine isEnd.resolve_right ?_
    rintro rfl
    exact newline_not_mem_withoutLineEnd member inside

/-- Without a carriage return at the end, a script and a prompt agree. -/
theorem trimLineEnd_eq_withoutLineEnd
    (member : piece ∈ pieces text)
    (noReturn : (withoutLineEnd piece).getLast? ≠ some '\r') :
    trimLineEnd piece = withoutLineEnd piece := by
  obtain ⟨returns, whole, areReturns⟩ := exists_trimLineEnd_append member
  rcases List.eq_nil_or_concat returns with rfl | ⟨before, last, rfl⟩
  · rw [whole, List.append_nil]
  · have isReturn : last = '\r' := by
      apply areReturns
      rw [List.concat_eq_append]
      exact List.mem_append_right _ (List.mem_singleton_self _)
    rw [whole, List.concat_eq_append, ← List.append_assoc,
      List.getLast?_concat, isReturn] at noReturn
    contradiction

/-! ## Lines up to a blank one -/

/-- The text up to its first blank line, or all of it if there is none. -/
def beforeBlankLine (text : String) : String :=
  String.join
    ((typedLines text).takeWhile fun line => !isBlankLine line)

/-- The line end of a line does not matter for whether the line is blank. -/
theorem isBlankLine_withoutLineEnd (piece : List Char) :
    isBlankLine (String.ofList (withoutLineEnd piece)) =
      isBlankLine (String.ofList piece) := by
  obtain ⟨ending, whole, ends⟩ := exists_withoutLineEnd_append piece
  have blank : ending.all isBlank = true := by
    rw [List.all_eq_true]
    exact fun character member =>
      isBlank_of_isLineEnd (ends character member)
  unfold isBlankLine
  rw [String.toList_ofList, String.toList_ofList]
  conv_rhs => rw [← whole, List.all_append, blank, Bool.and_true]

theorem pieces_beforeBlankLine (text : String) :
    pieces (beforeBlankLine text).toList =
      (pieces text.toList).takeWhile fun piece =>
        !isBlankLine (String.ofList piece) := by
  have whole :
      (beforeBlankLine text).toList =
        ((pieces text.toList).takeWhile fun piece =>
          !isBlankLine (String.ofList piece)).flatten := by
    unfold beforeBlankLine typedLines
    rw [List.takeWhile_map, String.toList_join, List.flatMap_map]
    simp only [String.toList_ofList, List.flatMap_id']
    rfl
  rw [whole, pieces_flatten_takeWhile]

/-- All lines up to a blank one hold more than blanks. -/
theorem isBlankLine_of_mem_beforeBlankLine
    {text : String}
    (member : piece ∈ pieces (beforeBlankLine text).toList) :
    isBlankLine (String.ofList piece) = false := by
  rw [pieces_beforeBlankLine] at member
  simpa using List.mem_takeWhile_imp member

end Abacus.Text
