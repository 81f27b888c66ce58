import Abacus.Text.Blank

/-!
# Lines of a text

A text is cut after each of its newlines.  The pieces keep their newline, so
putting them together again gives the text back, and only the last piece may
lack one.

A *script* drops the line ends: the newline together with one carriage return
right before it.  A carriage return anywhere else belongs to its line, also at
the very end of the text.  A line typed at a *prompt* instead loses every
carriage return and newline at its end.
-/

namespace Abacus.Text

/-- Puts one character in front of the pieces of the text that follows it. -/
def prependToPieces
    (character : Char)
    (pieces : List (List Char)) :
    List (List Char) :=
  if character = '\n' then
    [character] :: pieces
  else
    match pieces with
    | [] => [[character]]
    | piece :: others => (character :: piece) :: others

/-- The pieces of a text, each up to and including its newline. -/
def pieces (text : List Char) : List (List Char) :=
  text.foldr prependToPieces []

@[simp]
theorem pieces_nil : pieces [] = [] := rfl

@[simp]
theorem pieces_cons
    (character : Char)
    (text : List Char) :
    pieces (character :: text) =
      prependToPieces character (pieces text) := rfl

@[simp]
theorem flatten_prependToPieces
    (character : Char)
    (pieces : List (List Char)) :
    (prependToPieces character pieces).flatten =
      character :: pieces.flatten := by
  unfold prependToPieces
  split
  · rfl
  · cases pieces <;> rfl

/-- Cutting a text into pieces loses nothing. -/
@[simp]
theorem flatten_pieces (text : List Char) : (pieces text).flatten = text := by
  induction text with
  | nil => rfl
  | cons character text hypothesis => simp [hypothesis]

/--
A piece without its line end: the newline, and one carriage return if it
stands right before that newline.
-/
def withoutLineEnd (piece : List Char) : List Char :=
  match piece.reverse with
  | '\n' :: '\r' :: reversed => reversed.reverse
  | '\n' :: reversed => reversed.reverse
  | _ => piece

/-- A piece without any of the carriage returns and newlines at its end. -/
def trimLineEnd (piece : List Char) : List Char :=
  (piece.reverse.dropWhile fun character =>
    character = '\r' || character = '\n').reverse

/-- The lines of a script, without their line ends. -/
def scriptLines (script : String) : List String :=
  (pieces script.toList).map fun piece =>
    String.ofList (withoutLineEnd piece)

/-- The lines of typed input, each up to and including its newline. -/
def typedLines (input : String) : List String :=
  (pieces input.toList).map String.ofList

/-- Whether a line holds nothing but blanks. -/
def isBlankLine (line : String) : Bool :=
  line.toList.all isBlank

end Abacus.Text
