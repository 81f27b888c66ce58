import Abacus.Drawing.Outline

/-!
# Drawings

An outline is drawn with one line for every label, in pre-order.  A line is
made of columns four characters wide: one for every label on the way down to
it, and one with the marker of the line itself.

The marker tells whether more parts follow in the same place.  Wherever they
do, a guide leads down to them, through the lines of everything in between.
-/

namespace Abacus.Drawing

/-- One line of a drawing. -/
structure Line where
  /-- For every column before the marker, whether a guide runs through it. -/
  guides : List Bool
  /-- Whether no further part follows in the same place. -/
  isLast : Bool
  /-- What is written behind the marker. -/
  label : String
deriving DecidableEq

namespace Line

/-- A column before the marker. -/
def guideText (runs : Bool) : String :=
  if runs then "│   " else "    "

/-- The column with the marker, but for what is written behind it. -/
def markerText (isLast : Bool) : String :=
  if isLast then "└──" else "├──"

/-- A line as it is written. -/
def text (line : Line) : String :=
  String.join (line.guides.map guideText) ++
    markerText line.isLast ++ line.label ++ "\n"

end Line

mutual

/-- The lines of an outline behind some guides. -/
def linesBehind
    (guides : List Bool)
    (isLast : Bool) :
    Outline String → List Line
  | .entry label parts =>
      { guides, isLast, label } ::
        linesOfParts (guides ++ [!isLast]) parts

/-- The lines of the parts in one place, of which the last ends the guide. -/
def linesOfParts
    (guides : List Bool) :
    List (Outline String) → List Line
  | [] => []
  | part :: others =>
      linesBehind guides others.isEmpty part ++
        linesOfParts guides others

end

/-- The lines of a whole outline. -/
def lines (outline : Outline String) : List Line :=
  linesBehind [] true outline

/-- The drawing of a whole outline. -/
def render (outline : Outline String) : String :=
  String.join ((lines outline).map Line.text)

end Abacus.Drawing
