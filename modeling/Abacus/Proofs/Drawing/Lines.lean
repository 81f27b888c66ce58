import Abacus.Drawing.Basic
import Abacus.Proofs.Drawing.Outline
import Abacus.Proofs.Text.Lines

/-!
# Reading a drawing

Nothing of an outline is lost in its drawing.  The text of the drawing falls
apart into its lines at the newlines, and a line falls apart into its columns:
the first column that does not start like a guide or like a gap has the marker.
So the depths and labels of all lines are in the text, which are the pre-order
of the outline.

All of this needs labels that have no newlines.  The labels here have nothing
but printable characters of ASCII, which keeps them apart from the signs that a
drawing is made of.
-/

namespace Abacus.Drawing

/-- Whether a character is one of the printable characters of ASCII. -/
def isPrintable (character : Char) : Bool :=
  Nat.ble ' '.toNat character.toNat &&
    Nat.ble character.toNat '~'.toNat

/-- Whether a label has only printable characters of ASCII. -/
def IsPlain (label : String) : Prop :=
  label.toList.all isPrintable = true

theorem IsPlain.append
    {front back : String}
    (frontPlain : IsPlain front)
    (backPlain : IsPlain back) :
    IsPlain (front ++ back) := by
  unfold IsPlain at frontPlain backPlain
  rw [IsPlain, String.toList_append, List.all_append, frontPlain,
    backPlain, Bool.and_self]

namespace Line

/-! ## Rows -/

/-- A line as it is written, without its newline. -/
def row (line : Line) : String :=
  String.join (line.guides.map guideText) ++
    markerText line.isLast ++ line.label

theorem text_eq (line : Line) : line.text = line.row ++ "\n" := rfl

@[simp]
theorem row_nil
    (isLast : Bool)
    (label : String) :
    row { guides := [], isLast, label } = markerText isLast ++ label := by
  simp [row]

@[simp]
theorem row_cons
    (runs : Bool)
    (guides : List Bool)
    (isLast : Bool)
    (label : String) :
    row { guides := runs :: guides, isLast, label } =
      guideText runs ++ row { guides, isLast, label } := by
  simp [row, String.append_assoc]

theorem guideText_append_inj
    {runs otherRuns : Bool}
    {behind rest : String}
    (same : guideText runs ++ behind = guideText otherRuns ++ rest) :
    runs = otherRuns ∧ behind = rest := by
  have characters := congrArg String.toList same
  cases runs <;> cases otherRuns <;> simp [guideText] at characters
  case false.false => exact ⟨rfl, String.toList_inj.1 characters⟩
  case true.true => exact ⟨rfl, String.toList_inj.1 characters⟩

theorem markerText_append_inj
    {isLast otherLast : Bool}
    {label other : String}
    (same : markerText isLast ++ label = markerText otherLast ++ other) :
    isLast = otherLast ∧ label = other := by
  have characters := congrArg String.toList same
  cases isLast <;> cases otherLast <;> simp [markerText] at characters
  case false.false => exact ⟨rfl, String.toList_inj.1 characters⟩
  case true.true => exact ⟨rfl, String.toList_inj.1 characters⟩

/-- A column before the marker does not start like the marker. -/
theorem guideText_append_ne
    (runs isLast : Bool)
    (behind label : String) :
    guideText runs ++ behind ≠ markerText isLast ++ label := by
  intro same
  have characters := congrArg String.toList same
  cases runs <;> cases isLast <;>
    simp [guideText, markerText] at characters

/-- A row is the row of one line only. -/
theorem row_injective : Function.Injective row := by
  rintro ⟨guides, isLast, label⟩ ⟨others, otherLast, otherLabel⟩ same
  induction guides generalizing others with
  | nil =>
      cases others with
      | nil =>
          rw [row_nil, row_nil] at same
          obtain ⟨rfl, rfl⟩ := markerText_append_inj same
          rfl
      | cons runs others =>
          rw [row_nil, row_cons] at same
          exact (guideText_append_ne _ _ _ _ same.symm).elim
  | cons runs guides hypothesis =>
      cases others with
      | nil =>
          rw [row_nil, row_cons] at same
          exact (guideText_append_ne _ _ _ _ same).elim
      | cons otherRuns others =>
          rw [row_cons, row_cons] at same
          obtain ⟨rfl, behind⟩ := guideText_append_inj same
          obtain ⟨rfl, rfl, rfl⟩ := Line.mk.inj (hypothesis others behind)
          rfl

theorem newline_not_mem_row
    {line : Line}
    (plain : IsPlain line.label) :
    '\n' ∉ line.row.toList := by
  obtain ⟨guides, isLast, label⟩ := line
  have inside : '\n' ∉ label.toList := by
    intro member
    exact absurd (List.all_eq_true.1 plain '\n' member) (by decide)
  induction guides with
  | nil => cases isLast <;> simp [markerText, inside]
  | cons runs guides hypothesis =>
      rw [row_cons, String.toList_append, List.mem_append]
      rintro (column | behind)
      · cases runs <;> simp [guideText] at column
      · exact hypothesis plain behind

/-- The depth of a line and its label. -/
def entry (line : Line) : Nat × String :=
  (line.guides.length, line.label)

end Line

/-! ## Whole drawings -/

/-- The lines of an outline have its depths and labels in pre-order. -/
theorem map_entry_linesBehind :
    (∀ (outline : Outline String) (guides : List Bool) (isLast : Bool),
      (linesBehind guides isLast outline).map Line.entry =
        outline.preorderFrom guides.length) ∧
      ∀ (parts : List (Outline String)) (guides : List Bool),
        (linesOfParts guides parts).map Line.entry =
          Outline.preorderOfParts guides.length parts := by
  apply Outline.induction
  case entry =>
    intro label parts below guides isLast
    rw [linesBehind, Outline.preorderFrom, List.map_cons, below,
      List.length_append]
    rfl
  case nil =>
    intro guides
    rfl
  case cons =>
    intro part others first following guides
    rw [linesOfParts, Outline.preorderOfParts, List.map_append, first,
      following]

theorem map_entry_lines (outline : Outline String) :
    (lines outline).map Line.entry = outline.preorder :=
  map_entry_linesBehind.1 outline [] true

variable {outline other : Outline String}

theorem isPlain_of_mem_lines
    (plain : ∀ entry ∈ outline.preorder, IsPlain entry.2)
    {line : Line}
    (member : line ∈ lines outline) :
    IsPlain line.label := by
  have listed : line.entry ∈ (lines outline).map Line.entry :=
    List.mem_map_of_mem member
  rw [map_entry_lines] at listed
  exact plain line.entry listed

/-- A drawing is cut into its lines. -/
theorem pieces_render
    (plain : ∀ entry ∈ outline.preorder, IsPlain entry.2) :
    Text.pieces (render outline).toList =
      (lines outline).map fun line => line.row.toList ++ ['\n'] := by
  have cut :
      Text.IsCut
        (((lines outline).map fun line => line.row.toList).map
          (· ++ ['\n'])) := by
    apply Text.isCut_map_newline
    rw [List.forall_mem_map]
    intro line member
    exact Line.newline_not_mem_row (isPlain_of_mem_lines plain member)
  have whole :
      (render outline).toList =
        (((lines outline).map fun line => line.row.toList).map
          (· ++ ['\n'])).flatten := by
    unfold render
    rw [String.toList_join, List.flatMap_map, List.map_map,
      List.flatMap_def]
    simp only [Line.text_eq, String.toList_append]
    rfl
  rw [whole, cut.pieces_flatten, List.map_map]
  rfl

/-- Outlines with one drawing are the same. -/
theorem eq_of_render_eq
    (plain : ∀ entry ∈ outline.preorder, IsPlain entry.2)
    (otherPlain : ∀ entry ∈ other.preorder, IsPlain entry.2)
    (same : render outline = render other) :
    outline = other := by
  have pieces :
      (lines outline).map (fun line => line.row.toList ++ ['\n']) =
        (lines other).map fun line => line.row.toList ++ ['\n'] := by
    rw [← pieces_render plain, ← pieces_render otherPlain, same]
  have injective :
      Function.Injective
        fun line : Line => line.row.toList ++ ['\n'] := by
    intro line next equal
    have rows := List.append_cancel_right equal
    exact Line.row_injective (String.toList_inj.1 rows)
  have sameLines := List.map_injective_iff.2 injective pieces
  apply Outline.preorder_injective
  rw [← map_entry_lines outline, ← map_entry_lines other, sameLines]

end Abacus.Drawing
