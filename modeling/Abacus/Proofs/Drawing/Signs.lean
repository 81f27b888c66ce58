import Abacus.Proofs.Drawing.Lines

/-!
# Signs in a row

A row is made of columns that are four characters wide, and only the first
character of a column says anything: it shows whether a guide runs through the
column, or it starts the marker.  So where a row has a certain sign can be told
from its line, column by column.  The label behind the marker has no signs.
-/

namespace Abacus.Drawing

/-- Whether a row has one of some signs at a column. -/
def HasSign
    (row : String)
    (column : Nat)
    (signs : List Char) :
    Prop :=
  ∃ sign ∈ signs, row.toList[column]? = some sign

/-! ## Columns -/

/-- Whether a value is the one of the column that starts at a character. -/
def StandsAt
    {α : Type}
    (value : α)
    (values : List α)
    (column : Nat) :
    Prop :=
  ∃ place, column = 4 * place ∧ values[place]? = some value

section Columns

variable
    {α : Type}
    {value first : α}
    {values : List α}
    {column : Nat}

theorem standsAt_cons_zero :
    StandsAt value (first :: values) 0 ↔ first = value := by
  constructor
  · rintro ⟨place, start, stands⟩
    obtain rfl : place = 0 := by omega
    exact Option.some.inj stands
  · rintro rfl
    exact ⟨0, rfl, rfl⟩

theorem standsAt_cons_add :
    StandsAt value (first :: values) (column + 4) ↔
      StandsAt value values column := by
  constructor
  · rintro ⟨place, start, stands⟩
    obtain ⟨before, rfl⟩ : ∃ before, place = before + 1 :=
      ⟨place - 1, by omega⟩
    exact ⟨before, by omega, stands⟩
  · rintro ⟨place, rfl, stands⟩
    exact ⟨place + 1, rfl, stands⟩

/-- Between the starts of two columns nothing stands. -/
theorem not_standsAt
    (between : column % 4 ≠ 0) :
    ¬ StandsAt value values column := by
  rintro ⟨place, rfl, -⟩
  exact between (Nat.mul_mod_right 4 place)

theorem StandsAt.lt
    (stands : StandsAt value values column) :
    column < 4 * values.length := by
  obtain ⟨place, rfl, found⟩ := stands
  obtain ⟨inside, -⟩ := List.getElem?_eq_some_iff.1 found
  omega

end Columns

/-! ## Signs of a line -/

namespace Line

/-- The sign at the start of a column before the marker. -/
def guideSign (runs : Bool) : Char :=
  if runs then '│' else ' '

/-- The sign at the start of a marker. -/
def markerSign (isLast : Bool) : Char :=
  if isLast then '└' else '├'

/-- The signs at the starts of all columns up to the marker. -/
def signs (line : Line) : List Char :=
  line.guides.map guideSign ++ [markerSign line.isLast]

theorem toList_row_nil
    (isLast : Bool)
    (label : String) :
    (row { guides := [], isLast, label }).toList =
      markerSign isLast :: '─' :: '─' :: label.toList := by
  cases isLast <;> simp [markerText, markerSign]

theorem toList_row_cons
    (runs : Bool)
    (guides : List Bool)
    (isLast : Bool)
    (label : String) :
    (row { guides := runs :: guides, isLast, label }).toList =
      guideSign runs :: ' ' :: ' ' :: ' ' ::
        (row { guides, isLast, label }).toList := by
  cases runs <;> simp [guideText, guideSign]

variable {line : Line} {sign : Char}

/-- No sign of a drawing is in a label. -/
theorem sign_not_mem_label
    {label : String}
    (plain : IsPlain label)
    (drawn : sign ∈ ['│', '├', '└']) :
    sign ∉ label.toList := by
  intro member
  have special : ['│', '├', '└'].any isPrintable = false := by decide
  exact
    List.any_eq_false.1 special sign drawn
      (List.all_eq_true.1 plain sign member)

/-- A sign of a drawing stands only at the start of a column. -/
theorem getElem?_row
    (plain : IsPlain line.label)
    (drawn : sign ∈ ['│', '├', '└'])
    (column : Nat) :
    line.row.toList[column]? = some sign ↔
      StandsAt sign line.signs column := by
  have notBlank : ' ' ≠ sign := by
    rintro rfl
    exact absurd drawn (by decide)
  have notDash : '─' ≠ sign := by
    rintro rfl
    exact absurd drawn (by decide)
  obtain ⟨guides, isLast, label⟩ := line
  have unlabelled := sign_not_mem_label plain drawn
  induction guides generalizing column with
  | nil =>
      rw [toList_row_nil]
      match column with
      | 0 => simp [signs, standsAt_cons_zero]
      | 1 => simp [notDash, not_standsAt]
      | 2 => simp [notDash, not_standsAt]
      | column + 3 =>
          apply iff_of_false
          · intro stands
            exact unlabelled (List.mem_of_getElem? stands)
          · intro stands
            have inside : column + 3 < 4 * 1 := stands.lt
            obtain rfl : column = 0 := by omega
            exact not_standsAt (by decide) stands
  | cons runs guides hypothesis =>
      rw [toList_row_cons]
      match column with
      | 0 => simp [signs, standsAt_cons_zero]
      | 1 => simp [notBlank, not_standsAt]
      | 2 => simp [notBlank, not_standsAt]
      | 3 => simp [notBlank, not_standsAt]
      | column + 4 =>
          exact
            (hypothesis column plain unlabelled).trans
              standsAt_cons_add.symm

/-- Where a row has one of some signs can be told column by column. -/
theorem hasSign_row_iff
    {chosen : List Char}
    (plain : IsPlain line.label)
    (drawn : chosen ⊆ ['│', '├', '└'])
    (column : Nat) :
    HasSign line.row column chosen ↔
      StandsAt true (line.signs.map chosen.contains) column := by
  constructor
  · rintro ⟨sign, member, stands⟩
    obtain ⟨place, start, found⟩ :=
      (getElem?_row plain (drawn member) column).1 stands
    refine ⟨place, start, ?_⟩
    rw [List.getElem?_map, found]
    exact congrArg some (List.contains_iff_mem.2 member)
  · rintro ⟨place, start, found⟩
    rw [List.getElem?_map] at found
    obtain ⟨sign, found, contained⟩ := Option.map_eq_some_iff.1 found
    have member := List.contains_iff_mem.1 contained
    exact
      ⟨sign, member,
        (getElem?_row plain (drawn member) column).2
          ⟨place, start, found⟩⟩

/-- What is told of the signs in a line, when nothing is told of gaps. -/
theorem map_signs
    {tells : Char → Bool}
    (gap : tells ' ' = false)
    (line : Line) :
    line.signs.map tells =
      line.guides.map (tells '│' && ·) ++
        [if line.isLast then tells '└' else tells '├'] := by
  have guide :
      tells ∘ guideSign = fun runs => tells '│' && runs := by
    funext runs
    cases runs <;> simp [guideSign, gap]
  rw [signs, List.map_append, List.map_map, guide]
  cases line.isLast <;> rfl

/-- The marker of a line is in the column behind its guides. -/
theorem hasSign_marker_iff
    (plain : IsPlain line.label)
    (column : Nat) :
    HasSign line.row column ['├', '└'] ↔
      column = 4 * line.guides.length := by
  have marker :
      line.signs.map ['├', '└'].contains =
        List.replicate line.guides.length false ++ [true] := by
    rw [map_signs rfl, ← List.map_const']
    cases line.isLast <;> simp
  have place (place : Nat) :
      (List.replicate line.guides.length false ++ [true])[place]? =
          some true ↔
        place = line.guides.length := by
    grind
  rw [hasSign_row_iff plain (by decide), marker]
  simp only [StandsAt, place]
  constructor
  · rintro ⟨place, rfl, rfl⟩
    rfl
  · rintro rfl
    exact ⟨_, rfl, rfl⟩

end Line

/-- A label is shown in a row, behind a marker that is at home at a depth. -/
def ShowsAt
    (row : String)
    (depth : Nat)
    (label : String) :
    Prop :=
  ∃ indent marker,
    row = indent ++ marker ++ label ∧
      indent.length = 4 * depth ∧ marker ∈ ["├──", "└──"]

theorem Line.showsAt_row (line : Line) :
    ShowsAt line.row line.guides.length line.label := by
  have column (runs : Bool) : (Line.guideText runs).length = 4 := by
    cases runs <;> decide
  have width (guides : List Bool) :
      (String.join (guides.map Line.guideText)).length =
        4 * guides.length := by
    induction guides with
    | nil => rfl
    | cons runs guides hypothesis =>
        rw [List.map_cons, String.join_cons, String.length_append,
          column, hypothesis, List.length_cons]
        omega
  refine ⟨_, Line.markerText line.isLast, rfl, width line.guides, ?_⟩
  cases line.isLast <;> decide

end Abacus.Drawing
