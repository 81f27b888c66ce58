import Abacus.Proofs.Drawing.Signs
import Mathlib.Data.List.Chain

/-!
# Guides

A line can lead down to the next line in each of its columns: where a guide runs
through it, and at its marker, if more parts follow there.  The next line takes
all of this up.  Either it is the first part below the line, and has one column
more.  Or it is a part farther up, which has its marker in the last column that
leads down to it, while all columns behind that one have ended.
-/

namespace Abacus.Drawing

namespace Line

variable {line next : Line}

/-- For every column up to the marker, whether it leads down. -/
def below (line : Line) : List Bool :=
  line.guides ++ [!line.isLast]

/-- For every column up to the marker, whether it leads up. -/
def above (line : Line) : List Bool :=
  line.guides ++ [true]

/-- Where a line leads down is where its row has a sign that does. -/
theorem hasSign_below_iff
    (plain : IsPlain line.label)
    (column : Nat) :
    HasSign line.row column ['│', '├'] ↔
      StandsAt true line.below column := by
  have below : line.signs.map ['│', '├'].contains = line.below := by
    rw [map_signs rfl, Line.below]
    cases line.isLast <;> simp
  rw [hasSign_row_iff plain (by decide), below]

/-- Where a line leads up is where its row has any sign. -/
theorem hasSign_above_iff
    (plain : IsPlain line.label)
    (column : Nat) :
    HasSign line.row column ['│', '├', '└'] ↔
      StandsAt true line.above column := by
  have above : line.signs.map ['│', '├', '└'].contains = line.above := by
    rw [map_signs rfl, Line.above]
    cases line.isLast <;> simp
  rw [hasSign_row_iff plain (by decide), above]

/-- Whether a line may have another one right below it. -/
inductive Follows (line next : Line) : Prop where
  /-- The next line has the first part. -/
  | first
      (guides : next.guides = line.below)
  /-- The next line has a part farther up, and nothing else leads down. -/
  | other
      (ended : Nat)
      (above : line.below = next.above ++ List.replicate ended false)

/-- Where a line leads down, the next line leads up. -/
theorem Follows.above_of_below
    (follows : Follows line next)
    {place : Nat}
    (leads : line.below[place]? = some true) :
    next.above[place]? = some true := by
  cases follows with
  | first guides =>
      rw [← guides] at leads
      obtain ⟨inside, -⟩ := List.getElem?_eq_some_iff.1 leads
      rw [Line.above, List.getElem?_append_left inside]
      exact leads
  | other ended above =>
      rw [above, List.getElem?_append, List.getElem?_replicate] at leads
      split at leads
      · exact leads
      · split at leads <;> contradiction

/-- A line leads down to the next marker, or has one column less. -/
theorem Follows.below_of_marker
    (follows : Follows line next) :
    line.below[next.guides.length]? = some true ∨
      next.guides = line.below := by
  cases follows with
  | first guides => exact .inr guides
  | other ended above =>
      left
      rw [above, Line.above, List.append_assoc,
        List.getElem?_append_right (Nat.le_refl _), Nat.sub_self]
      rfl

end Line

/-! ## Chains of lines -/

/--
Whether some lines behind some guides follow one another, up to a last one that
leads down behind the guides only if there is more to come there.
-/
structure AreDrawn
    (guides : List Bool)
    (more : Bool)
    (lines : List Line) :
    Prop where
  /-- Each line follows the one above it. -/
  chain : lines.IsChain Line.Follows
  /-- The first line has just the guides before its marker. -/
  first : ∀ line ∈ lines.head?, line.guides = guides
  /-- The last line leads down at the guides, and where there is more. -/
  last :
    ∀ line ∈ lines.getLast?,
      ∃ ended, line.below = guides ++ more :: List.replicate ended false

section Chains

variable
    {guides : List Bool}
    {more isLast : Bool}
    {lines others : List Line}

theorem AreDrawn.nil : AreDrawn guides more [] where
  chain := .nil
  first _ member := nomatch member
  last _ member := nomatch member

/-- A line goes above the lines of its parts. -/
theorem AreDrawn.cons
    (drawn : AreDrawn (guides ++ [!isLast]) false lines)
    (label : String) :
    AreDrawn guides (!isLast) ({ guides, isLast, label } :: lines) where
  chain := by
    rw [List.isChain_cons]
    refine ⟨?_, drawn.chain⟩
    intro line first
    exact .first (drawn.first line first)
  first line member := by
    obtain rfl := Option.some.inj member
    rfl
  last line member := by
    cases lines with
    | nil =>
        obtain rfl := Option.some.inj member
        exact ⟨0, rfl⟩
    | cons next others =>
        rw [List.getLast?_cons_cons] at member
        obtain ⟨ended, below⟩ := drawn.last line member
        refine ⟨ended + 1, ?_⟩
        rw [below, List.append_assoc]
        rfl

/-- The lines of a part go above the lines of the other parts. -/
theorem AreDrawn.append
    (drawn : AreDrawn guides true lines)
    (othersDrawn : AreDrawn guides more others)
    (nonempty : others ≠ []) :
    AreDrawn guides more (lines ++ others) where
  chain := by
    rw [List.isChain_append]
    refine ⟨drawn.chain, othersDrawn.chain, ?_⟩
    intro line last next first
    obtain ⟨ended, below⟩ := drawn.last line last
    refine .other ended ?_
    rw [below, Line.above, othersDrawn.first next first,
      List.append_assoc]
    rfl
  first line member := by
    cases lines with
    | nil => exact othersDrawn.first line member
    | cons next lines => exact drawn.first line member
  last line member := by
    rw [List.getLast?_append_of_ne_nil _ nonempty] at member
    exact othersDrawn.last line member

end Chains

theorem linesOfParts_ne_nil
    (guides : List Bool)
    (part : Outline String)
    (others : List (Outline String)) :
    linesOfParts guides (part :: others) ≠ [] := by
  cases part with
  | entry label parts => exact List.cons_ne_nil _ _

/-- The lines of an outline are drawn so, and those of some parts. -/
theorem areDrawn_linesBehind :
    (∀ (outline : Outline String) (guides : List Bool) (isLast : Bool),
      AreDrawn guides (!isLast) (linesBehind guides isLast outline)) ∧
      ∀ (parts : List (Outline String)) (guides : List Bool),
        AreDrawn guides false (linesOfParts guides parts) := by
  apply Outline.induction
  case entry =>
    intro label parts below guides isLast
    rw [linesBehind]
    exact (below (guides ++ [!isLast])).cons label
  case nil =>
    intro guides
    exact .nil
  case cons =>
    intro part others first following guides
    rw [linesOfParts]
    cases others with
    | nil =>
        rw [linesOfParts, List.append_nil]
        exact first guides true
    | cons other others =>
        exact
          (first guides false).append (following guides)
            (linesOfParts_ne_nil guides other others)

/-! ## Continuity -/

variable {outline : Outline String} {index column : Nat} {line next : Line}

theorem areDrawn_lines (outline : Outline String) :
    AreDrawn [] false (lines outline) :=
  areDrawn_linesBehind.1 outline [] true

theorem follows_of_getElem?
    (found : (lines outline)[index]? = some line)
    (foundNext : (lines outline)[index + 1]? = some next) :
    line.Follows next := by
  obtain ⟨inside, rfl⟩ := List.getElem?_eq_some_iff.1 foundNext
  obtain ⟨before, rfl⟩ := List.getElem?_eq_some_iff.1 found
  exact
    List.isChain_iff_getElem.1 (areDrawn_lines outline).chain index
      inside

/-- A line that leads down is not the last one. -/
theorem exists_next_of_below
    {place : Nat}
    (found : (lines outline)[index]? = some line)
    (leads : line.below[place]? = some true) :
    ∃ next, (lines outline)[index + 1]? = some next := by
  cases foundNext : (lines outline)[index + 1]? with
  | some next => exact ⟨next, rfl⟩
  | none =>
      have last : line ∈ (lines outline).getLast? := by
        have inside := (List.getElem?_eq_some_iff.1 found).1
        have outside := List.getElem?_eq_none_iff.1 foundNext
        have position :
            (lines outline).length - 1 = index := by
          omega
        rw [List.getLast?_eq_getElem?, position]
        exact found
      obtain ⟨ended, below⟩ := (areDrawn_lines outline).last line last
      have member := List.mem_of_getElem? leads
      rw [below, List.nil_append, ← List.replicate_succ] at member
      exact absurd (List.eq_of_mem_replicate member) (by decide)

/-- Where a row leads down, there is a next row and it leads up. -/
theorem exists_hasSign_below
    (plain : ∀ entry ∈ outline.preorder, IsPlain entry.2)
    (found : (lines outline)[index]? = some line)
    (sign : HasSign line.row column ['│', '├']) :
    ∃ next,
      (lines outline)[index + 1]? = some next ∧
        HasSign next.row column ['│', '├', '└'] := by
  have linePlain :=
    isPlain_of_mem_lines plain (List.mem_of_getElem? found)
  obtain ⟨place, start, leads⟩ :=
    (Line.hasSign_below_iff linePlain column).1 sign
  obtain ⟨next, foundNext⟩ := exists_next_of_below found leads
  have nextPlain :=
    isPlain_of_mem_lines plain (List.mem_of_getElem? foundNext)
  have follows := follows_of_getElem? found foundNext
  exact
    ⟨next, foundNext,
      (Line.hasSign_above_iff nextPlain column).2
        ⟨place, start, follows.above_of_below leads⟩⟩

/-- Above a marker a row leads down, or it is one column shorter. -/
theorem hasSign_above_marker
    (plain : ∀ entry ∈ outline.preorder, IsPlain entry.2)
    (found : (lines outline)[index]? = some line)
    (foundNext : (lines outline)[index + 1]? = some next)
    (marker : HasSign next.row column ['├', '└']) :
    HasSign line.row column ['│', '├'] ∨
      column = 4 * (line.guides.length + 1) ∧
        next.guides.length = line.guides.length + 1 := by
  have linePlain :=
    isPlain_of_mem_lines plain (List.mem_of_getElem? found)
  have nextPlain :=
    isPlain_of_mem_lines plain (List.mem_of_getElem? foundNext)
  have start := (Line.hasSign_marker_iff nextPlain column).1 marker
  rcases (follows_of_getElem? found foundNext).below_of_marker with
    leads | guides
  · left
    exact
      (Line.hasSign_below_iff linePlain column).2
        ⟨next.guides.length, start, leads⟩
  · right
    have deeper :
        next.guides.length = line.guides.length + 1 := by
      rw [guides, Line.below, List.length_append]
      rfl
    rw [deeper] at start
    exact ⟨start, deeper⟩

end Abacus.Drawing
