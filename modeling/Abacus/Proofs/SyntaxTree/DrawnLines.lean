import Abacus.Proofs.Drawing.Guides
import Abacus.Proofs.SyntaxTree.Drawing

/-!
# The lines of a drawn tree

A tree is drawn with a line for each of its nodes, in pre-order.  The markers
and guides of the lines lead from each line to the next: one that leads down is
taken up by the line below, and a marker is led to by the line above, unless
this is the line of the parent.
-/

namespace Abacus

open Drawing

namespace Node

/-! ## Neighbours in pre-order -/

/--
Whether a node may be listed right behind another: if it is just one deeper, it
is the first child of that node.
-/
def MayPrecede (entry next : Nat × Node) : Prop :=
  next.1 = entry.1 + 1 → entry.2.children.head? = some next.2

/-- The first of some nodes is listed first. -/
theorem head?_preorderOfParts
    (nodes : List Node)
    (depth : Nat) :
    (Outline.preorderOfParts depth (nodes.map outline)).head? =
      nodes.head?.map fun node => (depth, node) := by
  cases nodes with
  | nil => rfl
  | cons node others =>
      rw [List.map_cons, outline_eq]
      rfl

/--
Each node may be listed right behind the one before it.  What is listed behind
all of a part is no deeper than the part, and so it is not a first child.
-/
theorem isChain_preorderFrom :
    (∀ (tree : Outline Node) (node : Node) (depth : Nat),
      tree = node.outline →
        (tree.preorderFrom depth).IsChain MayPrecede) ∧
      ∀ (trees : List (Outline Node)) (nodes : List Node) (depth : Nat),
        trees = nodes.map outline →
          (Outline.preorderOfParts depth trees).IsChain MayPrecede := by
  apply Outline.induction
  case entry =>
    intro label parts below node depth same
    rw [outline_eq] at same
    obtain ⟨rfl, rfl⟩ := Outline.entry.inj same
    rw [Outline.preorderFrom, List.isChain_cons]
    refine ⟨?_, below label.children (depth + 1) rfl⟩
    intro next first _
    rw [head?_preorderOfParts] at first
    obtain ⟨child, found, rfl⟩ := Option.map_eq_some_iff.1 first
    exact found
  case nil =>
    intro nodes depth _
    exact .nil
  case cons =>
    intro part others first following nodes depth same
    cases nodes with
    | nil => cases same
    | cons node nodes =>
        obtain ⟨samePart, rfl⟩ := List.cons.inj same
        rw [Outline.preorderOfParts, List.isChain_append]
        refine
          ⟨first node depth samePart, following nodes depth rfl, ?_⟩
        intro last lastFound next nextFound deeper
        have above :=
          Outline.le_of_mem_preorderFrom.1 part depth last
            (List.mem_of_getLast? lastFound)
        rw [head?_preorderOfParts] at nextFound
        obtain ⟨other, -, rfl⟩ := Option.map_eq_some_iff.1 nextFound
        have level : depth = last.1 + 1 := deeper
        omega

variable {node : Node} {index depth : Nat} {parent child : Node}

/-- A node that is listed one deeper than the one before is its first child. -/
theorem head?_children_of_preorder
    (found : node.preorder[index]? = some (depth, parent))
    (foundNext :
      node.preorder[index + 1]? = some (depth + 1, child)) :
    parent.children.head? = some child := by
  obtain ⟨inside, next⟩ := List.getElem?_eq_some_iff.1 foundNext
  obtain ⟨before, entry⟩ := List.getElem?_eq_some_iff.1 found
  have chain := isChain_preorderFrom.1 node.outline node 0 rfl
  have follows := List.isChain_iff_getElem.1 chain index inside
  change MayPrecede node.preorder[index] node.preorder[index + 1] at follows
  rw [entry, next] at follows
  exact follows rfl

/-! ## Rows -/

/-- The lines of a drawn tree. -/
def drawnLines (node : Node) : List Line :=
  lines (node.outline.map label)

/-- The rows of a drawn tree. -/
def rows (node : Node) : List String :=
  node.drawnLines.map Line.row

/-- Each line shows a node, at the depth of the node. -/
theorem map_entry_drawnLines (node : Node) :
    node.drawnLines.map Line.entry =
      node.preorder.map (Prod.map id label) := by
  rw [drawnLines, map_entry_lines, Outline.preorder_map]
  rfl

theorem exists_entry
    {line : Line}
    (found : node.drawnLines[index]? = some line) :
    ∃ shown, node.preorder[index]? = some (line.guides.length, shown) := by
  have listed :=
    congrArg (fun entries => entries[index]?) node.map_entry_drawnLines
  rw [List.getElem?_map, found, List.getElem?_map] at listed
  obtain ⟨⟨depth, shown⟩, entry, same⟩ :=
    Option.map_eq_some_iff.1 listed.symm
  obtain ⟨rfl, -⟩ := Prod.mk.inj same
  exact ⟨shown, entry⟩

/-- Whether some rows are a drawing of a tree. -/
structure IsDrawnIn (node : Node) (rows : List String) : Prop where
  /-- The drawing consists of the rows, with a newline behind each. -/
  whole : node.render = String.join (rows.map (· ++ "\n"))
  /-- There are no other newlines. -/
  plain : ∀ row ∈ rows, '\n' ∉ row.toList
  /-- There is a row for each node in pre-order, with its marker in place. -/
  shows :
    List.Forall₂
      (fun entry row => ShowsAt row entry.1 entry.2.label)
      node.preorder rows
  /-- What leads down is taken up by the next row. -/
  below :
    ∀ index row column,
      rows[index]? = some row →
        HasSign row column ['│', '├'] →
          ∃ next,
            rows[index + 1]? = some next ∧
              HasSign next column ['│', '├', '└']
  /-- A marker is led to from above, or it stands below its parent. -/
  above :
    ∀ index row next column,
      rows[index]? = some row →
        rows[index + 1]? = some next →
          HasSign next column ['├', '└'] →
            HasSign row column ['│', '├'] ∨
              ∃ depth parent child,
                node.preorder[index]? = some (depth, parent) ∧
                  node.preorder[index + 1]? =
                      some (depth + 1, child) ∧
                    child ∈ parent.children ∧
                      column = 4 * depth + 4 ∧
                        HasSign row (4 * depth) ['├', '└']

theorem isPlain_of_mem_drawnLines
    {line : Line}
    (member : line ∈ node.drawnLines) :
    IsPlain line.label :=
  isPlain_of_mem_lines node.isPlain_of_mem_preorder member

theorem exists_drawnLine
    {row : String}
    (found : node.rows[index]? = some row) :
    ∃ line, node.drawnLines[index]? = some line ∧ line.row = row := by
  rw [rows, List.getElem?_map] at found
  exact Option.map_eq_some_iff.1 found

/-- A tree is drawn in rows that its markers and guides hold together. -/
theorem isDrawnIn_rows (node : Node) : node.IsDrawnIn node.rows where
  whole := by
    rw [rows, List.map_map]
    rfl
  plain := by
    rw [rows, List.forall_mem_map]
    intro line member
    exact Line.newline_not_mem_row (isPlain_of_mem_drawnLines member)
  shows := by
    have entries :
        List.Forall₂ Eq (node.preorder.map (Prod.map id label))
          (node.drawnLines.map Line.entry) := by
      rw [map_entry_drawnLines, List.forall₂_eq_eq_eq]
    rw [List.forall₂_map_left_iff, List.forall₂_map_right_iff] at entries
    rw [rows, List.forall₂_map_right_iff]
    refine entries.imp ?_
    intro entry line same
    obtain ⟨depth, shown⟩ := Prod.mk.inj same
    change ShowsAt line.row (id entry.1) entry.2.label
    rw [depth, shown]
    exact line.showsAt_row
  below := by
    intro index row column found sign
    obtain ⟨line, foundLine, rfl⟩ := exists_drawnLine found
    obtain ⟨next, foundNext, taken⟩ :=
      exists_hasSign_below node.isPlain_of_mem_preorder foundLine sign
    refine ⟨next.row, ?_, taken⟩
    rw [rows, List.getElem?_map]
    exact congrArg (Option.map Line.row) foundNext
  above := by
    intro index row next column found foundNext marker
    obtain ⟨line, foundLine, rfl⟩ := exists_drawnLine found
    obtain ⟨nextLine, foundNextLine, rfl⟩ := exists_drawnLine foundNext
    rcases
        hasSign_above_marker node.isPlain_of_mem_preorder foundLine
          foundNextLine marker with
      led | ⟨start, deeper⟩
    · exact .inl led
    · obtain ⟨parent, entry⟩ := exists_entry foundLine
      obtain ⟨child, nextEntry⟩ := exists_entry foundNextLine
      rw [deeper] at nextEntry
      have first := head?_children_of_preorder entry nextEntry
      have plain :=
        isPlain_of_mem_drawnLines (List.mem_of_getElem? foundLine)
      exact
        .inr
          ⟨_, parent, child, entry, nextEntry, List.mem_of_head? first,
            start, (Line.hasSign_marker_iff plain _).2 rfl⟩

end Node

end Abacus
