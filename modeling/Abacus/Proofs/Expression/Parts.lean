import Abacus.SyntaxTree.Node

/-!
# Parts of an expression

The parts of an expression are the expression itself and the parts of its
operands or of what it has in parentheses.  They are listed in left-to-right
post-order, which is the order in which they are valued: operands before the
chain that joins them, and left before right.

Whatever a part has, the whole has as well: its parts are parts of the whole,
its tokens are tokens of the whole, and the groups inside each other in a part
are inside each other in the whole.
-/

namespace Abacus.Expression

/-- An expression and all expressions below it, in left-to-right post-order. -/
def parts : Expression → List Expression
  | .number literal => [.number literal]
  | .binary left operator right =>
      left.parts ++ right.parts ++ [.binary left operator right]
  | .parenthesized opening inner closing =>
      inner.parts ++ [.parenthesized opening inner closing]

/-- An expression is the last of its own parts. -/
@[simp]
theorem self_mem_parts (expression : Expression) :
    expression ∈ expression.parts := by
  cases expression <;> simp [parts]

@[simp]
theorem mem_parts_number
    {part : Expression}
    {literal : Token} :
    part ∈ (number literal).parts ↔ part = .number literal := by
  simp [parts]

@[simp]
theorem mem_parts_binary
    {part left right : Expression}
    {operator : Token} :
    part ∈ (binary left operator right).parts ↔
      part ∈ left.parts ∨ part ∈ right.parts ∨
        part = .binary left operator right := by
  simp [parts]

@[simp]
theorem mem_parts_parenthesized
    {part inner : Expression}
    {opening closing : Token} :
    part ∈ (parenthesized opening inner closing).parts ↔
      part ∈ inner.parts ∨
        part = .parenthesized opening inner closing := by
  simp [parts]

@[simp]
theorem mem_tokens_number
    {token literal : Token} :
    token ∈ (number literal).tokens ↔ token = literal := by
  simp [tokens]

@[simp]
theorem mem_tokens_binary
    {token operator : Token}
    {left right : Expression} :
    token ∈ (binary left operator right).tokens ↔
      token ∈ left.tokens ∨ token = operator ∨
        token ∈ right.tokens := by
  simp [tokens]

@[simp]
theorem mem_tokens_parenthesized
    {token opening closing : Token}
    {inner : Expression} :
    token ∈ (parenthesized opening inner closing).tokens ↔
      token = opening ∨ token ∈ inner.tokens ∨ token = closing := by
  simp [tokens]

/-- The parts of a part are parts of the whole. -/
theorem parts_subset_of_mem_parts
    {part whole : Expression}
    (member : part ∈ whole.parts) :
    part.parts ⊆ whole.parts := by
  induction whole with
  | number literal =>
      rw [mem_parts_number] at member
      rw [member]
      exact List.Subset.refl _
  | binary left operator right leftSubset rightSubset =>
      rw [mem_parts_binary] at member
      intro inside insideMember
      rw [mem_parts_binary]
      rcases member with member | member | rfl
      · exact Or.inl (leftSubset member insideMember)
      · exact Or.inr (Or.inl (rightSubset member insideMember))
      · exact mem_parts_binary.1 insideMember
  | parenthesized opening inner closing innerSubset =>
      rw [mem_parts_parenthesized] at member
      intro inside insideMember
      rw [mem_parts_parenthesized]
      rcases member with member | rfl
      · exact Or.inl (innerSubset member insideMember)
      · exact mem_parts_parenthesized.1 insideMember

/-- The tokens of a part are tokens of the whole. -/
theorem tokens_subset_of_mem_parts
    {part whole : Expression}
    (member : part ∈ whole.parts) :
    part.tokens ⊆ whole.tokens := by
  induction whole with
  | number literal =>
      rw [mem_parts_number] at member
      rw [member]
      exact List.Subset.refl _
  | binary left operator right leftSubset rightSubset =>
      rw [mem_parts_binary] at member
      rcases member with member | member | rfl
      · exact
          List.subset_append_of_subset_left _ (leftSubset member)
      · exact
          List.subset_append_of_subset_right _
            (List.subset_cons_of_subset _ (rightSubset member))
      · exact List.Subset.refl _
  | parenthesized opening inner closing innerSubset =>
      rw [mem_parts_parenthesized] at member
      rcases member with member | rfl
      · exact
          List.subset_cons_of_subset _
            (List.subset_append_of_subset_left _
              (innerSubset member))
      · exact List.Subset.refl _

/-- There are no more groups around anything in a part than in the whole. -/
theorem groupDepth_le_of_mem_parts
    {part whole : Expression}
    (member : part ∈ whole.parts) :
    part.groupDepth ≤ whole.groupDepth := by
  induction whole with
  | number literal =>
      rw [mem_parts_number] at member
      exact Nat.le_of_eq (congrArg groupDepth member)
  | binary left operator right leftBound rightBound =>
      rw [mem_parts_binary] at member
      rcases member with member | member | rfl
      · exact Nat.le_trans (leftBound member) (Nat.le_max_left _ _)
      · exact Nat.le_trans (rightBound member) (Nat.le_max_right _ _)
      · exact Nat.le_refl _
  | parenthesized opening inner closing innerBound =>
      rw [mem_parts_parenthesized] at member
      rcases member with member | rfl
      · exact Nat.le_succ_of_le (innerBound member)
      · exact Nat.le_refl _

/-- No part is taller than the whole. -/
theorem height_le_of_mem_parts
    {part whole : Expression}
    (member : part ∈ whole.parts) :
    part.height ≤ whole.height := by
  induction whole with
  | number literal =>
      rw [mem_parts_number] at member
      exact Nat.le_of_eq (congrArg height member)
  | binary left operator right leftBound rightBound =>
      rw [mem_parts_binary] at member
      rcases member with member | member | rfl
      · exact
          Nat.le_succ_of_le
            (Nat.le_trans (leftBound member) (Nat.le_max_left _ _))
      · exact
          Nat.le_succ_of_le
            (Nat.le_trans (rightBound member) (Nat.le_max_right _ _))
      · exact Nat.le_refl _
  | parenthesized opening inner closing innerBound =>
      rw [mem_parts_parenthesized] at member
      rcases member with member | rfl
      · exact Nat.le_succ_of_le (innerBound member)
      · exact Nat.le_refl _

end Abacus.Expression
