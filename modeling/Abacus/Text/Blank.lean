/-!
# Blank characters

A character is blank when it has the Unicode property `White_Space`.  The
property holds of twenty-five characters, listed here as ten ranges of code
points.  Blanks separate tokens, and a line that holds nothing else is not
an expression at all.
-/

namespace Abacus.Text

/-- The code points with the property `White_Space`, as inclusive ranges. -/
def blankRanges : List (Nat × Nat) :=
  [(0x0009, 0x000D),
   (0x0020, 0x0020),
   (0x0085, 0x0085),
   (0x00A0, 0x00A0),
   (0x1680, 0x1680),
   (0x2000, 0x200A),
   (0x2028, 0x2029),
   (0x202F, 0x202F),
   (0x205F, 0x205F),
   (0x3000, 0x3000)]

/-- Whether a character has the property `White_Space`. -/
def isBlank (character : Char) : Bool :=
  blankRanges.any fun range =>
    range.1 ≤ character.toNat && character.toNat ≤ range.2

theorem isBlank_iff
    (character : Char) :
    isBlank character = true ↔
      ∃ range ∈ blankRanges,
        range.1 ≤ character.toNat ∧
          character.toNat ≤ range.2 := by
  simp [isBlank]

/-- The ranges hold twenty-five code points between them. -/
example :
    (blankRanges.flatMap fun range =>
      List.range' range.1 (range.2 - range.1 + 1)).length = 25 := rfl

/-- Space, tab, carriage return and newline are blank. -/
theorem isBlank_of_isWhitespace
    {character : Char}
    (white : character.isWhitespace = true) :
    isBlank character = true := by
  simp only [Char.isWhitespace, Bool.or_eq_true,
    decide_eq_true_eq] at white
  rcases white with ((rfl | rfl) | rfl) | rfl <;> rfl

/-- Digits are not blank, so no character starts two kinds of token. -/
theorem isBlank_eq_false_of_isDigit
    {character : Char}
    (digit : character.isDigit = true) :
    isBlank character = false := by
  have bounds :
      48 ≤ character.toNat ∧ character.toNat ≤ 57 := by
    simpa [Char.isDigit, UInt32.le_iff_toNat_le] using digit
  rw [Bool.eq_false_iff, ne_eq, isBlank_iff]
  simp only [blankRanges, List.mem_cons, List.not_mem_nil, or_false]
  rintro ⟨range, member, lower, upper⟩
  rcases member with
    rfl | rfl | rfl | rfl | rfl | rfl | rfl | rfl | rfl | rfl <;> omega

end Abacus.Text
