/-!
# Machine words

Values are signed words of 32 bits.  Arithmetic never wraps: an operation is
carried out on unbounded integers, and its result becomes a word only if it
lies in the range of words.
-/

namespace Abacus.Word

/-- The smallest word. -/
def smallest : Int := -2147483648

/-- The greatest word. -/
def greatest : Int := 2147483647

/-- The word that stands for an integer, if the integer is in range. -/
def ofInt? (number : Int) : Option Int32 :=
  if smallest ≤ number ∧ number ≤ greatest then
    some (Int32.ofInt number)
  else
    none

/-- A word stands for the integer that it was made from, and no other. -/
theorem ofInt?_eq_some_iff
    {number : Int}
    {word : Int32} :
    ofInt? number = some word ↔ word.toInt = number := by
  unfold ofInt?
  constructor
  · intro made
    split at made
    case isTrue inRange =>
      obtain rfl := Option.some.inj made
      obtain ⟨lower, upper⟩ := inRange
      simp only [smallest, greatest] at lower upper
      exact Int32.toInt_ofInt_of_le (by omega) (by omega)
    case isFalse => contradiction
  · rintro rfl
    have lower := word.le_toInt
    have upper := word.toInt_lt
    rw [if_pos (by simp only [smallest, greatest]; omega),
      Int32.ofInt_toInt]

/-- An integer has no word exactly when it is out of range. -/
theorem ofInt?_eq_none_iff
    {number : Int} :
    ofInt? number = none ↔
      number < smallest ∨ greatest < number := by
  unfold ofInt?
  split <;> simp only [reduceCtorEq, false_iff, true_iff] <;> omega

end Abacus.Word
