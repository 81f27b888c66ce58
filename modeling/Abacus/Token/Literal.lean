import Abacus.Word

/-!
# Number literals

A literal is a run of decimal digits of any length, with any number of leading
zeros.  It has a value if the number that its digits denote is a word.

The value is built digit by digit and given up as soon as it passes the
greatest word.  `value?_eq` says that nothing is lost by that, since further
digits can only make a number greater.
-/

namespace Abacus.Literal

/-- What one digit stands for. -/
def digitValue (digit : Char) : Nat :=
  digit.toNat - '0'.toNat

/-- The number denoted by a run of digits with one more digit at its end. -/
def extend (number : Nat) (digit : Char) : Nat :=
  10 * number + digitValue digit

/-- The number that a run of digits denotes, however great. -/
def decimal (digits : List Char) : Nat :=
  digits.foldl extend 0

/-- The greatest number that a literal may denote. -/
def limit : Nat := Word.greatest.toNat

/-- One more digit at the end of a number, unless that makes it too great. -/
def extend? (number : Nat) (digit : Char) : Option Nat :=
  if extend number digit ≤ limit then
    some (extend number digit)
  else
    none

/-- The value of a literal, if it has one. -/
def value? (text : String) : Option Int32 :=
  (text.toList.foldlM extend? 0).map fun number =>
    Int32.ofInt number

theorem le_foldl_extend
    (digits : List Char)
    (number : Nat) :
    number ≤ digits.foldl extend number := by
  induction digits generalizing number with
  | nil => exact Nat.le_refl number
  | cons digit digits hypothesis =>
      have step := hypothesis (extend number digit)
      have grows : number ≤ extend number digit := by
        unfold extend
        omega
      exact Nat.le_trans grows step

/-- Giving up early gives up exactly the numbers that are too great. -/
theorem foldlM_extend?
    (digits : List Char)
    {number : Nat}
    (small : number ≤ limit) :
    digits.foldlM extend? number =
      if digits.foldl extend number ≤ limit then
        some (digits.foldl extend number)
      else
        none := by
  induction digits generalizing number with
  | nil => simp [small]
  | cons digit digits hypothesis =>
      rw [List.foldlM_cons, List.foldl_cons]
      by_cases fits : extend number digit ≤ limit
      · rw [extend?, if_pos fits]
        exact hypothesis fits
      · have grows := le_foldl_extend digits (extend number digit)
        rw [extend?, if_neg fits, if_neg (by omega)]
        rfl

/-- A literal has the value that its digits denote, if that is a word. -/
theorem value?_eq
    (text : String) :
    value? text = Word.ofInt? (decimal text.toList) := by
  have inRange :
      (Word.smallest ≤ (decimal text.toList : Int) ∧
          (decimal text.toList : Int) ≤ Word.greatest) ↔
        decimal text.toList ≤ limit := by
    simp only [limit, Word.smallest, Word.greatest]
    omega
  rw [value?, foldlM_extend? _ (Nat.zero_le limit), ← decimal,
    Word.ofInt?]
  simp only [inRange]
  split <;> rfl

/-- A literal is no word exactly if its digits denote too much. -/
theorem ofInt?_decimal_eq_none_iff
    {digits : List Char} :
    Word.ofInt? (decimal digits) = none ↔
      Word.greatest < (decimal digits : Int) := by
  have positive : Word.smallest ≤ (decimal digits : Int) := by
    simp only [Word.smallest]
    omega
  rw [Word.ofInt?_eq_none_iff]
  exact or_iff_right (Int.not_lt.2 positive)

end Abacus.Literal
