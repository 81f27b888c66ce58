import Abacus.Expression.Value
import Abacus.Proofs.Expression.Parts

/-!
# Exact values and first failures

On unbounded integers an expression has an *exact value*, unless a number
token lacks one, a divisor is zero or a token between two operands is no
operator.  A part of an expression *fails* when it is the part to blame for
that, or when its operands are words and its exact result is not.

Words are valued exactly: the value of an expression is its exact value, and
there is one unless some part fails.  If parts fail, then the failure of the
whole is that of the failing part that comes first in post-order.
-/

namespace Abacus

/-- Whether an unbounded integer is in the range of words. -/
def Word.InRange (number : Int) : Prop :=
  Word.smallest ≤ number ∧ number ≤ Word.greatest

/--
The result of an operator on unbounded integers, if there is one.  A quotient
loses its fractional part, and nothing can be divided by zero.
-/
def Token.Kind.exactResult? (left right : Int) : Token.Kind → Option Int
  | .plus => some (left + right)
  | .minus => some (left - right)
  | .star => some (left * right)
  | .slash => if right = 0 then none else some (left.tdiv right)
  | _ => none

/-- The kinds of token that join two operands. -/
def Token.Kind.operators : List Token.Kind :=
  [.plus, .minus, .star, .slash]

namespace Expression

/-- The value of an expression on unbounded integers, if there is one. -/
def exactValue? : Expression → Option Int
  | .number literal => literal.value.map Int32.toInt
  | .binary left operator right =>
      left.exactValue?.bind fun leftValue =>
        right.exactValue?.bind fun rightValue =>
          operator.kind.exactResult? leftValue rightValue
  | .parenthesized _ inner _ => inner.exactValue?

/--
Both operands of a chain link have exact values, and these are in the range of
words.
-/
structure OperandValues
    (left right : Expression)
    (leftValue rightValue : Int) :
    Prop where
  left_exact : left.exactValue? = some leftValue
  left_inRange : Word.InRange leftValue
  right_exact : right.exactValue? = some rightValue
  right_inRange : Word.InRange rightValue

/--
A part that is itself to blame for a failure: a number token without a value,
a division by zero, an exact result that is no word, or a token between two
operands that is no operator.
-/
inductive Fails : Expression → ValueError → Prop where
  | missingValue
      {literal : Token}
      (absent : literal.value = none) :
      Fails (.number literal) (.missingValue literal.position)
  | divisionByZero
      {left right : Expression}
      {operator : Token}
      {leftValue : Int}
      (operands : OperandValues left right leftValue 0)
      (divides : operator.kind = .slash) :
      Fails (.binary left operator right)
        (.divisionByZero operator.position)
  | overflow
      {left right : Expression}
      {operator : Token}
      {leftValue rightValue result : Int}
      (operands : OperandValues left right leftValue rightValue)
      (exact :
        operator.kind.exactResult? leftValue rightValue =
          some result)
      (outside : ¬ Word.InRange result) :
      Fails (.binary left operator right)
        (.overflow operator.position)
  | unexpectedOperator
      {left right : Expression}
      {operator : Token}
      {leftValue rightValue : Int}
      (operands : OperandValues left right leftValue rightValue)
      (other : operator.kind ∉ Token.Kind.operators) :
      Fails (.binary left operator right)
        (.unexpectedOperator operator.kind)

/-- Whether no part of an expression fails. -/
def NeverFails (expression : Expression) : Prop :=
  ∀ part ∈ expression.parts, ∀ failure, ¬ part.Fails failure

/-- The failure of the first part, in post-order, that fails. -/
def FirstFails
    (expression : Expression)
    (failure : ValueError) :
    Prop :=
  ∃ earlier part later,
    expression.parts = earlier ++ part :: later ∧
      (∀ before ∈ earlier, ∀ other, ¬ before.Fails other) ∧
      part.Fails failure

end Expression

/-! ## Operators on words -/

theorem Word.inRange_toInt (word : Int32) : Word.InRange word.toInt := by
  have lower := word.le_toInt
  have upper := word.toInt_lt
  simp only [Word.InRange, Word.smallest, Word.greatest]
  omega

theorem Token.checked_eq_ok_iff
    {operator : Token}
    {result : Int}
    {word : Int32} :
    operator.checked result = .ok word ↔ result = word.toInt := by
  rw [Token.checked, eq_comm (a := result),
    ← Word.ofInt?_eq_some_iff]
  cases Word.ofInt? result <;> simp

theorem Token.checked_eq_error_iff
    {operator : Token}
    {result : Int}
    {failure : ValueError} :
    operator.checked result = .error failure ↔
      ¬ Word.InRange result ∧
        failure = .overflow operator.position := by
  have outside :
      ¬ Word.InRange result ↔ Word.ofInt? result = none := by
    rw [Word.ofInt?_eq_none_iff, Word.InRange]
    omega
  rw [Token.checked, outside]
  cases Word.ofInt? result <;> simp [eq_comm]

@[simp]
theorem Token.Kind.exactResult?_slash_zero
    (left : Int) :
    Token.Kind.slash.exactResult? left 0 = none := by
  rw [Token.Kind.exactResult?, if_pos rfl]

theorem Token.Kind.exactResult?_of_not_mem_operators
    {kind : Token.Kind}
    (foreign : kind ∉ Token.Kind.operators)
    (left right : Int) :
    kind.exactResult? left right = none := by
  revert foreign
  unfold Token.Kind.exactResult? Token.Kind.operators
  cases kind <;> simp

/-- An operator with an exact result gives that result if it is a word. -/
theorem Token.apply_of_exactResult?_eq_some
    {operator : Token}
    {left right : Int32}
    {result : Int}
    (exact :
      operator.kind.exactResult? left.toInt right.toInt =
        some result) :
    operator.apply left right = operator.checked result := by
  have zero : right.toInt = 0 ↔ right = 0 := by
    rw [← Int32.toInt_inj, Int32.toInt_zero]
  revert exact
  unfold Token.apply Token.Kind.exactResult?
  cases operator.kind <;> simp +contextual [zero]

/-- An operator lacks an exact result for one of two reasons. -/
theorem Token.apply_of_exactResult?_eq_none
    {operator : Token}
    {left right : Int32}
    (exact :
      operator.kind.exactResult? left.toInt right.toInt = none) :
    (operator.kind = .slash ∧ right.toInt = 0 ∧
        operator.apply left right =
          .error (.divisionByZero operator.position)) ∨
      (operator.kind ∉ Token.Kind.operators ∧
        operator.apply left right =
          .error (.unexpectedOperator operator.kind)) := by
  have zero : right.toInt = 0 ↔ right = 0 := by
    rw [← Int32.toInt_inj, Int32.toInt_zero]
  revert exact
  unfold Token.apply Token.Kind.exactResult?
  cases operator.kind <;>
    simp +contextual [zero, Token.Kind.operators]

namespace Expression

variable
    {left right inner : Expression}
    {opening operator closing : Token}
    {failure : ValueError}

/-! ## Values of chains -/

theorem value_binary_eq_ok_iff
    {word : Int32} :
    (binary left operator right).value = .ok word ↔
      ∃ leftWord rightWord,
        left.value = .ok leftWord ∧
          right.value = .ok rightWord ∧
            operator.apply leftWord rightWord = .ok word := by
  rw [value]
  cases left.value <;> cases right.value <;> simp

/-- A chain fails where its left operand, its right one or its link does. -/
theorem value_binary_eq_error_iff :
    (binary left operator right).value = .error failure ↔
      left.value = .error failure ∨
        (∃ leftWord,
          left.value = .ok leftWord ∧
            right.value = .error failure) ∨
          ∃ leftWord rightWord,
            left.value = .ok leftWord ∧
              right.value = .ok rightWord ∧
                operator.apply leftWord rightWord =
                  .error failure := by
  rw [value]
  cases left.value <;> cases right.value <;> simp

/-! ## Failing parts -/

theorem neverFails_binary_iff :
    (binary left operator right).NeverFails ↔
      left.NeverFails ∧ right.NeverFails ∧
        ∀ failure, ¬ (binary left operator right).Fails failure := by
  simp only [NeverFails, mem_parts_binary, or_imp, forall_and,
    forall_eq]

theorem neverFails_parenthesized_iff :
    (parenthesized opening inner closing).NeverFails ↔
      inner.NeverFails := by
  simp only [NeverFails, mem_parts_parenthesized, or_imp, forall_and,
    forall_eq, and_iff_left_iff_imp]
  rintro - failure ⟨⟩

theorem FirstFails.of_left
    (first : left.FirstFails failure) :
    (binary left operator right).FirstFails failure := by
  rcases first with ⟨earlier, part, later, split, before, fails⟩
  refine
    ⟨earlier, part,
      later ++ right.parts ++ [binary left operator right],
      ?_, before, fails⟩
  simp [parts, split]

theorem FirstFails.of_right
    (leftGood : left.NeverFails)
    (first : right.FirstFails failure) :
    (binary left operator right).FirstFails failure := by
  rcases first with ⟨earlier, part, later, split, before, fails⟩
  refine
    ⟨left.parts ++ earlier, part,
      later ++ [binary left operator right], ?_, ?_, fails⟩
  · simp [parts, split]
  · intro candidate member
    rcases List.mem_append.1 member with member | member
    · exact leftGood candidate member
    · exact before candidate member

theorem FirstFails.of_link
    (leftGood : left.NeverFails)
    (rightGood : right.NeverFails)
    (fails : (binary left operator right).Fails failure) :
    (binary left operator right).FirstFails failure := by
  refine
    ⟨left.parts ++ right.parts, binary left operator right, [],
      rfl, ?_, fails⟩
  intro candidate member
  rcases List.mem_append.1 member with member | member
  · exact leftGood candidate member
  · exact rightGood candidate member

theorem FirstFails.of_inner
    (first : inner.FirstFails failure) :
    (parenthesized opening inner closing).FirstFails failure := by
  rcases first with ⟨earlier, part, later, split, before, fails⟩
  refine
    ⟨earlier, part,
      later ++ [parenthesized opening inner closing],
      ?_, before, fails⟩
  simp [parts, split]

theorem FirstFails.not_neverFails
    {expression : Expression}
    (first : expression.FirstFails failure) :
    ¬ expression.NeverFails := by
  rcases first with ⟨earlier, part, later, split, before, fails⟩
  intro good
  refine good part ?_ failure fails
  rw [split]
  exact List.mem_append_right earlier (List.mem_cons_self ..)

theorem OperandValues.of_words
    {leftWord rightWord : Int32}
    (left_exact : left.exactValue? = some leftWord.toInt)
    (right_exact : right.exactValue? = some rightWord.toInt) :
    OperandValues left right leftWord.toInt rightWord.toInt :=
  ⟨left_exact, Word.inRange_toInt leftWord,
    right_exact, Word.inRange_toInt rightWord⟩

theorem OperandValues.unique
    {leftValue rightValue otherLeft otherRight : Int}
    (operands : OperandValues left right leftValue rightValue)
    (others : OperandValues left right otherLeft otherRight) :
    leftValue = otherLeft ∧ rightValue = otherRight :=
  ⟨Option.some.inj
      (operands.left_exact.symm.trans others.left_exact),
    Option.some.inj
      (operands.right_exact.symm.trans others.right_exact)⟩

theorem OperandValues.exactValue?_binary
    {leftValue rightValue : Int}
    (operands : OperandValues left right leftValue rightValue) :
    (binary left operator right).exactValue? =
      operator.kind.exactResult? leftValue rightValue := by
  simp only [exactValue?, operands.left_exact, operands.right_exact,
    Option.bind_some]

/-- A part fails in one way only. -/
theorem Fails.unique
    {part : Expression}
    {other : ValueError}
    (fails : part.Fails failure)
    (otherFails : part.Fails other) :
    failure = other := by
  cases fails with
  | missingValue absent =>
      cases otherFails
      rfl
  | divisionByZero operands divides =>
      cases otherFails with
      | divisionByZero _ _ => rfl
      | overflow others exact outside =>
          rcases operands.unique others with ⟨rfl, rfl⟩
          simp [divides] at exact
      | unexpectedOperator others foreign =>
          simp [divides, Token.Kind.operators] at foreign
  | overflow operands exact outside =>
      cases otherFails with
      | divisionByZero others divides =>
          rcases operands.unique others with ⟨rfl, rfl⟩
          simp [divides] at exact
      | overflow _ _ _ => rfl
      | unexpectedOperator others foreign =>
          simp [Token.Kind.exactResult?_of_not_mem_operators foreign]
            at exact
  | unexpectedOperator operands foreign =>
      cases otherFails with
      | divisionByZero others divides =>
          simp [divides, Token.Kind.operators] at foreign
      | overflow others exact outside =>
          simp [Token.Kind.exactResult?_of_not_mem_operators foreign]
            at exact
      | unexpectedOperator _ _ => rfl

/-- There is only one first failure, since of two one would be before the other. -/
theorem FirstFails.unique
    {expression : Expression}
    {other : ValueError}
    (first : expression.FirstFails failure)
    (otherFirst : expression.FirstFails other) :
    failure = other := by
  rcases first with ⟨earlier, part, later, split, before, fails⟩
  rcases otherFirst with
    ⟨otherEarlier, otherPart, otherLater, otherSplit, otherBefore,
      otherFails⟩
  rw [split] at otherSplit
  rcases List.append_eq_append_iff.1 otherSplit with
    ⟨between, rfl, shape⟩ | ⟨between, rfl, shape⟩
  · cases between with
    | nil =>
        rcases List.cons.inj shape with ⟨rfl, rfl⟩
        exact fails.unique otherFails
    | cons first between =>
        rcases List.cons.inj shape with ⟨rfl, rfl⟩
        exact (otherBefore part (by simp) _ fails).elim
  · cases between with
    | nil =>
        rcases List.cons.inj shape with ⟨rfl, rfl⟩
        exact fails.unique otherFails
    | cons first between =>
        rcases List.cons.inj shape with ⟨rfl, rfl⟩
        exact (before otherPart (by simp) _ otherFails).elim

/-! ## Values are exact -/

/-- An operator that gives a word gives its exact result. -/
theorem OperandValues.exactValue?_of_apply_eq_ok
    {leftWord rightWord word : Int32}
    (operands :
      OperandValues left right leftWord.toInt rightWord.toInt)
    (applied : operator.apply leftWord rightWord = .ok word) :
    (binary left operator right).exactValue? = some word.toInt := by
  rw [operands.exactValue?_binary]
  cases exact :
      operator.kind.exactResult? leftWord.toInt rightWord.toInt with
  | none =>
      rcases Token.apply_of_exactResult?_eq_none exact with
        ⟨_, _, fails⟩ | ⟨_, fails⟩
      · rw [fails] at applied
        contradiction
      · rw [fails] at applied
        contradiction
  | some result =>
      rw [Token.apply_of_exactResult?_eq_some exact,
        Token.checked_eq_ok_iff] at applied
      rw [applied]

/-- An operator that gives a word is not to blame for a failure. -/
theorem OperandValues.not_fails_of_apply_eq_ok
    {leftWord rightWord word : Int32}
    (operands :
      OperandValues left right leftWord.toInt rightWord.toInt)
    (applied : operator.apply leftWord rightWord = .ok word) :
    ¬ (binary left operator right).Fails failure := by
  have exact := operands.exactValue?_of_apply_eq_ok applied
  intro fails
  cases fails with
  | divisionByZero others divides =>
      rw [others.exactValue?_binary, divides] at exact
      simp at exact
  | overflow others result outside =>
      rw [others.exactValue?_binary, result] at exact
      rw [Option.some.inj exact] at outside
      exact outside (Word.inRange_toInt word)
  | unexpectedOperator others foreign =>
      rw [others.exactValue?_binary,
        Token.Kind.exactResult?_of_not_mem_operators foreign] at exact
      contradiction

/-- An operator that gives no word is to blame for that. -/
theorem OperandValues.fails_of_apply_eq_error
    {leftWord rightWord : Int32}
    (operands :
      OperandValues left right leftWord.toInt rightWord.toInt)
    (applied :
      operator.apply leftWord rightWord = .error failure) :
    (binary left operator right).Fails failure := by
  cases exact :
      operator.kind.exactResult? leftWord.toInt rightWord.toInt with
  | none =>
      rcases Token.apply_of_exactResult?_eq_none exact with
        ⟨divides, zero, fails⟩ | ⟨foreign, fails⟩
      · rw [fails] at applied
        rw [zero] at operands
        rw [← Except.error.inj applied]
        exact .divisionByZero operands divides
      · rw [fails] at applied
        rw [← Except.error.inj applied]
        exact .unexpectedOperator operands foreign
  | some result =>
      rw [Token.apply_of_exactResult?_eq_some exact,
        Token.checked_eq_error_iff] at applied
      rcases applied with ⟨outside, rfl⟩
      exact .overflow operands exact outside

/-- An expression with a value has it exactly, and no part of it fails. -/
theorem neverFails_of_value_eq_ok
    {expression : Expression}
    {word : Int32}
    (valued : expression.value = .ok word) :
    expression.NeverFails ∧
      expression.exactValue? = some word.toInt := by
  induction expression generalizing word with
  | number literal =>
      rw [value] at valued
      cases present : literal.value with
      | none =>
          rw [present] at valued
          contradiction
      | some literalWord =>
          rw [present] at valued
          rcases Except.ok.inj valued with rfl
          constructor
          · intro part member failure fails
            rw [mem_parts_number] at member
            subst part
            cases fails with
            | missingValue absent =>
                rw [present] at absent
                contradiction
          · rw [exactValue?, present]
            rfl
  | binary left operator right leftHypothesis rightHypothesis =>
      rcases value_binary_eq_ok_iff.1 valued with
        ⟨leftWord, rightWord, leftValued, rightValued, applied⟩
      rcases leftHypothesis leftValued with ⟨leftGood, leftExact⟩
      rcases rightHypothesis rightValued with ⟨rightGood, rightExact⟩
      have operands := OperandValues.of_words leftExact rightExact
      constructor
      · rw [neverFails_binary_iff]
        exact
          ⟨leftGood, rightGood, fun failure =>
            operands.not_fails_of_apply_eq_ok applied⟩
      · exact operands.exactValue?_of_apply_eq_ok applied
  | parenthesized opening inner closing hypothesis =>
      rcases hypothesis valued with ⟨good, exact⟩
      exact ⟨neverFails_parenthesized_iff.2 good, exact⟩

/-- An expression without a value has a part that fails first. -/
theorem firstFails_of_value_eq_error
    {expression : Expression}
    (valued : expression.value = .error failure) :
    expression.FirstFails failure := by
  induction expression with
  | number literal =>
      rw [value] at valued
      cases present : literal.value with
      | none =>
          rw [present] at valued
          rw [← Except.error.inj valued]
          exact
            ⟨[], number literal, [], rfl, by simp,
              .missingValue present⟩
      | some literalWord =>
          rw [present] at valued
          contradiction
  | binary left operator right leftHypothesis rightHypothesis =>
      rcases value_binary_eq_error_iff.1 valued with
        leftFails | ⟨leftWord, leftValued, rightFails⟩ |
          ⟨leftWord, rightWord, leftValued, rightValued, applied⟩
      · exact (leftHypothesis leftFails).of_left
      · exact
          (rightHypothesis rightFails).of_right
            (neverFails_of_value_eq_ok leftValued).1
      · rcases neverFails_of_value_eq_ok leftValued with
          ⟨leftGood, leftExact⟩
        rcases neverFails_of_value_eq_ok rightValued with
          ⟨rightGood, rightExact⟩
        have operands := OperandValues.of_words leftExact rightExact
        exact
          .of_link leftGood rightGood
            (operands.fails_of_apply_eq_error applied)
  | parenthesized opening inner closing hypothesis =>
      exact (hypothesis valued).of_inner

/--
The value of an expression is its exact value on unbounded integers.  There is
one exactly if no part of the expression fails; otherwise the failure is that
of the first failing part in left-to-right post-order.
-/
theorem value_exact_or_firstFails
    (expression : Expression) :
    ((∃ word, expression.value = .ok word) ↔
        expression.NeverFails) ∧
      (∀ word,
        expression.value = .ok word →
          expression.exactValue? = some word.toInt) ∧
      ∀ failure,
        expression.value = .error failure ↔
          expression.FirstFails failure := by
  cases valued : expression.value with
  | ok word =>
      rcases neverFails_of_value_eq_ok valued with ⟨good, exact⟩
      refine ⟨⟨fun _ => good, fun _ => ⟨word, rfl⟩⟩, ?_, ?_⟩
      · intro other same
        rw [← Except.ok.inj same]
        exact exact
      · intro failure
        constructor
        · intro same
          contradiction
        · intro first
          exact (first.not_neverFails good).elim
  | error failure =>
      have first := firstFails_of_value_eq_error valued
      refine ⟨⟨?_, ?_⟩, ?_, ?_⟩
      · rintro ⟨word, same⟩
        contradiction
      · intro good
        exact (first.not_neverFails good).elim
      · intro word same
        contradiction
      · intro other
        constructor
        · intro same
          rw [← Except.error.inj same]
          exact first
        · intro otherFirst
          rw [first.unique otherFirst]

end Expression

end Abacus
