import Abacus.Calculation
import Abacus.Proofs.Grammar.Slots
import Abacus.Proofs.SyntaxTree.Acceptance
import Abacus.Proofs.Token.Position

/-!
# Outcomes of a calculation

A line is valued only if its tree has no diagnostics.  All tokens of such a
tree are tokens of the line, and its number tokens have values.  So there are
two ways left in which a calculation can fail, and both point at the byte of an
operator in the line.
-/

namespace Abacus

/-- What a calculation may come to. -/
inductive CalculationOutcome (source : String) :
    Except CalculationError Int32 → Prop where
  | value
      {word : Int32}
      (accepted : (SyntaxTree.ofSource source).diagnostics = [])
      (valued : (SyntaxTree.ofSource source).root.value = .ok word) :
      CalculationOutcome source (.ok word)
  | diagnostics
      (rejected : (SyntaxTree.ofSource source).diagnostics ≠ []) :
      CalculationOutcome source
        (.error
          (.diagnostics (SyntaxTree.ofSource source).diagnostics))
  | divisionByZero
      {position : Nat}
      (accepted : (SyntaxTree.ofSource source).diagnostics = [])
      (inside : position < source.utf8ByteSize)
      (found : Text.HasByte source position '/') :
      CalculationOutcome source
        (.error (.value (.divisionByZero position)))
  | overflow
      {position : Nat}
      {operator : Char}
      (accepted : (SyntaxTree.ofSource source).diagnostics = [])
      (inside : position < source.utf8ByteSize)
      (operates : operator ∈ ['+', '-', '*', '/'])
      (found : Text.HasByte source position operator) :
      CalculationOutcome source
        (.error (.value (.overflow position)))

theorem Token.Kind.exists_symbol?_of_mem_operators
    {kind : Token.Kind}
    (operates : kind ∈ operators) :
    ∃ symbol ∈ ['+', '-', '*', '/'], kind.symbol? = some symbol := by
  revert operates
  cases kind <;> simp [operators, symbol?]

/-- Without lexical faults, all number tokens have values. -/
theorem TokenBuffer.value_ne_none
    {source : String}
    {token : Token}
    (lexical : (ofSource source).diagnostics = [])
    (member : token ∈ (ofSource source).tokens)
    (isNumber : token.kind = .number) :
    token.value ≠ none := by
  rw [diagnostics_ofSource, List.filterMap_eq_nil_iff] at lexical
  have faultless := lexical token (mem_drain_of_mem_tokens member)
  intro absent
  simp [Token.lexicalFault?, isNumber, absent] at faultless

namespace SyntaxTree

variable {source : String}

theorem tokens_root_ofSource
    (accepted : (ofSource source).diagnostics = []) :
    (ofSource source).root.tokens =
      (TokenBuffer.ofSource source).tokens :=
  (TokenBuffer.root_of_accepted
    (fun _ member => TokenBuffer.kind_ne_endOfFile member)
    accepted).1

/-- A tree has operators wherever two operands are joined. -/
theorem value_root_ne_unexpectedOperator
    (source : String)
    (kind : Token.Kind) :
    (ofSource source).root.value ≠
      .error (.unexpectedOperator kind) := by
  intro valued
  rcases (hasRank_root source).exists_blames valued with ⟨token, -, blames⟩
  cases blames

/-- The failure of an accepted line is at an operator of that line. -/
theorem outcome_of_value_eq_error
    {failure : ValueError}
    (accepted : (ofSource source).diagnostics = [])
    (valued : (ofSource source).root.value = .error failure) :
    CalculationOutcome source (.error (.value failure)) := by
  have lexical :=
    TokenBuffer.diagnostics_eq_nil_of_parseWithin accepted
  rcases (hasRank_root source).exists_blames valued with
    ⟨token, member, blames⟩
  have scanned : token ∈ (TokenBuffer.ofSource source).tokens := by
    rw [← tokens_root_ofSource accepted]
    exact member
  cases blames with
  | missingValue isNumber absent =>
      exact
        (TokenBuffer.value_ne_none lexical scanned isNumber
          absent).elim
  | divisionByZero divides =>
      have found :=
        TokenBuffer.hasByte_position scanned
          (congrArg Token.Kind.symbol? divides)
      exact .divisionByZero accepted found.lt_utf8ByteSize found
  | overflow operates =>
      rcases Token.Kind.exists_symbol?_of_mem_operators operates with
        ⟨symbol, listed, isSymbol⟩
      have found := TokenBuffer.hasByte_position scanned isSymbol
      exact .overflow accepted found.lt_utf8ByteSize listed found

end SyntaxTree

theorem outcome_calculate (source : String) :
    CalculationOutcome source (calculate source) := by
  unfold calculate SyntaxTree.calculate
  split
  case isTrue empty =>
    have accepted := List.isEmpty_iff.1 empty
    cases valued : (SyntaxTree.ofSource source).root.value with
    | ok word => exact .value accepted valued
    | error failure =>
        exact SyntaxTree.outcome_of_value_eq_error accepted valued
  case isFalse nonempty =>
    exact .diagnostics (mt List.isEmpty_iff.2 nonempty)

/--
A calculation gives a value, or the diagnostics of a line that has any, or a
failure at the byte of an operator.  No number of an accepted line lacks a
value, and no tree at all has anything but operators between its operands.
-/
theorem calculate_outcome (source : String) :
    CalculationOutcome source (calculate source) ∧
      (∀ position,
        calculate source ≠
          .error (.value (.missingValue position))) ∧
      (∀ kind,
        calculate source ≠
          .error (.value (.unexpectedOperator kind))) ∧
      ∀ kind,
        (SyntaxTree.ofSource source).root.value ≠
          .error (.unexpectedOperator kind) := by
  have outcome := outcome_calculate source
  refine
    ⟨outcome, ?_, ?_,
      SyntaxTree.value_root_ne_unexpectedOperator source⟩
  · intro position missing
    rw [missing] at outcome
    cases outcome
  · intro kind unexpected
    rw [unexpected] at outcome
    cases outcome

example :
    calculate "7 - 4/0" =
      .error (.value (.divisionByZero 5)) := by
  cbv

end Abacus
