import Abacus.Proofs.Expression.Exact
import Abacus.Proofs.Grammar.Sentence

/-!
# Tokens in their places

All parts of an expression of a rank have tokens of the kinds that their shape
asks for.  If such an expression has no value, then the failure is at one of
its tokens, and the kind of that token says which failures it can be.
-/

namespace Abacus

/-- Whether the tokens of an expression itself are of the proper kinds. -/
def Expression.HasProperTokens : Expression → Prop
  | .number literal => literal.kind = .number
  | .binary _ operator _ => operator.kind ∈ Token.Kind.operators
  | .parenthesized opening _ closing =>
      opening.kind = .openParen ∧ closing.kind = .closeParen

/--
The failures that a token can be to blame for: a number token for having no
value, a division sign for a division by zero, and any operator for an
overflow.
-/
inductive Token.Blames (token : Token) : ValueError → Prop where
  | missingValue
      (isNumber : token.kind = .number)
      (absent : token.value = none) :
      Blames token (.missingValue token.position)
  | divisionByZero
      (divides : token.kind = .slash) :
      Blames token (.divisionByZero token.position)
  | overflow
      (operates : token.kind ∈ Token.Kind.operators) :
      Blames token (.overflow token.position)

namespace Expression

variable
    {rank : Grammar.Rank}
    {part expression : Expression}
    {failure : ValueError}

theorem mem_operators_of_isJoinedBy
    {kind : Token.Kind}
    (joins : rank.isJoinedBy kind = true) :
    kind ∈ Token.Kind.operators := by
  revert joins
  cases rank <;> cases kind <;> decide

/-- The parts of an expression of a rank have their tokens in place. -/
theorem HasRank.hasProperTokens
    (ranked : expression.HasRank rank)
    (member : part ∈ expression.parts) :
    part.HasProperTokens := by
  induction ranked with
  | number isNumber =>
      rw [mem_parts_number] at member
      rw [member]
      exact isNumber
  | parenthesized opens ranked closes hypothesis =>
      rw [mem_parts_parenthesized] at member
      rcases member with member | rfl
      · exact hypothesis member
      · exact ⟨opens, closes⟩
  | operand ranked hypothesis => exact hypothesis member
  | chain leftRanked joins rightRanked leftHypothesis
      rightHypothesis =>
      rw [mem_parts_binary] at member
      rcases member with member | member | rfl
      · exact leftHypothesis member
      · exact rightHypothesis member
      · exact mem_operators_of_isJoinedBy joins

/-- A failing part with its tokens in place has a token that is to blame. -/
theorem Fails.exists_blames
    (fails : part.Fails failure)
    (proper : part.HasProperTokens) :
    ∃ token ∈ part.tokens, token.Blames failure := by
  cases fails with
  | missingValue absent =>
      exact ⟨_, List.mem_singleton.2 rfl, .missingValue proper absent⟩
  | divisionByZero operands divides =>
      exact
        ⟨_, List.mem_append_right _ (List.mem_cons_self ..),
          .divisionByZero divides⟩
  | overflow operands exact outside =>
      exact
        ⟨_, List.mem_append_right _ (List.mem_cons_self ..),
          .overflow proper⟩
  | unexpectedOperator operands foreign => exact (foreign proper).elim

/-- Some token of an expression of a rank is to blame for its failure. -/
theorem HasRank.exists_blames
    (ranked : expression.HasRank rank)
    (valued : expression.value = .error failure) :
    ∃ token ∈ expression.tokens, token.Blames failure := by
  rcases firstFails_of_value_eq_error valued with
    ⟨earlier, part, later, split, -, fails⟩
  have member : part ∈ expression.parts := by
    rw [split]
    exact List.mem_append_right earlier (List.mem_cons_self ..)
  rcases fails.exists_blames (ranked.hasProperTokens member) with
    ⟨token, inside, blames⟩
  exact ⟨token, tokens_subset_of_mem_parts member inside, blames⟩

end Expression

end Abacus
