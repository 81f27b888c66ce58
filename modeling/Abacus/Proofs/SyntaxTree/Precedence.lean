import Abacus.Proofs.Grammar.Slots
import Abacus.Proofs.SyntaxTree.Recovery

/-!
# Precedence

Multiplication and division hold together more tightly than addition and
subtraction, and among operators of one kind the left one comes first.  Said of
a single expression this limits what its operands may be: to the right of an
operator there is no chain of the same rank, and on neither side of a tighter
one is there a looser one.

The expressions of a rank are those all parts of which keep to this and have
their tokens in place (`hasRank_term_iff`).  Since whatever is read is of a rank,
every tree keeps to it, also the tree of a line with faults.
-/

namespace Abacus

namespace Expression

open Grammar (Rank)

/-- The operator of two operands. -/
def operator? : Expression → Option Token
  | .binary _ operator _ => some operator
  | _ => none

/-- Whether an expression joins two operands by an operator of a rank. -/
def IsChainOf (rank : Rank) : Expression → Prop
  | .binary _ operator _ => rank.isJoinedBy operator.kind = true
  | _ => False

/--
Whether the operands of an expression hold together at least as tightly as its
operator asks for: a sum or difference has none to its right, and a product or
quotient has none on either side and no operator at all to its right.
-/
def RespectsPrecedence : Expression → Prop
  | .binary left operator right =>
      (Rank.term.isJoinedBy operator.kind = true →
        ¬ right.IsChainOf .term) ∧
        (Rank.factor.isJoinedBy operator.kind = true →
          ¬ left.IsChainOf .term ∧ right.nodeKind ≠ .binary)
  | _ => True

variable
    {rank : Rank}
    {part expression : Expression}

/-- An operator is of one rank. -/
theorem rank_eq_of_isJoinedBy
    {other : Rank}
    {kind : Token.Kind}
    (joins : rank.isJoinedBy kind = true)
    (otherJoins : other.isJoinedBy kind = true) :
    rank = other := by
  revert joins otherJoins
  cases rank <;> cases other <;> cases kind <;> decide

theorem isJoinedBy_term_or_factor
    {kind : Token.Kind}
    (operates : kind ∈ Token.Kind.operators) :
    Rank.term.isJoinedBy kind = true ∨
      Rank.factor.isJoinedBy kind = true := by
  revert operates
  cases kind <;> decide

/-- Below the rank of a term there are no sums. -/
theorem HasRank.not_isChainOf_term
    (ranked : expression.HasRank rank)
    (tight : rank ≠ .term) :
    ¬ expression.IsChainOf .term := by
  induction ranked with
  | number isNumber => exact id
  | parenthesized opens ranked closes hypothesis => exact id
  | @operand rank expression ranked hypothesis =>
      apply hypothesis
      cases rank <;> simp_all [Rank.operand]
  | chain leftRanked joins rightRanked leftHypothesis
      rightHypothesis =>
      intro isSum
      exact tight (rank_eq_of_isJoinedBy joins isSum)

/-- A primary has no operator. -/
theorem HasRank.nodeKind_ne_binary
    (ranked : expression.HasRank rank)
    (tightest : rank = .primary) :
    expression.nodeKind ≠ .binary := by
  induction ranked with
  | number isNumber => simp [nodeKind]
  | parenthesized opens ranked closes hypothesis => simp [nodeKind]
  | operand ranked hypothesis =>
      subst tightest
      exact hypothesis rfl
  | chain leftRanked joins rightRanked leftHypothesis
      rightHypothesis =>
      rw [tightest, Rank.isJoinedBy_primary] at joins
      contradiction

/-- All parts of an expression of a rank respect precedence. -/
theorem HasRank.respectsPrecedence
    (ranked : expression.HasRank rank)
    (member : part ∈ expression.parts) :
    part.RespectsPrecedence := by
  induction ranked with
  | number isNumber =>
      rw [mem_parts_number] at member
      rw [member]
      exact True.intro
  | parenthesized opens ranked closes hypothesis =>
      rw [mem_parts_parenthesized] at member
      rcases member with member | rfl
      · exact hypothesis member
      · exact True.intro
  | operand ranked hypothesis => exact hypothesis member
  | chain leftRanked joins rightRanked leftHypothesis
      rightHypothesis =>
      rw [mem_parts_binary] at member
      rcases member with member | member | rfl
      · exact leftHypothesis member
      · exact rightHypothesis member
      · constructor
        · intro adds
          obtain rfl := rank_eq_of_isJoinedBy adds joins
          exact rightRanked.not_isChainOf_term (by decide)
        · intro multiplies
          obtain rfl := rank_eq_of_isJoinedBy multiplies joins
          exact
            ⟨leftRanked.not_isChainOf_term (by decide),
              rightRanked.nodeKind_ne_binary rfl⟩

/-- A primary is of every rank. -/
theorem HasRank.of_primary
    (primary : expression.HasRank .primary)
    (rank : Rank) :
    expression.HasRank rank := by
  cases rank with
  | term => exact .operand (.operand primary)
  | factor => exact .operand primary
  | primary => exact primary

/--
An expression with its tokens in place that respects precedence everywhere is a
term.  It is a factor unless it is a sum, and a primary if it has no operator.
-/
theorem hasRank_of_respectsPrecedence
    (wellFormed :
      ∀ part ∈ expression.parts,
        part.HasProperTokens ∧ part.RespectsPrecedence) :
    expression.HasRank .term ∧
      (¬ expression.IsChainOf .term → expression.HasRank .factor) ∧
      (expression.nodeKind ≠ .binary →
        expression.HasRank .primary) := by
  induction expression with
  | number literal =>
      have primary : (number literal).HasRank .primary :=
        .number (wellFormed _ (self_mem_parts _)).1
      exact
        ⟨primary.of_primary .term,
          fun _ => primary.of_primary .factor, fun _ => primary⟩
  | parenthesized opening inner closing hypothesis =>
      obtain ⟨⟨opens, closes⟩, -⟩ := wellFormed _ (self_mem_parts _)
      obtain ⟨innerRanked, -⟩ :=
        hypothesis fun part member =>
          wellFormed part (mem_parts_parenthesized.2 (Or.inl member))
      have primary :
          (parenthesized opening inner closing).HasRank .primary :=
        .parenthesized opens innerRanked closes
      exact
        ⟨primary.of_primary .term,
          fun _ => primary.of_primary .factor, fun _ => primary⟩
  | binary left operator right leftHypothesis rightHypothesis =>
      obtain ⟨leftTerm, leftFactor, -⟩ :=
        leftHypothesis fun part member =>
          wellFormed part (mem_parts_binary.2 (Or.inl member))
      obtain ⟨-, rightFactor, rightPrimary⟩ :=
        rightHypothesis fun part member =>
          wellFormed part
            (mem_parts_binary.2 (Or.inr (Or.inl member)))
      obtain ⟨operates, loose, tight⟩ :=
        wellFormed _ (self_mem_parts _)
      rcases isJoinedBy_term_or_factor operates with joins | joins
      · refine ⟨.chain leftTerm joins (rightFactor (loose joins)), ?_, ?_⟩
        · exact fun noSum => (noSum joins).elim
        · exact fun noChain => (noChain rfl).elim
      · rcases tight joins with ⟨noSum, noChain⟩
        have factor :
            (binary left operator right).HasRank .factor :=
          .chain (leftFactor noSum) joins (rightPrimary noChain)
        refine ⟨.operand factor, fun _ => factor, ?_⟩
        exact fun noChain => (noChain rfl).elim

/-- The terms are the expressions that respect precedence everywhere. -/
theorem hasRank_term_iff :
    expression.HasRank .term ↔
      ∀ part ∈ expression.parts,
        part.HasProperTokens ∧ part.RespectsPrecedence := by
  constructor
  · intro ranked part member
    exact
      ⟨ranked.hasProperTokens member,
        ranked.respectsPrecedence member⟩
  · intro wellFormed
    exact (hasRank_of_respectsPrecedence wellFormed).1

theorem operator_mem_tokens_of_mem_parts
    {operator : Token}
    (member : part ∈ expression.parts)
    (isOperator : part.operator? = some operator) :
    operator ∈ expression.tokens := by
  apply tokens_subset_of_mem_parts member
  cases part with
  | binary left joined right =>
      obtain rfl := Option.some.inj isOperator
      exact mem_tokens_binary.2 (Or.inr (Or.inl rfl))
  | _ => contradiction

end Expression

theorem Token.Kind.not_mem_standIns_of_mem_operators
    {kind : Kind}
    (operates : kind ∈ operators) :
    kind ∉ standIns := by
  revert operates
  cases kind <;> decide

namespace SyntaxTree

variable {source : String}

/-- No operator of a tree is made up. -/
theorem mem_tokens_of_mem_operators
    {operator : Token}
    (member : operator ∈ (ofSource source).root.tokens)
    (operates : operator.kind ∈ Token.Kind.operators) :
    operator ∈ (TokenBuffer.ofSource source).tokens := by
  rcases
      Grammar.emits_read (some maxNestingDepth) .term
        (.start (TokenBuffer.ofSource source)) with
    ⟨-, faults, -, emission⟩
  exact
    emission.mem_source member
      (Token.Kind.not_mem_standIns_of_mem_operators operates)

/--
In every tree each token is of the kind that its place asks for, the operands
of each operator respect precedence and lean to the left, and the operators are
tokens of the line.
-/
theorem ofSource_respects_precedence (source : String) :
    ∀ part ∈ (ofSource source).root.parts,
      part.HasProperTokens ∧
        part.RespectsPrecedence ∧
        ∀ operator,
          part.operator? = some operator →
            operator ∈ (TokenBuffer.ofSource source).tokens ∧
              operator.isMissing = false := by
  intro part member
  have ranked := hasRank_root source
  have proper := ranked.hasProperTokens member
  refine ⟨proper, ranked.respectsPrecedence member, ?_⟩
  intro operator isOperator
  have inside :=
    Expression.operator_mem_tokens_of_mem_parts member isOperator
  have operates : operator.kind ∈ Token.Kind.operators := by
    cases part with
    | binary left joined right =>
        obtain rfl := Option.some.inj isOperator
        exact proper
    | _ => contradiction
  have scanned := mem_tokens_of_mem_operators inside operates
  exact ⟨scanned, TokenBuffer.isMissing_eq_false scanned⟩

/-- The product in `1+*2`, which has no left operand. -/
def unfinishedProduct : Expression :=
  .binary (.number (.missing .number 2)) (.plain .star 2 "*")
    (.number (.number 3 "2" (some 2)))

theorem ofSource_respects_precedence_unfinished :
    unfinishedProduct ∈ (ofSource "1+*2").root.parts ∧
      unfinishedProduct.HasProperTokens ∧
        unfinishedProduct.RespectsPrecedence ∧
        ∀ operator,
          unfinishedProduct.operator? = some operator →
            operator ∈ (TokenBuffer.ofSource "1+*2").tokens ∧
              operator.isMissing = false := by
  have member :
      unfinishedProduct ∈ (ofSource "1+*2").root.parts := by
    decide +kernel
  exact
    ⟨member,
      ofSource_respects_precedence "1+*2" unfinishedProduct member⟩

end SyntaxTree

end Abacus
