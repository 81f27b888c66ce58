import Abacus.Expression.Basic
import Abacus.Grammar.Rank

/-!
# The grammar

A line is a sentence of the grammar if it can be derived by these rules:

* a term is a factor, followed by any number of links of `+` or `-` and a
  factor;
* a factor is a primary, followed by any number of links of `*` or `/` and a
  primary;
* a primary is a number, or a term between parentheses.

The rules say nothing about how links associate.  That is the matter of
expressions of a rank: their chains lean to the left, and what stands to the
right of an operator is of the rank of the operands.  The sentences are exactly
the token sequences of such expressions.
-/

namespace Abacus

/-- The token sequences that the grammar derives at a rank. -/
inductive Grammar.Sentence : Grammar.Rank → List Token → Prop where
  | number
      {literal : Token}
      (isNumber : literal.kind = .number) :
      Sentence .primary [literal]
  | group
      {opening closing : Token}
      {tokens : List Token}
      (opens : opening.kind = .openParen)
      (inner : Sentence .term tokens)
      (closes : closing.kind = .closeParen) :
      Sentence .primary (opening :: tokens ++ [closing])
  | chain
      {rank : Rank}
      {first : List Token}
      {links : List (Token × List Token)}
      (head : Sentence rank.operand first)
      (joined :
        ∀ link ∈ links, rank.isJoinedBy link.1.kind = true)
      (operands :
        ∀ link ∈ links, Sentence rank.operand link.2) :
      Sentence rank
        (first ++ links.flatMap fun link => link.1 :: link.2)

/--
The expressions of a rank.  A chain has an expression of the same rank to its
left and an operand to its right, so it leans to the left and joins nothing
that holds together less tightly.
-/
inductive Expression.HasRank : Grammar.Rank → Expression → Prop where
  | number
      {literal : Token}
      (isNumber : literal.kind = .number) :
      HasRank .primary (.number literal)
  | parenthesized
      {opening closing : Token}
      {inner : Expression}
      (opens : opening.kind = .openParen)
      (ranked : HasRank .term inner)
      (closes : closing.kind = .closeParen) :
      HasRank .primary (.parenthesized opening inner closing)
  | operand
      {rank : Grammar.Rank}
      {expression : Expression}
      (ranked : HasRank rank.operand expression) :
      HasRank rank expression
  | chain
      {rank : Grammar.Rank}
      {left right : Expression}
      {operator : Token}
      (leftRanked : HasRank rank left)
      (joins : rank.isJoinedBy operator.kind = true)
      (rightRanked : HasRank rank.operand right) :
      HasRank rank (.binary left operator right)

namespace Grammar

variable {rank : Rank}

/-- One more link at the end of a chain. -/
theorem Sentence.extend
    {front back : List Token}
    {operator : Token}
    (sentence : Sentence rank front)
    (joins : rank.isJoinedBy operator.kind = true)
    (operand : Sentence rank.operand back) :
    Sentence rank (front ++ operator :: back) := by
  cases sentence with
  | number isNumber =>
      rw [Rank.isJoinedBy_primary] at joins
      contradiction
  | group opens inner closes =>
      rw [Rank.isJoinedBy_primary] at joins
      contradiction
  | @chain _ first links head joined operands =>
      have extended :
          Sentence rank
            (first ++ (links ++ [(operator, back)]).flatMap
              fun link => link.1 :: link.2) := by
        refine .chain head ?_ ?_
        · intro link member
          rcases List.mem_append.1 member with member | member
          · exact joined link member
          · rw [List.mem_singleton.1 member]
            exact joins
        · intro link member
          rcases List.mem_append.1 member with member | member
          · exact operands link member
          · rw [List.mem_singleton.1 member]
            exact operand
      simpa using extended

/-- Links behind an expression of a rank make a longer one. -/
theorem exists_hasRank_append_links
    {links : List (Token × List Token)}
    {left : Expression}
    (ranked : left.HasRank rank)
    (joined : ∀ link ∈ links, rank.isJoinedBy link.1.kind = true)
    (operands :
      ∀ link ∈ links,
        ∃ right : Expression,
          right.HasRank rank.operand ∧ right.tokens = link.2) :
    ∃ chain : Expression,
      chain.HasRank rank ∧
        chain.tokens =
          left.tokens ++ links.flatMap fun link =>
            link.1 :: link.2 := by
  induction links generalizing left with
  | nil => exact ⟨left, ranked, by simp⟩
  | cons link links hypothesis =>
      rcases operands link (List.mem_cons_self ..) with
        ⟨right, rightRanked, rightTokens⟩
      have longer :
          (Expression.binary left link.1 right).HasRank rank :=
        .chain ranked (joined link (List.mem_cons_self ..))
          rightRanked
      obtain ⟨chain, chainRanked, chainTokens⟩ :=
        hypothesis longer
          (fun other member =>
            joined other (List.mem_cons_of_mem link member))
          (fun other member =>
            operands other (List.mem_cons_of_mem link member))
      refine ⟨chain, chainRanked, ?_⟩
      rw [chainTokens, Expression.tokens, rightTokens]
      simp

/-- The grammar derives exactly the tokens of the expressions of a rank. -/
theorem sentence_iff_exists_hasRank
    {tokens : List Token} :
    Sentence rank tokens ↔
      ∃ expression : Expression,
        expression.HasRank rank ∧ expression.tokens = tokens := by
  constructor
  · intro sentence
    induction sentence with
    | number isNumber => exact ⟨_, .number isNumber, rfl⟩
    | group opens inner closes hypothesis =>
        rcases hypothesis with ⟨expression, ranked, rfl⟩
        exact ⟨_, .parenthesized opens ranked closes, rfl⟩
    | chain head joined operands headHypothesis hypotheses =>
        rcases headHypothesis with ⟨expression, ranked, rfl⟩
        exact
          exists_hasRank_append_links (.operand ranked) joined
            hypotheses
  · rintro ⟨expression, ranked, rfl⟩
    induction ranked with
    | number isNumber => exact .number isNumber
    | parenthesized opens ranked closes hypothesis =>
        exact .group opens hypothesis closes
    | @operand rank expression ranked hypothesis =>
        have single :
            Sentence rank
              (expression.tokens ++
                ([] : List (Token × List Token)).flatMap fun link =>
                  link.1 :: link.2) :=
          .chain hypothesis (by simp) (by simp)
        simpa using single
    | chain leftRanked joins rightRanked leftHypothesis
        rightHypothesis =>
        exact leftHypothesis.extend joins rightHypothesis

end Grammar

end Abacus
