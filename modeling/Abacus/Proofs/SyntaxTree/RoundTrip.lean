import Abacus.Proofs.SyntaxTree.Acceptance
import Abacus.Proofs.SyntaxTree.Precedence
import Abacus.Proofs.Token.Layout

/-!
# Round trip

An expression is written by putting the texts of its tokens one behind the
other.  This needs no blanks: between two numbers there is always an operator or
a parenthesis.  Reading what was written gives the expression back, if it is one
that can be read at all: its tokens are well spelled and in their places, it
respects precedence, and it nests within the limit.

What comes back has its tokens where they are in the text that was written, no
matter what their positions were before.  Tokens other than numbers come back
without a value, since only numbers are read with one.
-/

namespace Abacus

namespace Expression

open Grammar (Rank)

/-- The number of bytes that the tokens of an expression take up. -/
def width (expression : Expression) : Nat :=
  (Token.texts expression.tokens).utf8ByteSize

/-- Puts the tokens of an expression one behind the other from an offset on. -/
def layOut (place : Nat → Token → Token) : Nat → Expression → Expression
  | start, .number literal => .number (place start literal)
  | start, .binary left operator right =>
      .binary (left.layOut place start)
        (place (start + left.width) operator)
        (right.layOut place
          (start + left.width + operator.text.utf8ByteSize))
  | start, .parenthesized opening inner closing =>
      .parenthesized (place start opening)
        (inner.layOut place (start + opening.text.utf8ByteSize))
        (place
          (start + opening.text.utf8ByteSize + inner.width) closing)

variable
    {place : Nat → Token → Token}
    {expression : Expression}

/-! ## What is kept -/

@[simp]
theorem height_layOut
    (place : Nat → Token → Token)
    (start : Nat)
    (expression : Expression) :
    (expression.layOut place start).height = expression.height := by
  induction expression generalizing start with
  | number literal => rfl
  | binary left operator right leftSame rightSame =>
      simp only [layOut, height, leftSame, rightSame]
  | parenthesized opening inner closing same =>
      simp only [layOut, height, same]

theorem NestsWithin.layOut
    {bound depth : Nat}
    (nests : expression.NestsWithin bound depth)
    (place : Nat → Token → Token)
    (start : Nat) :
    (expression.layOut place start).NestsWithin bound depth := by
  induction expression generalizing start depth with
  | number literal =>
      exact nestsWithin_number_iff.2 (nestsWithin_number_iff.1 nests)
  | binary left operator right leftHypothesis rightHypothesis =>
      obtain ⟨leftNests, rightNests, low⟩ :=
        nestsWithin_binary_iff.1 nests
      refine
        nestsWithin_binary_iff.2
          ⟨leftHypothesis leftNests _, rightHypothesis rightNests _, ?_⟩
      rw [height_layOut, height_layOut]
      exact low
  | parenthesized opening inner closing hypothesis =>
      exact
        nestsWithin_parenthesized_iff.2
          (hypothesis (nestsWithin_parenthesized_iff.1 nests) _)

theorem HasRank.layOut
    {rank : Rank}
    (ranked : expression.HasRank rank)
    (keeps :
      ∀ position token, (place position token).kind = token.kind)
    (start : Nat) :
    (expression.layOut place start).HasRank rank := by
  induction ranked generalizing start with
  | number isNumber => exact .number ((keeps _ _).trans isNumber)
  | parenthesized opens ranked closes hypothesis =>
      exact
        .parenthesized ((keeps _ _).trans opens) (hypothesis _)
          ((keeps _ _).trans closes)
  | operand ranked hypothesis => exact .operand (hypothesis start)
  | chain leftRanked joins rightRanked leftHypothesis
      rightHypothesis =>
      rw [← keeps] at joins
      exact .chain (leftHypothesis _) joins (rightHypothesis _)

/-- Every token that is laid out has been placed somewhere. -/
theorem exists_eq_of_mem_tokens_layOut
    {start : Nat}
    {token : Token}
    (member : token ∈ (expression.layOut place start).tokens) :
    ∃ original ∈ expression.tokens,
      ∃ position, token = place position original := by
  induction expression generalizing start with
  | number literal =>
      exact
        ⟨literal, mem_tokens_number.2 rfl, start,
          mem_tokens_number.1 member⟩
  | binary left operator right leftHypothesis rightHypothesis =>
      simp only [mem_tokens_binary]
      rcases mem_tokens_binary.1 member with member | same | member
      · rcases leftHypothesis member with ⟨original, inside, placed⟩
        exact ⟨original, Or.inl inside, placed⟩
      · exact ⟨operator, Or.inr (Or.inl rfl), _, same⟩
      · rcases rightHypothesis member with ⟨original, inside, placed⟩
        exact ⟨original, Or.inr (Or.inr inside), placed⟩
  | parenthesized opening inner closing hypothesis =>
      simp only [mem_tokens_parenthesized]
      rcases mem_tokens_parenthesized.1 member with
        same | member | same
      · exact ⟨opening, Or.inl rfl, _, same⟩
      · rcases hypothesis member with ⟨original, inside, placed⟩
        exact ⟨original, Or.inr (Or.inl inside), placed⟩
      · exact ⟨closing, Or.inr (Or.inr rfl), _, same⟩

/-- Where tokens are placed alike, expressions are laid out alike. -/
theorem layOut_congr
    {other : Nat → Token → Token}
    (same :
      ∀ token ∈ expression.tokens,
        ∀ position, place position token = other position token)
    (start : Nat) :
    expression.layOut place start = expression.layOut other start := by
  induction expression generalizing start with
  | number literal =>
      exact congrArg number (same literal (mem_tokens_number.2 rfl) start)
  | binary left operator right leftHypothesis rightHypothesis =>
      simp only [mem_tokens_binary] at same
      rw [layOut,
        leftHypothesis fun token member => same token (Or.inl member),
        same operator (Or.inr (Or.inl rfl)),
        rightHypothesis fun token member =>
          same token (Or.inr (Or.inr member))]
      rfl
  | parenthesized opening inner closing hypothesis =>
      simp only [mem_tokens_parenthesized] at same
      rw [layOut, same opening (Or.inl rfl),
        hypothesis fun token member =>
          same token (Or.inr (Or.inl member)),
        same closing (Or.inr (Or.inr rfl))]
      rfl

/-! ## The text of an expression -/

/-- An operator that is well spelled is a single character. -/
theorem exists_symbol_of_isJoinedBy
    {rank : Rank}
    {operator : Token}
    (joins : rank.isJoinedBy operator.kind = true)
    (spelled : operator.IsSpelled) :
    ∃ symbol, operator.kind.symbol? = some symbol := by
  refine spelled.exists_symbol ?_
  intro isNumber
  rw [isNumber] at joins
  revert joins
  cases rank <;> decide

/-- The tokens of an expression that is laid out tile its text. -/
theorem HasRank.tiling_layOut
    {rank : Rank}
    (ranked : expression.HasRank rank)
    (spelled : ∀ token ∈ expression.tokens, token.IsSpelled)
    (start : Nat) :
    Token.Tiling start (Token.texts expression.tokens).toList
      (expression.layOut Token.strippedAt start).tokens := by
  induction ranked generalizing start with
  | @number literal isNumber =>
      rw [tokens, Token.texts_cons, Token.texts_nil, String.append_empty]
      exact (spelled literal (mem_tokens_number.2 rfl)).tiling start
  | @parenthesized opening closing inner opens ranked closes
      hypothesis =>
      simp only [mem_tokens_parenthesized] at spelled
      have opened : opening.kind.symbol? = some '(' := by
        rw [opens]
        rfl
      have closed : closing.kind.symbol? = some ')' := by
        rw [closes]
        rfl
      rw [tokens, List.cons_append, Token.texts_cons,
        Token.texts_append, Token.texts_cons, Token.texts_nil]
      refine .symbol_cons opened (spelled opening (Or.inl rfl)) ?_
      refine
        .join closed (spelled closing (Or.inr (Or.inr rfl))) ?_
          (.nil _)
      exact
        hypothesis
          (fun token member => spelled token (Or.inr (Or.inl member)))
          _
  | operand ranked hypothesis => exact hypothesis spelled start
  | @chain rank left right operator leftRanked joins rightRanked
      leftHypothesis rightHypothesis =>
      simp only [mem_tokens_binary] at spelled
      have spelledOperator := spelled operator (Or.inr (Or.inl rfl))
      rcases exists_symbol_of_isJoinedBy joins spelledOperator with
        ⟨symbol, found⟩
      rw [tokens, Token.texts_append, Token.texts_cons]
      refine .join found spelledOperator ?_ ?_
      · exact
          leftHypothesis
            (fun token member => spelled token (Or.inl member)) start
      · exact
          rightHypothesis
            (fun token member => spelled token (Or.inr (Or.inr member)))
            _

end Expression

/-- The text of an expression is scanned as its tokens laid out. -/
theorem TokenBuffer.ofSource_texts
    {rank : Grammar.Rank}
    {expression : Expression}
    (ranked : expression.HasRank rank)
    (spelled : ∀ token ∈ expression.tokens, token.IsSpelled) :
    ofSource (Token.texts expression.tokens) =
      { tokens := (expression.layOut Token.strippedAt 0).tokens
        sourceEnd := expression.width
        diagnostics := [] } := by
  have significant :
      ∀ token ∈ (expression.layOut Token.strippedAt 0).tokens,
        token.kind.isSignificant = true := by
    intro token member
    rcases Expression.exists_eq_of_mem_tokens_layOut member with
      ⟨original, inside, position, rfl⟩
    exact (spelled original inside).isSignificant
  have faultless :
      ∀ token ∈ (expression.layOut Token.strippedAt 0).tokens,
        token.lexicalFault? (Token.texts expression.tokens) = none := by
    intro token member
    rcases Expression.exists_eq_of_mem_tokens_layOut member with
      ⟨original, inside, position, rfl⟩
    exact (spelled original inside).lexicalFault?_strippedAt _ _
  rw [ofSource_eq_of_tiling (ranked.tiling_layOut spelled 0),
    List.filter_eq_self.2 significant,
    List.filterMap_eq_nil_iff.2 faultless]
  rfl

namespace SyntaxTree

/--
An expression that can be read is read back from its own text without any
diagnostics.  It comes back with each token at the byte offset of its text and
with no values but those of its numbers, so if there were no others it comes
back the same up to positions.
-/
theorem ofSource_reads_back
    {expression : Expression}
    (wellFormed :
      ∀ part ∈ expression.parts,
        part.HasProperTokens ∧ part.RespectsPrecedence)
    (spelled : ∀ token ∈ expression.tokens, token.IsSpelled)
    (nests : expression.NestsWithin maxNestingDepth 0) :
    ofSource (Token.texts expression.tokens) =
        { diagnostics := []
          root := expression.layOut Token.strippedAt 0
          endOfFile := Token.endOfFile expression.width } ∧
      ((∀ token ∈ expression.tokens,
          token.kind ≠ .number → token.value = none) →
        (ofSource (Token.texts expression.tokens)).root =
          expression.layOut Token.movedTo 0) := by
  have ranked := Expression.hasRank_term_iff.2 wellFormed
  have back :
      ofSource (Token.texts expression.tokens) =
        { diagnostics := []
          root := expression.layOut Token.strippedAt 0
          endOfFile := Token.endOfFile expression.width } := by
    unfold ofSource
    rw [TokenBuffer.ofSource_texts ranked spelled]
    exact
      TokenBuffer.parseWithin_some_eq
        (ranked.layOut Token.strippedAt_kind 0)
        (nests.layOut Token.strippedAt 0) rfl
  refine ⟨back, ?_⟩
  intro unvalued
  rw [back]
  refine Expression.layOut_congr ?_ 0
  intro token member position
  exact Token.strippedAt_eq_movedTo (unvalued token member)

/-- The expression `(1+2)*3`, with all its tokens at the start of a line. -/
def unplacedProduct : Expression :=
  .binary
    (.parenthesized (.plain .openParen 0 "(")
      (.binary (.number (.number 0 "1" (some 1)))
        (.plain .plus 0 "+")
        (.number (.number 0 "2" (some 2))))
      (.plain .closeParen 0 ")"))
    (.plain .star 0 "*")
    (.number (.number 0 "3" (some 3)))

theorem ofSource_reads_back_product :
    ofSource "(1+2)*3" =
        { diagnostics := []
          root := unplacedProduct.layOut Token.strippedAt 0
          endOfFile := Token.endOfFile 7 } ∧
      (ofSource "(1+2)*3").root =
        unplacedProduct.layOut Token.movedTo 0 := by
  have wellFormed :
      ∀ part ∈ unplacedProduct.parts,
        part.HasProperTokens ∧ part.RespectsPrecedence :=
    Expression.hasRank_term_iff.1
      (.operand
        (.chain
          (.operand
            (.parenthesized rfl
              (.chain (.operand (.operand (.number rfl))) rfl
                (.operand (.number rfl)))
              rfl))
          rfl (.number rfl)))
  have spelled :
      ∀ token ∈ unplacedProduct.tokens, token.IsSpelled := by
    simp only [unplacedProduct, Expression.tokens, List.cons_append,
      List.nil_append, List.forall_mem_cons]
    exact
      ⟨.symbol rfl rfl,
        .digit '1' rfl rfl rfl,
        .symbol rfl rfl,
        .digit '2' rfl rfl rfl,
        .symbol rfl rfl,
        .symbol rfl rfl,
        .digit '3' rfl rfl rfl,
        List.forall_mem_nil _⟩
  have nests : unplacedProduct.NestsWithin maxNestingDepth 0 :=
    ⟨by decide, by decide⟩
  have unvalued :
      ∀ token ∈ unplacedProduct.tokens,
        token.kind ≠ .number → token.value = none := by
    decide
  rcases ofSource_reads_back wellFormed spelled nests with
    ⟨back, moved⟩
  exact ⟨back, moved unvalued⟩

/-- The expression `1+2`, whose operator has a value. -/
def valuedSum : Expression :=
  .binary (.number (.number 0 "1" (some 1)))
    { kind := .plus, position := 1, text := "+", value := some 3 }
    (.number (.number 2 "2" (some 2)))

theorem not_forall_root_eq_layOut_movedTo :
    ¬ ∀ expression : Expression,
      (∀ part ∈ expression.parts,
          part.HasProperTokens ∧ part.RespectsPrecedence) →
        (∀ token ∈ expression.tokens, token.IsSpelled) →
          expression.NestsWithin maxNestingDepth 0 →
            (ofSource (Token.texts expression.tokens)).diagnostics =
                [] ∧
              (ofSource (Token.texts expression.tokens)).root =
                expression.layOut Token.movedTo 0 := by
  intro same
  have wellFormed :
      ∀ part ∈ valuedSum.parts,
        part.HasProperTokens ∧ part.RespectsPrecedence :=
    Expression.hasRank_term_iff.1
      (.chain (.operand (.operand (.number rfl))) rfl
        (.operand (.number rfl)))
  have spelled : ∀ token ∈ valuedSum.tokens, token.IsSpelled := by
    simp only [valuedSum, Expression.tokens, List.cons_append,
      List.nil_append, List.forall_mem_cons]
    exact
      ⟨.digit '1' rfl rfl rfl,
        .symbol rfl rfl,
        .digit '2' rfl rfl rfl,
        List.forall_mem_nil _⟩
  have nests : valuedSum.NestsWithin maxNestingDepth 0 :=
    ⟨by decide, by decide⟩
  have kept := (same valuedSum wellFormed spelled nests).2
  have different :
      (ofSource (Token.texts valuedSum.tokens)).root ≠
        valuedSum.layOut Token.movedTo 0 := by
    decide +kernel
  exact different kept

end SyntaxTree

end Abacus
