import Abacus.Proofs.Calculation
import Abacus.Proofs.SyntaxTree.Precedence
import Abacus.Proofs.Token.Spread
import Mathlib.Control.Monad.Basic

/-!
# Lines put together

An accepted line can become a part of a longer one.  In parentheses it is read
there as it is read alone, since its tokens are cut in the same way, and nothing
but the closing parenthesis ends the term inside.  Its tree is the same but for
the positions, and so is its failure, if it has one.

Two lines in parentheses with an operator between them are therefore calculated
by calculating both and applying the operator, as long as the whole is no taller
than the nesting limit.
-/

namespace Abacus

/-- A text in parentheses. -/
def Text.group (text : String) : String :=
  "(" ++ text ++ ")"

/-- Two texts in parentheses on both sides of an operator. -/
def Text.compound
    (left : String)
    (operator : Char)
    (right : String) :
    String :=
  group left ++ (String.singleton operator ++ group right)

/-- Where the places of a text are in a longer text that has it inside. -/
def Relocation.shift (source : String) (width : Nat) : Relocation :=
  { source, move := fun offset => offset + width }

/-- Whether a token has no fault by itself, whatever source it is from. -/
def Token.IsFaultless (token : Token) : Prop :=
  ∀ source, token.lexicalFault? source = none

theorem Token.IsFaultless.of_lexicalFault?
    {source : String}
    {token : Token}
    (faultless : token.lexicalFault? source = none) :
    token.IsFaultless := by
  intro other
  have moved :=
    Relocation.lexicalFault?_token { source := other, move := id }
      source token
  rw [faultless] at moved
  exact moved

theorem Token.IsFaultless.relocate
    {token : Token}
    (faultless : token.IsFaultless)
    (relocation : Relocation) :
    (relocation.token token).IsFaultless := by
  have moved := relocation.lexicalFault?_token "" token
  rw [faultless ""] at moved
  exact .of_lexicalFault? moved

theorem Token.isFaultless_of_symbol?
    {kind : Token.Kind}
    {symbol : Char}
    (found : kind.symbol? = some symbol)
    (position : Nat)
    (text : String) :
    (Token.plain kind position text).IsFaultless := by
  intro source
  revert found
  cases kind <;> simp [Token.Kind.symbol?, plain, lexicalFault?]

namespace Expression

/--
Whether a text that starts at a byte offset consists of faultless tokens that
are, but for the blanks, those of an expression.
-/
def IsWrittenAt
    (start : Nat)
    (text : String)
    (expression : Expression) :
    Prop :=
  ∃ tokens,
    Token.Tiling start text.toList tokens ∧
      (∀ token ∈ tokens, token.IsFaultless) ∧
      (tokens.filter fun token => token.kind.isSignificant) =
        expression.tokens

/-- An expression between the parentheses of a group. -/
def group
    (start : Nat)
    (text : String)
    (inner : Expression) :
    Expression :=
  .parenthesized (.plain .openParen start "(") inner
    (.plain .closeParen (start + 1 + text.utf8ByteSize) ")")

variable
    {start : Nat}
    {text other : String}
    {left right inner expression : Expression}

/-- The root of an accepted line is written in the line. -/
theorem isWrittenAt_root
    {source : String}
    (accepted : (SyntaxTree.ofSource source).diagnostics = []) :
    (SyntaxTree.ofSource source).root.IsWrittenAt 0 source := by
  have lexical :=
    TokenBuffer.diagnostics_eq_nil_of_parseWithin accepted
  rw [TokenBuffer.diagnostics_ofSource, List.filterMap_eq_nil_iff]
    at lexical
  exact
    ⟨(Scanner.start source).drain.1,
      TokenBuffer.tiling_ofSource source,
      fun token member => .of_lexicalFault? (lexical token member),
      (SyntaxTree.tokens_root_ofSource accepted).symm⟩

/-- What is written somewhere may be written further behind. -/
theorem IsWrittenAt.shift
    (written : expression.IsWrittenAt start text)
    (source : String)
    (width : Nat) :
    ((Relocation.shift source width).expression
      expression).IsWrittenAt (start + width) text := by
  obtain ⟨tokens, tiling, faultless, kept⟩ := written
  refine
    ⟨tokens.map (Relocation.shift source width).token,
      tiling.relocate fun _ _ => rfl, ?_, ?_⟩
  · intro token member
    obtain ⟨original, inside, rfl⟩ := List.mem_map.1 member
    exact (faultless original inside).relocate _
  · rw [Relocation.expression, tokens_mapTokens, ← kept,
      List.filter_map]
    rfl

/-- A group is written as what is inside it, in parentheses. -/
theorem IsWrittenAt.group
    (written : inner.IsWrittenAt (start + 1) text) :
    (inner.group start text).IsWrittenAt start (Text.group text) := by
  obtain ⟨tokens, tiling, faultless, kept⟩ := written
  have opened : Token.Kind.openParen.symbol? = some '(' := rfl
  have closed : Token.Kind.closeParen.symbol? = some ')' := rfl
  have closing :=
    @Token.Tiling.join (start + 1) tokens [] (.plain .closeParen 0 ")")
      text "" ')' closed (.symbol closed rfl) tiling (.nil _)
  have whole :=
    @Token.Tiling.symbol_cons start _ (.plain .openParen 0 "(") _ '('
      opened (.symbol opened rfl) closing
  rw [String.append_empty, ← String.append_assoc] at whole
  refine ⟨_, whole, ?_, ?_⟩
  · refine List.forall_mem_cons.2 ⟨?_, ?_⟩
    · exact Token.isFaultless_of_symbol? opened start "("
    · refine List.forall_mem_append.2 ⟨faultless, ?_⟩
      exact
        List.forall_mem_singleton.2
          (Token.isFaultless_of_symbol? closed _ ")")
  · rw [List.filter_cons_of_pos rfl, List.filter_append, kept]
    rfl

/-- A chain is written as its operands with the operator between them. -/
theorem IsWrittenAt.binary
    {kind : Token.Kind}
    {operator : Char}
    (found : kind.symbol? = some operator)
    (leftWritten : left.IsWrittenAt start text)
    (rightWritten :
      right.IsWrittenAt (start + text.utf8ByteSize + 1) other) :
    (binary left
      (.plain kind (start + text.utf8ByteSize)
        (String.singleton operator))
      right).IsWrittenAt start
        (text ++ (String.singleton operator ++ other)) := by
  obtain ⟨tokens, tiling, faultless, kept⟩ := leftWritten
  obtain ⟨others, otherTiling, otherFaultless, otherKept⟩ :=
    rightWritten
  have spelled :
      (Token.plain kind 0
        (String.singleton operator)).IsSpelled :=
    .symbol found rfl
  have width : (String.singleton operator).utf8ByteSize = 1 := by
    rw [String.utf8ByteSize_singleton]
    exact Token.Kind.utf8Size_of_symbol? found
  rw [← width] at otherTiling
  have whole :=
    @Token.Tiling.join start tokens others
      (.plain kind 0 (String.singleton operator)) text other operator
      found spelled tiling otherTiling
  have placed (position : Nat) :
      (Token.plain kind 0 (String.singleton operator)).strippedAt
          position =
        Token.plain kind position (String.singleton operator) :=
    Token.strippedAt_eq_movedTo fun _ => rfl
  rw [placed] at whole
  refine ⟨_, whole, ?_, ?_⟩
  · refine List.forall_mem_append.2 ⟨faultless, ?_⟩
    refine List.forall_mem_cons.2 ⟨?_, otherFaultless⟩
    exact Token.isFaultless_of_symbol? found _ _
  · have significant :
        (Token.plain kind (start + text.utf8ByteSize)
          (String.singleton operator)).kind.isSignificant = true :=
      spelled.isSignificant
    rw [List.filter_append, kept, List.filter_cons, if_pos significant,
      otherKept]
    rfl

/-- Moving an expression leaves its rank alone. -/
theorem HasRank.relocate
    {rank : Grammar.Rank}
    (ranked : expression.HasRank rank)
    (relocation : Relocation) :
    (relocation.expression expression).HasRank rank := by
  induction ranked with
  | number isNumber => exact .number isNumber
  | parenthesized opens ranked closes hypothesis =>
      exact .parenthesized opens hypothesis closes
  | operand ranked hypothesis => exact .operand hypothesis
  | chain leftRanked joins rightRanked leftHypothesis
      rightHypothesis =>
      exact .chain leftHypothesis joins rightHypothesis

/-- Primaries may be joined by any operator. -/
theorem hasRank_term_of_primaries
    {operator : Token}
    (operates : operator.kind ∈ Token.Kind.operators)
    (leftRanked : left.HasRank .primary)
    (rightRanked : right.HasRank .primary) :
    (binary left operator right).HasRank .term := by
  rcases isJoinedBy_term_or_factor operates with joins | joins
  · exact
      .chain (leftRanked.of_primary .term) joins
        (rightRanked.of_primary .factor)
  · exact
      .operand
        (.chain (leftRanked.of_primary .factor) joins rightRanked)

/-- A text in which a term is written reads as that term, if it is shallow. -/
theorem IsWrittenAt.ofSource_eq
    {source : String}
    (written : expression.IsWrittenAt 0 source)
    (ranked : expression.HasRank .term)
    (nests : expression.NestsWithin maxNestingDepth 0) :
    SyntaxTree.ofSource source =
      { diagnostics := []
        root := expression
        endOfFile := Token.endOfFile source.utf8ByteSize } := by
  obtain ⟨tokens, tiling, faultless, kept⟩ := written
  have silent :
      (tokens.filterMap fun token => token.lexicalFault? source) = [] :=
    List.filterMap_eq_nil_iff.2 fun token member =>
      faultless token member source
  have buffer := TokenBuffer.ofSource_eq_of_tiling tiling
  rw [kept, silent] at buffer
  unfold SyntaxTree.ofSource
  rw [buffer]
  exact TokenBuffer.parseWithin_some_eq ranked nests rfl

end Expression

namespace SyntaxTree

variable
    {left right : String}
    {operator : Char}

/-- The tree of two lines in parentheses on both sides of an operator. -/
def compoundRoot
    (left : String)
    (operator : Char)
    (right : String) :
    Expression :=
  let moved (width : Nat) (line : String) : Expression :=
    (Relocation.shift (Text.compound left operator right)
      width).expression (ofSource line).root
  .binary ((moved 1 left).group 0 left)
    (.plain (.ofChar operator) (left.utf8ByteSize + 2)
      (String.singleton operator))
    ((moved (left.utf8ByteSize + 4) right).group
      (left.utf8ByteSize + 3) right)

theorem symbol?_ofChar_of_mem
    (operates : operator ∈ ['+', '-', '*', '/']) :
    (Token.Kind.ofChar operator).symbol? = some operator ∧
      Token.Kind.ofChar operator ∈ Token.Kind.operators := by
  simp only [List.mem_cons, List.not_mem_nil, or_false] at operates
  rcases operates with rfl | rfl | rfl | rfl <;> decide

/-- Two accepted lines that are not too tall are accepted when put together. -/
theorem ofSource_compound
    (leftAccepted : (ofSource left).diagnostics = [])
    (rightAccepted : (ofSource right).diagnostics = [])
    (leftLow : (ofSource left).root.height + 2 ≤ maxNestingDepth)
    (rightLow : (ofSource right).root.height + 2 ≤ maxNestingDepth)
    (operates : operator ∈ ['+', '-', '*', '/']) :
    ofSource (Text.compound left operator right) =
      { diagnostics := []
        root := compoundRoot left operator right
        endOfFile :=
          Token.endOfFile
            (Text.compound left operator right).utf8ByteSize } := by
  obtain ⟨found, isOperator⟩ := symbol?_ofChar_of_mem operates
  have width : (Text.group left).utf8ByteSize = left.utf8ByteSize + 2 := by
    simp only [Text.group, String.utf8ByteSize_append]
    change 1 + left.utf8ByteSize + 1 = _
    omega
  apply Expression.IsWrittenAt.ofSource_eq
  · have leftWritten :=
      ((Expression.isWrittenAt_root leftAccepted).shift
        (Text.compound left operator right) 1).group
    have rightMoved :=
      (Expression.isWrittenAt_root rightAccepted).shift
        (Text.compound left operator right) (left.utf8ByteSize + 4)
    rw [Nat.zero_add] at rightMoved
    have rightWritten :=
      @Expression.IsWrittenAt.group (left.utf8ByteSize + 3) right _
        rightMoved
    have place :
        0 + (Text.group left).utf8ByteSize + 1 =
          left.utf8ByteSize + 3 := by
      rw [width, Nat.zero_add]
    rw [← place] at rightWritten
    have whole := leftWritten.binary found rightWritten
    rw [place, width, Nat.zero_add] at whole
    exact whole
  · exact
      Expression.hasRank_term_of_primaries isOperator
        (.parenthesized rfl ((hasRank_root left).relocate _) rfl)
        (.parenthesized rfl ((hasRank_root right).relocate _) rfl)
  · apply Expression.nestsWithin_of_height_le
    simp only [compoundRoot, Expression.group, Expression.height,
      Relocation.expression, Expression.height_mapTokens]
    omega

/-- Both sides are valued as they are alone, and the left one first. -/
theorem value_compoundRoot
    (left : String)
    (operator : Char)
    (right : String) :
    (compoundRoot left operator right).value =
      match (ofSource left).root.value with
      | .error failure =>
          .error
            ((Relocation.shift (Text.compound left operator right)
              1).failure failure)
      | .ok leftValue =>
          match (ofSource right).root.value with
          | .error failure =>
              .error
                ((Relocation.shift (Text.compound left operator right)
                  (left.utf8ByteSize + 4)).failure failure)
          | .ok rightValue =>
              (Token.plain (.ofChar operator) (left.utf8ByteSize + 2)
                (String.singleton operator)).apply leftValue
                rightValue := by
  have moved (width : Nat) (line : String) :=
    (Relocation.shift (Text.compound left operator right)
      width).value_expression (ofSource line).root
  simp only [compoundRoot, Expression.group, Expression.value, moved]
  cases (ofSource left).root.value with
  | error failure => rfl
  | ok leftValue => cases (ofSource right).root.value <;> rfl

end SyntaxTree

/-- A line without diagnostics has the value of its root. -/
theorem calculate_of_accepted
    {source : String}
    (accepted : (SyntaxTree.ofSource source).diagnostics = []) :
    calculate source =
      (SyntaxTree.ofSource source).root.value.mapError .value := by
  unfold calculate SyntaxTree.calculate
  rw [accepted]
  rfl

/--
Two accepted lines in parentheses with an operator between them are accepted,
unless they are too tall for that.  What is calculated is the left line, then
the right one, and then the operator.  The first failure on the way is the
failure of the whole, at the place where its operator now is.
-/
theorem calculate_compound
    {left right : String}
    {operator : Char}
    (leftAccepted : (SyntaxTree.ofSource left).diagnostics = [])
    (rightAccepted : (SyntaxTree.ofSource right).diagnostics = [])
    (leftLow :
      (SyntaxTree.ofSource left).root.height + 2 ≤ maxNestingDepth)
    (rightLow :
      (SyntaxTree.ofSource right).root.height + 2 ≤ maxNestingDepth)
    (operates : operator ∈ ['+', '-', '*', '/']) :
    (SyntaxTree.ofSource
        (Text.compound left operator right)).diagnostics = [] ∧
      (∀ failure,
        calculate left = .error failure →
          calculate (Text.compound left operator right) =
            .error
              ((Relocation.shift (Text.compound left operator right)
                1).calculationError failure)) ∧
      (∀ leftValue failure,
        calculate left = .ok leftValue →
          calculate right = .error failure →
            calculate (Text.compound left operator right) =
              .error
                ((Relocation.shift (Text.compound left operator right)
                  (left.utf8ByteSize + 4)).calculationError
                  failure)) ∧
      ∀ leftValue rightValue,
        calculate left = .ok leftValue →
          calculate right = .ok rightValue →
            calculate (Text.compound left operator right) =
              ((Token.plain (.ofChar operator)
                (left.utf8ByteSize + 2)
                (String.singleton operator)).apply leftValue
                rightValue).mapError .value := by
  have tree :=
    SyntaxTree.ofSource_compound leftAccepted rightAccepted leftLow
      rightLow operates
  have accepted :
      (SyntaxTree.ofSource
        (Text.compound left operator right)).diagnostics = [] := by
    rw [tree]
  have whole :
      calculate (Text.compound left operator right) =
        (SyntaxTree.compoundRoot left operator right).value.mapError
          .value := by
    rw [calculate_of_accepted accepted, tree]
  rw [SyntaxTree.value_compoundRoot] at whole
  rw [calculate_of_accepted leftAccepted,
    calculate_of_accepted rightAccepted, whole]
  refine ⟨accepted, ?_⟩
  cases (SyntaxTree.ofSource left).root.value with
  | error failure =>
      refine ⟨?_, nofun, nofun⟩
      rintro _ ⟨⟩
      rfl
  | ok leftValue =>
      refine ⟨nofun, ?_⟩
      cases (SyntaxTree.ofSource right).root.value with
      | error failure =>
          refine ⟨?_, nofun⟩
          rintro _ _ - ⟨⟩
          rfl
      | ok rightValue =>
          refine ⟨nofun, ?_⟩
          rintro _ _ ⟨⟩ ⟨⟩
          rfl

/-- A division by zero on the right, behind a left side that has a value. -/
theorem calculate_compound_division :
    (SyntaxTree.ofSource "6*7").diagnostics = [] ∧
      (SyntaxTree.ofSource "8 /0").diagnostics = [] ∧
      (SyntaxTree.ofSource "6*7").root.height + 2 ≤
        maxNestingDepth ∧
      (SyntaxTree.ofSource "8 /0").root.height + 2 ≤
        maxNestingDepth ∧
      calculate (Text.compound "6*7" '-' "8 /0") =
        .error (.value (.divisionByZero 9)) := by
  have leftAccepted :
      (SyntaxTree.ofSource "6*7").diagnostics = [] := by
    decide +kernel
  have rightAccepted :
      (SyntaxTree.ofSource "8 /0").diagnostics = [] := by
    decide +kernel
  have leftLow :
      (SyntaxTree.ofSource "6*7").root.height + 2 ≤
        maxNestingDepth := by
    decide +kernel
  have rightLow :
      (SyntaxTree.ofSource "8 /0").root.height + 2 ≤
        maxNestingDepth := by
    decide +kernel
  have leftValued : calculate "6*7" = .ok 42 := by
    decide +kernel
  have rightFails :
      calculate "8 /0" = .error (.value (.divisionByZero 2)) := by
    decide +kernel
  obtain ⟨-, -, fails, -⟩ :=
    @calculate_compound _ _ '-' leftAccepted rightAccepted leftLow
      rightLow (by decide)
  exact
    ⟨leftAccepted, rightAccepted, leftLow, rightLow,
      fails 42 _ leftValued rightFails⟩

end Abacus
