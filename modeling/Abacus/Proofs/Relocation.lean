import Abacus.Calculation
import Abacus.Proofs.Drawing.Outline
import Abacus.Proofs.Grammar.Commutation
import Abacus.SyntaxTree.Node

/-!
# Relocation

The grammar looks at the kinds of tokens and hands their positions on without
looking at them.  The value of an expression depends on positions only where it
says what went wrong.  So if all tokens of a line are moved, then everything
that is made of them is moved in the same way: the tree, its diagnostics, and
the failure of its calculation.  A drawing shows no positions and stays the
same.

Diagnostics may quote the source.  A relocation therefore has the text to which
the tokens are moved, and not only the positions.
-/

namespace Abacus

open Grammar

/-- The same expression with other tokens in the same places. -/
def Expression.mapTokens
    (change : Token → Token) :
    Expression → Expression
  | .number literal => .number (change literal)
  | .binary left operator right =>
      .binary (left.mapTokens change) (change operator)
        (right.mapTokens change)
  | .parenthesized opening inner closing =>
      .parenthesized (change opening) (inner.mapTokens change)
        (change closing)

namespace Expression

variable {change : Token → Token}

@[simp]
theorem tokens_mapTokens
    (change : Token → Token)
    (expression : Expression) :
    (expression.mapTokens change).tokens =
      expression.tokens.map change := by
  induction expression with
  | number literal => rfl
  | binary left operator right leftSame rightSame =>
      simp [mapTokens, tokens, leftSame, rightSame]
  | parenthesized opening inner closing same =>
      simp [mapTokens, tokens, same]

@[simp]
theorem height_mapTokens
    (change : Token → Token)
    (expression : Expression) :
    (expression.mapTokens change).height = expression.height := by
  induction expression with
  | number literal => rfl
  | binary left operator right leftSame rightSame =>
      simp [mapTokens, height, leftSame, rightSame]
  | parenthesized opening inner closing same =>
      simp [mapTokens, height, same]

end Expression

namespace Node

/-- The same node with other tokens in the same places. -/
def mapTokens (change : Token → Token) : Node → Node
  | .token leaf => .token (change leaf)
  | .expression whole => .expression (whole.mapTokens change)

variable {change : Token → Token}

/-- Below a node with other tokens there are the same nodes with others. -/
theorem outline_mapTokens
    (change : Token → Token)
    (node : Node) :
    (node.mapTokens change).outline =
      node.outline.map (mapTokens change) := by
  cases node with
  | token leaf => rfl
  | expression whole =>
      change
        (whole.mapTokens change).outline =
          whole.outline.map (mapTokens change)
      induction whole with
      | number literal => rfl
      | binary left operator right leftSame rightSame =>
          simp only [Expression.mapTokens, Expression.outline,
            Outline.map, Outline.mapParts, leftSame, rightSame]
          rfl
      | parenthesized opening inner closing same =>
          simp only [Expression.mapTokens, Expression.outline,
            Outline.map, Outline.mapParts, same]
          rfl

/-- A drawing shows nothing of tokens but their kinds and values. -/
theorem render_mapTokens
    (kind : ∀ token, (change token).kind = token.kind)
    (value : ∀ token, (change token).value = token.value)
    (node : Node) :
    (node.mapTokens change).render = node.render := by
  have same (node : Node) : (node.mapTokens change).label = node.label := by
    match node with
    | .token leaf =>
        simp only [mapTokens, label, kind, value]
    | .expression (.number literal) => rfl
    | .expression (.binary left operator right) => rfl
    | .expression (.parenthesized opening inner closing) => rfl
  unfold render
  rw [outline_mapTokens, Outline.map_map]
  simp only [same]

end Node

/-- Where the places of one text are in another. -/
structure Relocation where
  /-- The text to which everything is moved. -/
  source : String
  /-- Where a byte offset is moved to. -/
  move : Nat → Nat

namespace Relocation

variable (relocation : Relocation)

/-! ## What is moved -/

/-- A token that is moved. -/
def token (token : Token) : Token :=
  { token with position := relocation.move token.position }

/-- An expression all of whose tokens are moved. -/
def expression (expression : Expression) : Expression :=
  expression.mapTokens relocation.token

/-- A fault that is moved, and that quotes the text it is moved to. -/
def diagnostic : Diagnostic → Diagnostic
  | .invalidCharacter character position =>
      .invalidCharacter character (relocation.move position)
  | .invalidNumber _ position =>
      .invalidNumber relocation.source (relocation.move position)
  | .unexpectedToken actual expected position =>
      .unexpectedToken actual expected (relocation.move position)
  | .nestingTooDeep limit position =>
      .nestingTooDeep limit (relocation.move position)

/-- A buffer all of whose tokens and faults are moved. -/
def buffer (buffer : TokenBuffer) : TokenBuffer :=
  { tokens := buffer.tokens.map relocation.token
    sourceEnd := relocation.move buffer.sourceEnd
    diagnostics := buffer.diagnostics.map relocation.diagnostic }

/-- A cursor in a buffer that is moved. -/
def cursor (cursor : Cursor) : Cursor :=
  { rest := cursor.rest.map relocation.token
    sourceEnd := relocation.move cursor.sourceEnd
    depth := cursor.depth
    crossings := cursor.crossings.map relocation.token
    faults := cursor.faults.map relocation.diagnostic }

/-- An expression that was read and is moved, with the place after it. -/
def parsed (parsed : Parsed) : Parsed :=
  { expression := relocation.expression parsed.expression
    height := parsed.height
    cursor := relocation.cursor parsed.cursor }

/-- A tree that is moved as a whole. -/
def tree (tree : SyntaxTree) : SyntaxTree :=
  { diagnostics := tree.diagnostics.map relocation.diagnostic
    root := relocation.expression tree.root
    endOfFile := relocation.token tree.endOfFile }

/-- A failure at a token that is moved. -/
def failure : ValueError → ValueError
  | .divisionByZero position =>
      .divisionByZero (relocation.move position)
  | .overflow position => .overflow (relocation.move position)
  | .missingValue position =>
      .missingValue (relocation.move position)
  | .unexpectedOperator kind => .unexpectedOperator kind

/-- A failed calculation of a line that is moved. -/
def calculationError : CalculationError → CalculationError
  | .diagnostics faults =>
      .diagnostics (faults.map relocation.diagnostic)
  | .value failure => .value (relocation.failure failure)

/-! ## Tokens -/

@[simp]
theorem token_kind (token : Token) :
    (relocation.token token).kind = token.kind := rfl

@[simp]
theorem token_position (token : Token) :
    (relocation.token token).position =
      relocation.move token.position := rfl

@[simp]
theorem token_text (token : Token) :
    (relocation.token token).text = token.text := rfl

@[simp]
theorem token_value (token : Token) :
    (relocation.token token).value = token.value := rfl

@[simp]
theorem token_endOfFile (position : Nat) :
    relocation.token (.endOfFile position) =
      .endOfFile (relocation.move position) := rfl

@[simp]
theorem token_missing
    (kind : Token.Kind)
    (position : Nat) :
    relocation.token (.missing kind position) =
      .missing kind (relocation.move position) := rfl

@[simp]
theorem token_scanned
    (kind : Token.Kind)
    (position : Nat)
    (text : String) :
    relocation.token (.scanned kind position text) =
      .scanned kind (relocation.move position) text := by
  cases kind <;> rfl

/-- The fault of a token by itself is moved with the token. -/
theorem lexicalFault?_token
    (source : String)
    (token : Token) :
    (relocation.token token).lexicalFault? relocation.source =
      (token.lexicalFault? source).map relocation.diagnostic := by
  unfold Token.lexicalFault?
  rw [token_kind, token_value, token_text]
  split
  · rfl
  · cases token.text.toList.head? <;> rfl
  · rfl

/-! ## Steps of a reading -/

@[simp]
theorem current_cursor (cursor : Cursor) :
    (relocation.cursor cursor).current =
      relocation.token cursor.current := by
  unfold Cursor.current Relocation.cursor
  cases cursor.rest <;> rfl

@[simp]
theorem advance_cursor (cursor : Cursor) :
    (relocation.cursor cursor).advance =
      relocation.cursor cursor.advance := by
  simp [Cursor.advance, Relocation.cursor]

@[simp]
theorem enterGroup_cursor (cursor : Cursor) :
    (relocation.cursor cursor).enterGroup =
      relocation.cursor cursor.enterGroup := rfl

@[simp]
theorem leaveGroup_cursor (cursor : Cursor) :
    (relocation.cursor cursor).leaveGroup =
      relocation.cursor cursor.leaveGroup := rfl

@[simp]
theorem diagnostics_cursor (cursor : Cursor) :
    (relocation.cursor cursor).diagnostics =
      cursor.diagnostics.map relocation.diagnostic :=
  List.map_reverse.symm

/-- The same token is found or missing when a token is asked for. -/
@[simp]
theorem expect_cursor
    (cursor : Cursor)
    (expected : Token.Kind) :
    (relocation.cursor cursor).expect expected =
      (relocation.token (cursor.expect expected).1,
        relocation.cursor (cursor.expect expected).2) := by
  simp only [Cursor.expect, current_cursor, token_kind,
    advance_cursor]
  split <;> rfl

/-- A crossing that is not the first is not reported after the move either. -/
@[simp]
theorem cross_cursor
    (cursor : Cursor)
    (bound : Nat)
    (token : Token) :
    (relocation.cursor cursor).cross bound (relocation.token token) =
      relocation.cursor (cursor.cross bound token) := by
  have same :
      (relocation.cursor cursor).isTooDeep = cursor.isTooDeep := by
    simp [Cursor.isTooDeep, Relocation.cursor]
  unfold Cursor.cross
  rw [same]
  cases cursor.isTooDeep <;> rfl

theorem afterGroups_map
    (opened : Nat)
    (tokens : List Token) :
    Cursor.afterGroups opened (tokens.map relocation.token) =
      (Cursor.afterGroups opened tokens).map relocation.token := by
  induction tokens generalizing opened with
  | nil => rfl
  | cons token others hypothesis =>
      have same :
          Cursor.openAfter opened (relocation.token token) =
            Cursor.openAfter opened token := rfl
      rw [List.map_cons, Cursor.afterGroups, Cursor.afterGroups, same,
        hypothesis]
      exact (apply_ite (List.map relocation.token) ..).symm

@[simp]
theorem skipGroup_cursor (cursor : Cursor) :
    (relocation.cursor cursor).skipGroup =
      relocation.cursor cursor.skipGroup := by
  unfold Cursor.skipGroup
  simp only [Relocation.cursor, afterGroups_map]

@[simp]
theorem literal_cursor (cursor : Cursor) :
    Parsed.literal (relocation.cursor cursor) =
      relocation.parsed (.literal cursor) := by
  unfold Parsed.literal
  rw [expect_cursor]
  rfl

@[simp]
theorem skipped_cursor
    (bound : Nat)
    (cursor : Cursor) :
    Parsed.skipped bound (relocation.cursor cursor) =
      relocation.parsed (.skipped bound cursor) := by
  simp only [Parsed.skipped, current_cursor, cross_cursor,
    skipGroup_cursor]
  rfl

@[simp]
theorem enclose_parsed
    (opening : Token)
    (inner : Parsed) :
    Parsed.enclose (relocation.token opening)
        (relocation.parsed inner) =
      relocation.parsed (.enclose opening inner) := by
  have closing :=
    relocation.expect_cursor inner.cursor.leaveGroup .closeParen
  unfold Parsed.enclose
  simp only [Relocation.parsed, leaveGroup_cursor, closing]
  rfl

/-- The same links are joined, since heights are not moved. -/
@[simp]
theorem link_parsed
    (limit : Limit)
    (left : Parsed)
    (operator : Token)
    (right : Parsed) :
    Parsed.link limit (relocation.parsed left)
        (relocation.token operator) (relocation.parsed right) =
      relocation.parsed (.link limit left operator right) := by
  cases exceeded :
      limit.exceededBy? (max left.height right.height + 1) with
  | none =>
      rw [Parsed.link_of_exceededBy?_eq_none operator exceeded]
      exact
        Parsed.link_of_exceededBy?_eq_none
          (relocation.token operator) exceeded
  | some bound =>
      rw [Parsed.link_of_exceededBy?_eq_some operator exceeded]
      have crossed :=
        @Parsed.link_of_exceededBy?_eq_some limit
          (relocation.parsed left) (relocation.parsed right) bound
          (relocation.token operator) exceeded
      have moved := relocation.cross_cursor right.cursor bound operator
      rw [crossed]
      simp only [Relocation.parsed, moved]

/-! ## Readings -/

theorem commutesWithSteps (limit : Limit) :
    CommutesWithSteps limit relocation.cursor relocation.parsed where
  kind cursor := by
    rw [current_cursor, token_kind]
  depth _ := rfl
  cursor _ := rfl
  advance := relocation.advance_cursor
  enterGroup := relocation.enterGroup_cursor
  literal := relocation.literal_cursor
  skipped := relocation.skipped_cursor
  enclose cursor inner := by
    rw [current_cursor, enclose_parsed]
  link left cursor right := by
    rw [current_cursor, link_parsed]

/-- What is read from tokens that are moved is what was read, but moved. -/
theorem read_cursor
    (limit : Limit)
    (rank : Rank)
    (cursor : Cursor) :
    read limit rank (relocation.cursor cursor) =
      relocation.parsed (read limit rank cursor) :=
  (relocation.commutesWithSteps limit).reading.1 rank cursor

@[simp]
theorem start_buffer (buffer : TokenBuffer) :
    Cursor.start (relocation.buffer buffer) =
      relocation.cursor (.start buffer) := by
  simp [Cursor.start, Relocation.buffer, Relocation.cursor]

/-- The tree of tokens that are moved is the tree, but moved. -/
theorem parseWithin_buffer
    (limit : Limit)
    (buffer : TokenBuffer) :
    (relocation.buffer buffer).parseWithin limit =
      relocation.tree (buffer.parseWithin limit) := by
  have moved := relocation.read_cursor limit .term (.start buffer)
  have closing :=
    relocation.expect_cursor
      (read limit .term (.start buffer)).cursor .endOfFile
  unfold TokenBuffer.parseWithin
  rw [start_buffer, moved]
  simp only [Relocation.parsed, closing, diagnostics_cursor]
  rfl

/-! ## Values -/

theorem apply_token
    (operator : Token)
    (left right : Int32) :
    (relocation.token operator).apply left right =
      (operator.apply left right).mapError relocation.failure := by
  have checked (result : Int) :
      (relocation.token operator).checked result =
        (operator.checked result).mapError relocation.failure := by
    unfold Token.checked
    cases Word.ofInt? result <;> rfl
  unfold Token.apply
  rw [token_kind]
  cases operator.kind <;>
    simp only [checked] <;>
      first
      | rfl
      | split <;> rfl

/-- An expression that is moved has its value, or the failure is moved. -/
theorem value_expression (expression : Expression) :
    (relocation.expression expression).value =
      expression.value.mapError relocation.failure := by
  induction expression with
  | number literal =>
      change Expression.value (.number (relocation.token literal)) = _
      unfold Expression.value
      rw [token_value]
      cases literal.value <;> rfl
  | binary left operator right leftMoved rightMoved =>
      change
        Expression.value
            (.binary (relocation.expression left)
              (relocation.token operator)
              (relocation.expression right)) =
          _
      rw [Expression.value, Expression.value, leftMoved, rightMoved]
      cases left.value with
      | error failure => rfl
      | ok leftValue =>
          cases right.value with
          | error failure => rfl
          | ok rightValue =>
              exact relocation.apply_token operator leftValue rightValue
  | parenthesized opening inner closing moved => exact moved

/-- A tree that is moved has its value, or what is wrong is moved. -/
theorem calculate_tree (tree : SyntaxTree) :
    (relocation.tree tree).calculate =
      tree.calculate.mapError relocation.calculationError := by
  have value := relocation.value_expression tree.root
  unfold SyntaxTree.calculate
  simp only [Relocation.tree, List.isEmpty_map, value]
  split
  · cases tree.root.value <;> rfl
  · rfl

/-! ## Drawings -/

/-- Drawings show no positions. -/
@[simp]
theorem render_expression (expression : Expression) :
    (Node.expression (relocation.expression expression)).render =
      (Node.expression expression).render :=
  Node.render_mapTokens relocation.token_kind relocation.token_value
    (.expression expression)

end Relocation

end Abacus
