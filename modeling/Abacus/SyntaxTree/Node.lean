import Abacus.Drawing.Basic
import Abacus.Expression.Basic

/-!
# Nodes of a syntax tree

A node is a token or an expression.  Seen as nodes, all parts of a tree are
alike: each has a kind, and its children from left to right.  Tokens are the
leaves.
-/

namespace Abacus

/-- What a node is. -/
inductive Node.Kind where
  | token (kind : Token.Kind)
  | number
  | binary
  | parenthesized
deriving DecidableEq

/-- The name of a node's kind in drawings. -/
def Node.Kind.name : Node.Kind → String
  | .token kind => kind.name ++ "Token"
  | .number => "NumberExpression"
  | .binary => "BinaryExpression"
  | .parenthesized => "ParenthesizedExpression"

/-- The kinds of node that have children. -/
def Node.Kind.expressions : List Node.Kind :=
  [.number, .binary, .parenthesized]

/-- A token or an expression. -/
inductive Node where
  | token (token : Token)
  | expression (expression : Expression)
deriving DecidableEq

/-- The kind of node that an expression is. -/
def Expression.nodeKind : Expression → Node.Kind
  | .number _ => .number
  | .binary _ _ _ => .binary
  | .parenthesized _ _ _ => .parenthesized

/-- The parts of an expression, from left to right. -/
def Expression.children : Expression → List Node
  | .number literal => [.token literal]
  | .binary left operator right =>
      [.expression left, .token operator, .expression right]
  | .parenthesized opening inner closing =>
      [.token opening, .expression inner, .token closing]

namespace Node

/-- What a node is. -/
def kind : Node → Node.Kind
  | .token leaf => .token leaf.kind
  | .expression whole => whole.nodeKind

/-- The parts of a node, from left to right. -/
def children : Node → List Node
  | .token _ => []
  | .expression whole => whole.children

/-- The tokens of a node, from left to right.  A token is its own. -/
def tokens : Node → List Token
  | .token leaf => [leaf]
  | .expression whole => whole.tokens

/-- The tokens of an expression are those of its parts. -/
theorem tokens_expression
    (whole : Expression) :
    (Node.expression whole).tokens =
      whole.children.flatMap tokens := by
  cases whole <;>
    simp [tokens, Expression.children, Expression.tokens]

/-- A node without the given child, and the step at which it was asked for. -/
structure NoChild where
  /-- The node that has too few children. -/
  node : Node
  /-- How many steps had been taken to get there. -/
  step : Nat

/-- What the user is told about a child that is not there. -/
def NoChild.message (failure : NoChild) : String :=
  failure.node.kind.name ++ " has " ++
    toString failure.node.children.length ++ " children"

/-- Goes down a path of child numbers, some steps into the whole path. -/
def descendFrom
    (step : Nat)
    (node : Node) :
    List Nat → Except NoChild Node
  | [] => .ok node
  | index :: path =>
      match node.children[index]? with
      | some child => descendFrom (step + 1) child path
      | none => .error { node, step }

/-- Goes down from a node along a path of child numbers. -/
def descend (node : Node) (path : List Nat) : Except NoChild Node :=
  node.descendFrom 0 path

end Node

/-- An expression and everything below it. -/
def Expression.outline : Expression → Outline Node
  | .number literal =>
      .entry (.expression (.number literal))
        [.entry (.token literal) []]
  | .binary left operator right =>
      .entry (.expression (.binary left operator right))
        [left.outline, .entry (.token operator) [], right.outline]
  | .parenthesized opening inner closing =>
      .entry (.expression (.parenthesized opening inner closing))
        [.entry (.token opening) [], inner.outline,
          .entry (.token closing) []]

namespace Node

/-- A node and everything below it. -/
def outline : Node → Outline Node
  | .token leaf => .entry (.token leaf) []
  | .expression whole => whole.outline

/-- Below a node are its children, and below each of them its own. -/
theorem outline_eq
    (node : Node) :
    node.outline = .entry node (node.children.map outline) := by
  match node with
  | .token leaf => rfl
  | .expression (.number literal) => rfl
  | .expression (.binary left operator right) => rfl
  | .expression (.parenthesized opening inner closing) => rfl

/-- All nodes from a node down, with their depths, in pre-order. -/
def preorder (node : Node) : List (Nat × Node) :=
  node.outline.preorder

/-- What a drawing says about a node: its kind, and the value of a token. -/
def label : Node → String
  | .token leaf =>
      match leaf.value with
      | some value =>
          (Node.Kind.token leaf.kind).name ++ " " ++ toString value
      | none => (Node.Kind.token leaf.kind).name
  | .expression whole => whole.nodeKind.name

/-- The drawing of a node and everything below it. -/
def render (node : Node) : String :=
  Drawing.render (node.outline.map label)

/--
How many bytes of a space stay free after a node's drawing is written to it,
if the drawing fits.
-/
def roomLeft? (node : Node) (space : Nat) : Option Nat :=
  if node.render.utf8ByteSize ≤ space then
    some (space - node.render.utf8ByteSize)
  else
    none

end Node

end Abacus
