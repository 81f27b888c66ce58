import Abacus.Token.Buffer

/-!
# Cursors

A cursor is a place in a token buffer while it is being read: the tokens that
are still to be read, the number of groups that are open there, and what has
gone wrong up to there.

Past its last token a cursor is at the end of file and stays there.  A step
either leaves the tokens alone or takes some from the front, so a reader that
takes a token has fewer of them left.
-/

namespace Abacus.Grammar

/--
The nesting limit.  Without one, groups and chains nest as deep as the source
asks for.
-/
abbrev Limit := Option Nat

/-- The limit that a level of nesting goes past, if it does. -/
def Limit.exceededBy? (limit : Limit) (level : Nat) : Option Nat :=
  limit.filter fun bound => bound < level

@[simp]
theorem Limit.exceededBy?_none
    (level : Nat) :
    Limit.exceededBy? none level = none := rfl

theorem Limit.exceededBy?_some
    (bound level : Nat) :
    Limit.exceededBy? (some bound) level =
      if bound < level then some bound else none := by
  simp [Limit.exceededBy?, Option.filter]

/-- A place in a token buffer. -/
structure Cursor where
  /-- The tokens that are still to be read. -/
  rest : List Token
  /-- The byte offset at which the source ends. -/
  sourceEnd : Nat
  /-- The number of groups that are open. -/
  depth : Nat
  /-- The tokens at which the nesting limit was crossed, the latest first. -/
  crossings : List Token
  /-- All faults found so far, the latest first. -/
  faults : List Diagnostic

namespace Cursor

/-- The place before the first token of a buffer. -/
def start (buffer : TokenBuffer) : Cursor :=
  { rest := buffer.tokens
    sourceEnd := buffer.sourceEnd
    depth := 0
    crossings := []
    faults := buffer.diagnostics.reverse }

/-- All faults found so far, in the order in which they were found. -/
def diagnostics (cursor : Cursor) : List Diagnostic :=
  cursor.faults.reverse

/-- The next token, or else the end of file. -/
def current (cursor : Cursor) : Token :=
  match cursor.rest with
  | [] => Token.endOfFile cursor.sourceEnd
  | token :: _ => token

/-- The place after the current token. -/
def advance (cursor : Cursor) : Cursor :=
  { cursor with rest := cursor.rest.tail }

/-- The same place, with one more fault found. -/
def report (cursor : Cursor) (diagnostic : Diagnostic) : Cursor :=
  { cursor with faults := diagnostic :: cursor.faults }

/-- The same place, inside one more group. -/
def enterGroup (cursor : Cursor) : Cursor :=
  { cursor with depth := cursor.depth + 1 }

/-- The same place, inside one group less. -/
def leaveGroup (cursor : Cursor) : Cursor :=
  { cursor with depth := cursor.depth - 1 }

/-- Whether the nesting limit has been crossed. -/
def isTooDeep (cursor : Cursor) : Bool :=
  !cursor.crossings.isEmpty

/--
The same place, after the nesting limit was crossed at a token.  Only the
first crossing is a fault of its own; the others follow from it.
-/
def cross (cursor : Cursor) (bound : Nat) (token : Token) : Cursor :=
  { cursor with
    crossings := token :: cursor.crossings
    faults :=
      if cursor.isTooDeep then
        cursor.faults
      else
        .nestingTooDeep bound token.position :: cursor.faults }

/--
Takes the current token if it is of the expected kind.  Otherwise this is a
fault, the cursor stays where it is, and a missing token of the expected kind
stands in.
-/
def expect
    (cursor : Cursor)
    (expected : Token.Kind) :
    Token × Cursor :=
  let actual := cursor.current
  if actual.kind = expected then
    (actual, cursor.advance)
  else
    (Token.missing expected actual.position,
      cursor.report
        (.unexpectedToken actual.kind expected actual.position))

/-- The number of open groups after one more token. -/
def openAfter (opened : Nat) (token : Token) : Nat :=
  match token.kind with
  | .openParen => opened + 1
  | .closeParen => opened - 1
  | _ => opened

/--
What is left of some tokens after the one that closes all the groups that are
open, or nothing if no token closes them.
-/
def afterGroups (opened : Nat) : List Token → List Token
  | [] => []
  | token :: others =>
      if openAfter opened token = 0 then
        others
      else
        afterGroups (openAfter opened token) others

/-- The place after the group that starts at the current token. -/
def skipGroup (cursor : Cursor) : Cursor :=
  { cursor with rest := afterGroups 0 cursor.rest }

/-! ## Diagnostics -/

@[simp]
theorem diagnostics_start
    (buffer : TokenBuffer) :
    (start buffer).diagnostics = buffer.diagnostics := by
  simp [start, diagnostics]

@[simp]
theorem diagnostics_advance
    (cursor : Cursor) :
    cursor.advance.diagnostics = cursor.diagnostics := rfl

@[simp]
theorem diagnostics_report
    (cursor : Cursor)
    (diagnostic : Diagnostic) :
    (cursor.report diagnostic).diagnostics =
      cursor.diagnostics ++ [diagnostic] :=
  List.reverse_cons

@[simp]
theorem diagnostics_enterGroup
    (cursor : Cursor) :
    cursor.enterGroup.diagnostics = cursor.diagnostics := rfl

@[simp]
theorem diagnostics_leaveGroup
    (cursor : Cursor) :
    cursor.leaveGroup.diagnostics = cursor.diagnostics := rfl

@[simp]
theorem diagnostics_skipGroup
    (cursor : Cursor) :
    cursor.skipGroup.diagnostics = cursor.diagnostics := rfl

/-- A crossing is reported if it is the first. -/
theorem diagnostics_cross
    (cursor : Cursor)
    (bound : Nat)
    (token : Token) :
    (cursor.cross bound token).diagnostics =
      cursor.diagnostics ++
        if cursor.isTooDeep then
          []
        else
          [.nestingTooDeep bound token.position] := by
  unfold cross diagnostics
  cases cursor.isTooDeep <;> simp

/-! ## Progress -/

theorem length_afterGroups_le
    (opened : Nat)
    (tokens : List Token) :
    (afterGroups opened tokens).length ≤ tokens.length := by
  induction tokens generalizing opened with
  | nil => exact Nat.le_refl 0
  | cons token others hypothesis =>
      unfold afterGroups
      split
      · exact Nat.le_succ others.length
      · exact Nat.le_succ_of_le (hypothesis _)

theorem current_of_rest_eq_nil
    {cursor : Cursor}
    (finished : cursor.rest = []) :
    cursor.current = Token.endOfFile cursor.sourceEnd := by
  simp [current, finished]

theorem rest_ne_nil_of_kind_ne
    {cursor : Cursor}
    (unfinished : cursor.current.kind ≠ .endOfFile) :
    cursor.rest ≠ [] := by
  intro finished
  exact unfinished (by rw [current_of_rest_eq_nil finished]; rfl)

/-- Past the end of file there is nothing, so every other token advances. -/
theorem length_rest_advance_lt
    {cursor : Cursor}
    (unfinished : cursor.current.kind ≠ .endOfFile) :
    cursor.advance.rest.length < cursor.rest.length := by
  have nonempty := rest_ne_nil_of_kind_ne unfinished
  have positive := List.length_pos_iff.2 nonempty
  simp only [advance, List.length_tail]
  omega

theorem length_rest_advance_le
    (cursor : Cursor) :
    cursor.advance.rest.length ≤ cursor.rest.length := by
  simp only [advance, List.length_tail]
  omega

theorem length_rest_skipGroup_le
    (cursor : Cursor) :
    cursor.skipGroup.rest.length ≤ cursor.rest.length :=
  length_afterGroups_le 0 cursor.rest

theorem length_rest_expect_le
    (cursor : Cursor)
    (expected : Token.Kind) :
    (cursor.expect expected).2.rest.length ≤ cursor.rest.length := by
  unfold expect
  dsimp only
  split
  · exact length_rest_advance_le cursor
  · exact Nat.le_refl _

@[simp]
theorem rest_report
    (cursor : Cursor)
    (diagnostic : Diagnostic) :
    (cursor.report diagnostic).rest = cursor.rest := rfl

@[simp]
theorem rest_enterGroup
    (cursor : Cursor) :
    cursor.enterGroup.rest = cursor.rest := rfl

@[simp]
theorem rest_leaveGroup
    (cursor : Cursor) :
    cursor.leaveGroup.rest = cursor.rest := rfl

@[simp]
theorem rest_cross
    (cursor : Cursor)
    (bound : Nat)
    (token : Token) :
    (cursor.cross bound token).rest = cursor.rest := rfl

end Cursor

end Abacus.Grammar
