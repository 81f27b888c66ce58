import Abacus.Grammar.Descent

/-!
# Syntax trees

A syntax tree is what a source line reads as: one term and the end of file
behind it, together with all the diagnostics.  There is a tree for every
source.  It may be relied upon only if it has no diagnostics.
-/

namespace Abacus

/-- What a source line reads as. -/
structure SyntaxTree where
  /-- The lexical faults, and then those of the grammar. -/
  diagnostics : List Diagnostic
  /-- The expression that makes up the line. -/
  root : Expression
  /-- The end of file, which is missing if tokens are left over. -/
  endOfFile : Token
deriving DecidableEq

/--
How deep expressions may nest: the number of groups inside each other, and
the height of a chain of operators.
-/
def maxNestingDepth : Nat := 256

namespace TokenBuffer

/-- Reads a buffer as one term that is followed by the end of file. -/
def parseWithin
    (limit : Grammar.Limit)
    (buffer : TokenBuffer) :
    SyntaxTree :=
  let term := Grammar.read limit .term (.start buffer)
  let closing := term.cursor.expect .endOfFile
  { diagnostics := closing.2.diagnostics
    root := term.expression
    endOfFile := closing.1 }

/-- Reads a buffer under the nesting limit. -/
def parse (buffer : TokenBuffer) : SyntaxTree :=
  buffer.parseWithin (some maxNestingDepth)

end TokenBuffer

namespace SyntaxTree

/-- Reads a source line under the nesting limit. -/
def ofSource (source : String) : SyntaxTree :=
  (TokenBuffer.ofSource source).parse

end SyntaxTree

end Abacus
