import Abacus.Token.Scanner

/-!
# Token buffers

A token buffer is a source text as the grammar sees it: all its tokens but
blanks and invalid characters, the byte offset at which it ends, and the
lexical diagnostics.
-/

namespace Abacus

/-- The tokens of a source text that the grammar runs over. -/
structure TokenBuffer where
  /-- The tokens before the end of file. -/
  tokens : List Token
  /-- The byte offset at which the source ends. -/
  sourceEnd : Nat
  /-- The faults that the scanner found. -/
  diagnostics : List Diagnostic

namespace TokenBuffer

/-- Scans a whole source text. -/
def ofSource (source : String) : TokenBuffer :=
  let scanned := (Scanner.start source).drain
  { tokens := scanned.1.filter fun token => token.kind.isSignificant
    sourceEnd := source.utf8ByteSize
    diagnostics := scanned.2.diagnostics }

end TokenBuffer

end Abacus
