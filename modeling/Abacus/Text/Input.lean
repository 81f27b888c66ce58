import Abacus.Text.Lines

/-!
# Text from bytes

Bytes are read as UTF-8.  A file is a text only if all of it is; a reader of
lines gets further, because the lines before the first bad one are good.
-/

namespace Abacus.Text

/-- The byte that ends a line.  In UTF-8 it occurs in no other character. -/
def newlineByte : UInt8 := 10

/-- Puts one byte in front of the lines of the bytes that follow it. -/
def prependToByteLines
    (byte : UInt8)
    (lines : List (List UInt8)) :
    List (List UInt8) :=
  if byte = newlineByte then
    [byte] :: lines
  else
    match lines with
    | [] => [[byte]]
    | line :: others => (byte :: line) :: others

/-- The lines of a byte sequence, each up to and including its newline. -/
def byteLines (bytes : List UInt8) : List (List UInt8) :=
  bytes.foldr prependToByteLines []

/-- The text of one line of bytes, if it is UTF-8. -/
def decodeLine? (line : List UInt8) : Option String :=
  String.fromUTF8? ⟨line.toArray⟩

/--
The text that a reader of lines gets from some bytes.  It is all of them when
they are UTF-8, and otherwise the lines before the first that is not.
-/
def readableText (bytes : ByteArray) : String :=
  match String.fromUTF8? bytes with
  | some text => text
  | none =>
      let decoded := (byteLines bytes.toList).map decodeLine?
      String.join ((decoded.takeWhile Option.isSome).filterMap id)

end Abacus.Text
