import Abacus.Diagnostic
import Abacus.Token.Literal

/-!
# Scanning

The scanner cuts a source text into tokens from left to right.  Every token
is as long as its kind allows, and every character belongs to some token, so
the texts of the tokens put together are the source.

A token that is faulty by itself is noted when it is scanned: a character that
starts no token, or a literal without a value.
-/

namespace Abacus

/-- The token of one kind that a source has at a position. -/
def Token.scanned
    (kind : Token.Kind)
    (position : Nat)
    (text : String) :
    Token :=
  match kind with
  | .number => Token.number position text (Literal.value? text)
  | _ => Token.plain kind position text

/-- What is wrong with a token by itself, in the source that it is from. -/
def Token.lexicalFault?
    (source : String)
    (token : Token) :
    Option Diagnostic :=
  match token.kind, token.value with
  | .number, none => some (.invalidNumber source token.position)
  | .invalid, _ =>
      token.text.toList.head?.map fun character =>
        .invalidCharacter character token.position
  | _, _ => none

/-- A source text that is scanned up to some position. -/
structure Scanner where
  /-- The whole source text. -/
  source : String
  /-- The byte offset up to which the source is scanned. -/
  position : Nat
  /-- The characters that are still to be scanned. -/
  rest : List Char
  /-- The faults found so far, the latest first. -/
  faults : List Diagnostic

namespace Scanner

/-- A scanner at the start of a source text. -/
def start (source : String) : Scanner :=
  { source, position := 0, rest := source.toList, faults := [] }

/-- The faults found so far, in the order in which they were found. -/
def diagnostics (scanner : Scanner) : List Diagnostic :=
  scanner.faults.reverse

/-- The token after the last character. -/
def endOfFile (scanner : Scanner) : Token :=
  Token.endOfFile scanner.source.utf8ByteSize

/-- The scanner after a token whose characters were taken from its rest. -/
def past
    (scanner : Scanner)
    (token : Token)
    (rest : List Char) :
    Scanner :=
  { source := scanner.source
    position := scanner.position + token.text.utf8ByteSize
    rest := rest
    faults :=
      match token.lexicalFault? scanner.source with
      | some fault => fault :: scanner.faults
      | none => scanner.faults }

/--
The next token, and the scanner after it.  At the end of the source this is
the end of file, as often as it is asked for.
-/
def next (scanner : Scanner) : Token × Scanner :=
  match scanner.rest with
  | [] => (scanner.endOfFile, scanner)
  | first :: others =>
      let kind := Token.Kind.ofChar first
      let text :=
        String.ofList (first :: others.takeWhile kind.continuesWith)
      let token := Token.scanned kind scanner.position text
      (token, scanner.past token (others.dropWhile kind.continuesWith))

/-- Scanning a token uses up at least one character. -/
theorem length_rest_next_lt
    {scanner : Scanner}
    (unfinished : scanner.rest ≠ []) :
    scanner.next.2.rest.length < scanner.rest.length := by
  unfold next
  match shape : scanner.rest with
  | [] => contradiction
  | first :: others =>
      exact Nat.lt_succ_of_le (List.dropWhile_sublist _).length_le

/-- At the end of the source there is nothing more to scan. -/
theorem next_of_rest_eq_nil
    {scanner : Scanner}
    (finished : scanner.rest = []) :
    scanner.next = (scanner.endOfFile, scanner) := by
  simp [next, finished]

/-- A token is noted after the faults of the tokens before it. -/
theorem diagnostics_past
    (scanner : Scanner)
    (token : Token)
    (rest : List Char) :
    (scanner.past token rest).diagnostics =
      scanner.diagnostics ++
        (token.lexicalFault? scanner.source).toList := by
  unfold past diagnostics
  cases token.lexicalFault? scanner.source <;> simp

/-! ## All the tokens -/

/--
Scans all the tokens before the end of file and puts them before some others,
the latest first.
-/
def drainOnto
    (scanned : List Token)
    (scanner : Scanner) :
    List Token × Scanner :=
  if scanner.rest = [] then
    (scanned, scanner)
  else
    drainOnto (scanner.next.1 :: scanned) scanner.next.2
termination_by scanner.rest.length
decreasing_by
  exact length_rest_next_lt ‹_›

/--
The tokens that are still to come before the end of file, and the scanner
after them.
-/
def drain (scanner : Scanner) : List Token × Scanner :=
  let scanned := drainOnto [] scanner
  (scanned.1.reverse, scanned.2)

/-- What is scanned does not depend on what it is put before. -/
theorem drainOnto_append
    (scanned others : List Token)
    (scanner : Scanner) :
    drainOnto (scanned ++ others) scanner =
      ((drainOnto scanned scanner).1 ++ others,
        (drainOnto scanned scanner).2) := by
  fun_induction drainOnto scanned scanner with
  | case1 scanned scanner finished =>
      rw [drainOnto, if_pos finished]
  | case2 scanned scanner unfinished hypothesis =>
      rw [drainOnto, if_neg unfinished]
      exact hypothesis

/-- At the end of the source there are no more tokens. -/
theorem drain_of_rest_eq_nil
    {scanner : Scanner}
    (finished : scanner.rest = []) :
    scanner.drain = ([], scanner) := by
  rw [drain, drainOnto, if_pos finished]
  rfl

/-- Elsewhere the next token comes before all the others. -/
theorem drain_of_rest_ne_nil
    {scanner : Scanner}
    (unfinished : scanner.rest ≠ []) :
    scanner.drain =
      (scanner.next.1 :: scanner.next.2.drain.1,
        scanner.next.2.drain.2) := by
  have following := drainOnto_append [] [scanner.next.1] scanner.next.2
  rw [List.nil_append] at following
  conv => lhs; rw [drain, drainOnto, if_neg unfinished, following]
  simp [drain]

end Scanner

end Abacus
