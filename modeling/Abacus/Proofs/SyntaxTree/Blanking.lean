import Abacus.Proofs.SyntaxTree.Blanks
import Abacus.Proofs.SyntaxTree.Faults

/-!
# Invalid characters as blanks

A character that starts no token is complained about and otherwise treated like
a blank.  So if there were spaces in its place, as many as it has bytes, then all
other tokens would stay where they are, and nothing would be lost but the
complaint.

The two texts are cut into different tokens, since the spaces go into the
stretches of blanks beside them.  But the tokens that reach the grammar are
spread over both of them alike.
-/

namespace Abacus

/-! ## Spaces -/

/-- A text of so many spaces. -/
def Text.spaces (count : Nat) : String :=
  String.ofList (List.replicate count ' ')

theorem Text.isBlank_of_mem_spaces
    {count : Nat}
    {character : Char}
    (member : character ∈ (spaces count).toList) :
    isBlank character = true := by
  rw [spaces, String.toList_ofList] at member
  obtain rfl := List.eq_of_mem_replicate member
  decide

/-- A space is a single byte. -/
theorem Text.utf8ByteSize_spaces (count : Nat) :
    (spaces count).utf8ByteSize = count := by
  unfold spaces
  induction count with
  | zero => rfl
  | succ count hypothesis =>
      rw [List.replicate_succ, String.ofList_cons,
        String.utf8ByteSize_append, String.utf8ByteSize_singleton,
        hypothesis]
      exact Nat.add_comm 1 count

namespace Token

/-- A token, with as many spaces as it has bytes if it is invalid. -/
def blankedOut (token : Token) : Token :=
  if token.kind = .invalid then
    { token with text := Text.spaces token.text.utf8ByteSize }
  else
    token

theorem text_blankedOut_of_invalid
    {token : Token}
    (isInvalid : token.kind = .invalid) :
    token.blankedOut.text =
      Text.spaces token.text.utf8ByteSize := by
  rw [blankedOut, if_pos isInvalid]

theorem blankedOut_of_ne_invalid
    {token : Token}
    (valid : token.kind ≠ .invalid) :
    token.blankedOut = token :=
  if_neg valid

theorem utf8ByteSize_text_blankedOut (token : Token) :
    token.blankedOut.text.utf8ByteSize =
      token.text.utf8ByteSize := by
  by_cases isInvalid : token.kind = .invalid
  · rw [text_blankedOut_of_invalid isInvalid,
      Text.utf8ByteSize_spaces]
  · rw [blankedOut_of_ne_invalid isInvalid]

/-- Spaces for invalid characters leave the length of a text as it is. -/
theorem utf8ByteSize_texts_blankedOut (tokens : List Token) :
    (texts (tokens.map blankedOut)).utf8ByteSize =
      (texts tokens).utf8ByteSize := by
  induction tokens with
  | nil => rfl
  | cons token tokens hypothesis =>
      rw [List.map_cons, texts_cons, texts_cons,
        String.utf8ByteSize_append, String.utf8ByteSize_append,
        utf8ByteSize_text_blankedOut, hypothesis]

/-- Where a token does not reach the grammar, there are blanks. -/
theorem isBlank_of_mem_text_blankedOut
    {first : Char}
    {run : List Char}
    (continued :
      ∀ character ∈ run,
        (Kind.ofChar first).continuesWith character = true)
    (dropped : (Kind.ofChar first).isSignificant = false)
    (position : Nat) :
    ∀ character ∈
        (scanned (Kind.ofChar first) position
          (String.ofList (first :: run))).blankedOut.text.toList,
      Text.isBlank character = true := by
  by_cases isInvalid : Kind.ofChar first = .invalid
  · rw [text_blankedOut_of_invalid
      ((scanned_kind ..).trans isInvalid)]
    exact fun _ => Text.isBlank_of_mem_spaces
  · have white : Kind.ofChar first = .whitespace := by
      revert dropped isInvalid
      cases Kind.ofChar first <;> simp [Kind.isSignificant]
    rw [blankedOut_of_ne_invalid (by simpa using isInvalid),
      scanned_text, String.toList_ofList]
    exact isBlank_of_mem_run white continued

/-- Every other token keeps its text. -/
theorem text_blankedOut_of_significant
    {kind : Kind}
    (significant : kind.isSignificant = true)
    (position : Nat)
    (text : String) :
    (scanned kind position text).blankedOut.text = text := by
  have valid : (scanned kind position text).kind ≠ .invalid := by
    rw [scanned_kind]
    rintro rfl
    contradiction
  rw [blankedOut_of_ne_invalid valid, scanned_text]

variable
    {position : Nat}
    {text : List Char}
    {tokens : List Token}

/-- The text starts with the same character as before or with a blank. -/
theorem Tiling.head?_texts_blankedOut
    (tiling : Tiling position text tokens)
    {character : Char}
    (isFirst :
      character ∈ (texts (tokens.map blankedOut)).toList.head?) :
    character ∈ text.head? ∨ Text.isBlank character = true := by
  cases tiling with
  | nil => exact Or.inl isFirst
  | @cons _ first run rest tokens continued stops tiling =>
      rw [List.map_cons, texts_cons, String.toList_append] at isFirst
      cases significant : (Kind.ofChar first).isSignificant with
      | true =>
          rw [text_blankedOut_of_significant significant,
            String.toList_ofList] at isFirst
          exact Or.inl isFirst
      | false =>
          have blanks :=
            isBlank_of_mem_text_blankedOut continued significant
              position
          have nonempty :
              (scanned (Kind.ofChar first) position
                (String.ofList
                  (first :: run))).blankedOut.text.toList ≠ [] := by
            have positive := utf8ByteSize_ofList_cons_pos first run
            intro empty
            rw [String.toList_eq_nil_iff,
              ← String.utf8ByteSize_eq_zero_iff,
              utf8ByteSize_text_blankedOut, scanned_text] at empty
            exact Nat.ne_of_gt positive empty
          rw [List.head?_append_of_ne_nil _ nonempty] at isFirst
          exact Or.inr (blanks _ (List.mem_of_mem_head? isFirst))

/-- A token that stops where it did stops in front of a space, too. -/
theorem Tiling.stops_texts_blankedOut
    (tiling : Tiling position text tokens)
    {kind : Kind}
    (visible : kind ≠ .whitespace)
    (stops :
      ∀ character ∈ text.head?,
        kind.continuesWith character = false) :
    ∀ character ∈ (texts (tokens.map blankedOut)).toList.head?,
      kind.continuesWith character = false := by
  intro character isFirst
  rcases tiling.head?_texts_blankedOut isFirst with same | isBlank
  · exact stops character same
  · exact Kind.continuesWith_eq_false_of_isBlank visible isBlank

/--
With spaces for invalid characters, the tokens that reach the grammar are spread
over the text where they were before.
-/
theorem Tiling.spread_blankedOut
    (tiling : Tiling position text tokens) :
    Spread position (texts (tokens.map blankedOut)).toList
      (tokens.filter fun token => token.kind.isSignificant) := by
  induction tiling with
  | nil position => exact .nil position
  | @cons position first run rest tokens continued stops tiling
      hypothesis =>
      rw [List.map_cons, texts_cons, String.toList_append]
      cases significant : (Kind.ofChar first).isSignificant with
      | true =>
          have visible : Kind.ofChar first ≠ .whitespace := by
            intro white
            rw [white] at significant
            contradiction
          rw [text_blankedOut_of_significant significant,
            String.toList_ofList,
            List.filter_cons_of_pos (by simpa using significant)]
          exact
            .token visible continued
              (tiling.stops_texts_blankedOut visible stops) hypothesis
      | false =>
          rw [List.filter_cons_of_neg (by simp [significant])]
          apply Spread.skip
          · exact
              isBlank_of_mem_text_blankedOut continued significant
                position
          · rw [String.ofList_toList, utf8ByteSize_text_blankedOut,
              scanned_text]
            exact hypothesis

end Token

/-! ## Faults -/

/-- Whether a diagnostic is about a character that starts no token. -/
def Diagnostic.isInvalidCharacter : Diagnostic → Bool
  | .invalidCharacter _ _ => true
  | _ => false

/-- Everything stays in its place, and another text is quoted. -/
def Relocation.requoting (source : String) : Relocation :=
  { source, move := id }

namespace Token

/-- A token has the same fault in every text, if it reaches the grammar. -/
theorem lexicalFault?_of_significant
    (source other : String)
    (token : Token) :
    (if token.kind.isSignificant then
        token.lexicalFault? other
      else
        none) =
      ((token.lexicalFault? source).filter fun fault =>
        !fault.isInvalidCharacter).map
          (Relocation.requoting other).diagnostic := by
  unfold lexicalFault?
  cases token.kind with
  | number => cases token.value <;> rfl
  | invalid => cases token.text.toList.head? <;> rfl
  | _ => rfl

/--
The tokens that reach the grammar have the faults of all tokens other than
invalid characters.
-/
theorem filterMap_lexicalFault?_significant
    (source other : String)
    (tokens : List Token) :
    ((tokens.filter fun token =>
        token.kind.isSignificant).filterMap fun token =>
          token.lexicalFault? other) =
      ((tokens.filterMap fun token =>
        token.lexicalFault? source).filter fun fault =>
          !fault.isInvalidCharacter).map
            (Relocation.requoting other).diagnostic := by
  rw [List.filterMap_filter, List.filter_filterMap,
    List.map_filterMap]
  simp only [lexicalFault?_of_significant source other]

end Token

/-! ## Sources -/

/-- A source with spaces in place of its invalid characters. -/
def Scanner.blankedOut (source : String) : String :=
  Token.texts ((start source).drain.1.map Token.blankedOut)

variable (source : String)

theorem Scanner.utf8ByteSize_blankedOut :
    (blankedOut source).utf8ByteSize = source.utf8ByteSize := by
  have whole := (TokenBuffer.tiling_ofSource source).isMaximalMunch.whole
  rw [String.ofList_toList] at whole
  rw [blankedOut, Token.utf8ByteSize_texts_blankedOut, whole]

/-- The buffer of a source has only lost the complaints about characters. -/
theorem TokenBuffer.ofSource_blankedOut :
    ofSource (Scanner.blankedOut source) =
      { ofSource source with
        diagnostics :=
          ((ofSource source).diagnostics.filter fun fault =>
            !fault.isInvalidCharacter).map
              (Relocation.requoting
                (Scanner.blankedOut source)).diagnostic } := by
  have spread :
      Token.Spread 0 (Scanner.blankedOut source).toList
        ((Scanner.start source).drain.1.filter fun token =>
          token.kind.isSignificant) :=
    (tiling_ofSource source).spread_blankedOut
  have whole := diagnostics_ofSource source
  have faults :=
    Token.filterMap_lexicalFault?_significant source
      (Scanner.blankedOut source) (Scanner.start source).drain.1
  rw [ofSource_eq_of_spread spread, Scanner.utf8ByteSize_blankedOut,
    faults, whole, List.filter_filter]
  simp only [Bool.and_self]
  rfl

namespace SyntaxTree

/--
Invalid characters are like blanks to everything but their own diagnostics.
With spaces in their place a source has the same tree, the same faults that the
grammar finds, and the same literals without a value.  The diagnostics for these
quote the new text.
-/
theorem ofSource_reads_invalid_as_blank :
    (ofSource (Scanner.blankedOut source)).root =
        (ofSource source).root ∧
      (ofSource (Scanner.blankedOut source)).endOfFile =
        (ofSource source).endOfFile ∧
      ((ofSource (Scanner.blankedOut source)).diagnostics.filter
          fun fault => !fault.isLexical) =
        ((ofSource source).diagnostics.filter fun fault =>
          !fault.isLexical) ∧
      (ofSource (Scanner.blankedOut source)).diagnostics.filter
          Diagnostic.isLexical =
        (((ofSource source).diagnostics.filter
          Diagnostic.isLexical).filter fun fault =>
            !fault.isInvalidCharacter).map
              (Relocation.requoting
                (Scanner.blankedOut source)).diagnostic := by
  have blanked := TokenBuffer.ofSource_blankedOut source
  have silenced :
      (TokenBuffer.ofSource (Scanner.blankedOut source)).silenced =
        (TokenBuffer.ofSource source).silenced := by
    rw [blanked]
    rfl
  have read :=
    TokenBuffer.parseWithin_congr silenced (some maxNestingDepth)
  have roots := congrArg root read
  have endings := congrArg endOfFile read
  refine ⟨roots, endings, ?_, ?_⟩
  · rw [filter_not_isLexical_diagnostics,
      filter_not_isLexical_diagnostics]
    unfold TokenBuffer.syntacticFaults
    rw [silenced]
  · rw [filter_isLexical_diagnostics, filter_isLexical_diagnostics,
      blanked]

example : Scanner.blankedOut "1€2é+" = "1   2  +" := by
  cbv

end SyntaxTree

end Abacus
