import Abacus.Proofs.Grammar.Recognition
import Abacus.Proofs.SyntaxTree.NestingLimit
import Abacus.Proofs.Token.Spelling

/-!
# Accepted lines

A line is accepted if its tree has no diagnostics.  Such a line is well spelled
and a sentence of the grammar, and its expression nests within the limit; every
such line is accepted.  The tree of an accepted line is the only expression
that has the line's tokens.

Reading without a limit carries the argument.  Its faultless trees are the
expressions with all tokens of the buffer, and the reading under the limit is
the same as long as nothing nests too deeply.
-/

namespace Abacus

namespace TokenBuffer

open Grammar

variable {buffer : TokenBuffer}

theorem precedes_finish
    (limit : Limit)
    (buffer : TokenBuffer) :
    (Cursor.start buffer).Precedes (buffer.finish limit) :=
  (follows_read limit .term (.start buffer)).precedes.trans
    (Cursor.precedes_expect _ .endOfFile)

/-- A tree keeps the diagnostics of its buffer. -/
theorem diagnostics_eq_nil_of_parseWithin
    {limit : Limit}
    (accepted : (buffer.parseWithin limit).diagnostics = []) :
    buffer.diagnostics = [] := by
  rw [diagnostics_parseWithin, List.reverse_eq_nil_iff] at accepted
  have kept := (buffer.precedes_finish limit).faults
  rw [accepted, List.suffix_nil] at kept
  exact List.reverse_eq_nil_iff.1 kept

/-- Only past its last token is a cursor at the end of file. -/
theorem rest_eq_nil_of_kind_eq_endOfFile
    {cursor : Cursor}
    (unfinished :
      ∀ token ∈ cursor.rest, token.kind ≠ .endOfFile)
    (finished : cursor.current.kind = .endOfFile) :
    cursor.rest = [] := by
  unfold Cursor.current at finished
  match shape : cursor.rest with
  | [] => rfl
  | token :: others =>
      rw [shape] at unfinished finished
      exact
        (unfinished token (List.mem_cons_self ..) finished).elim

/-- A faultless unlimited tree has all the tokens of the buffer. -/
theorem tokens_root_of_accepted
    (unfinished :
      ∀ token ∈ buffer.tokens, token.kind ≠ .endOfFile)
    (accepted : (buffer.parseWithin none).diagnostics = []) :
    (buffer.parseWithin none).root.tokens = buffer.tokens ∧
      (buffer.parseWithin none).endOfFile =
        Token.endOfFile buffer.sourceEnd := by
  have lexical := diagnostics_eq_nil_of_parseWithin accepted
  have start : (Cursor.start buffer).faults = [] :=
    List.reverse_eq_nil_iff.2 lexical
  rw [diagnostics_parseWithin, List.reverse_eq_nil_iff, ← start]
    at accepted
  have followed := follows_read none .term (.start buffer)
  obtain ⟨readSame, closingSame⟩ :=
    followed.precedes.faults_eq (Cursor.precedes_expect _ .endOfFile)
      accepted
  have taken := tokens_of_faults_eq.1 .term (.start buffer) readSame
  rcases Cursor.expect_of_faults_eq closingSame with ⟨finished, closing⟩
  have exhausted :
      (read none .term (.start buffer)).cursor.rest = [] := by
    refine rest_eq_nil_of_kind_eq_endOfFile ?_ finished
    intro token member
    exact
      unfinished token (followed.precedes.rest.subset member)
  rw [exhausted, List.append_nil] at taken
  refine ⟨taken.symm, ?_⟩
  have last := congrArg Prod.fst closing
  rw [Cursor.current_of_rest_eq_nil exhausted,
    followed.precedes.sourceEnd] at last
  exact last

/-- The unlimited tree of the tokens of an expression is that expression. -/
theorem parseWithin_none_eq
    {expression : Expression}
    (ranked : expression.HasRank .term)
    (same : expression.tokens = buffer.tokens) :
    buffer.parseWithin none =
      { diagnostics := buffer.diagnostics
        root := expression
        endOfFile := Token.endOfFile buffer.sourceEnd } := by
  have whole :=
    @read_term_eq_upTo_nil expression ranked (.start buffer) same.symm
  unfold parseWithin
  rw [whole]
  simp [Parsed.upTo, Cursor.moveTo, Cursor.expect, Cursor.current,
    Cursor.advance, Cursor.diagnostics, Cursor.start]

/-- Under a limit it is that expression, too, if it nests within the limit. -/
theorem parseWithin_some_eq
    {bound : Nat}
    {expression : Expression}
    (ranked : expression.HasRank .term)
    (nests : expression.NestsWithin bound 0)
    (same : expression.tokens = buffer.tokens) :
    buffer.parseWithin (some bound) =
      { diagnostics := buffer.diagnostics
        root := expression
        endOfFile := Token.endOfFile buffer.sourceEnd } := by
  have unlimited := parseWithin_none_eq ranked same
  have shallow : (buffer.parseWithin none).root.NestsWithin bound 0 := by
    rw [unlimited]
    exact nests
  have limited :=
    parseWithin_eq_of_crossings_eq_nil
      (crossings_eq_nil_of_nestsWithin shallow)
  exact limited.1.trans unlimited

theorem hasRank_root
    (limit : Limit)
    (buffer : TokenBuffer) :
    (buffer.parseWithin limit).root.HasRank .term :=
  hasRank_read limit .term (.start buffer)

/-- A faultless tree is that of a reading without a limit, and it is shallow. -/
theorem parseWithin_eq_of_accepted
    {bound : Nat}
    (accepted : (buffer.parseWithin (some bound)).diagnostics = []) :
    buffer.parseWithin (some bound) = buffer.parseWithin none ∧
      (buffer.parseWithin none).root.NestsWithin bound 0 := by
  have lexical := diagnostics_eq_nil_of_parseWithin accepted
  have unreported :
      buffer.diagnostics.countP Diagnostic.isNestingTooDeep = 0 := by
    rw [lexical, List.countP_nil]
  refine parseWithin_eq_of_crossings_eq_nil ?_
  refine Classical.byContradiction fun crossed => ?_
  rcases (reportsNesting_iff unreported (some bound)).2 crossed with
    ⟨fault, member, _⟩
  rw [accepted] at member
  contradiction

/-- A faultless tree is the expression that has all the tokens of the buffer. -/
theorem root_of_accepted
    {bound : Nat}
    (unfinished :
      ∀ token ∈ buffer.tokens, token.kind ≠ .endOfFile)
    (accepted : (buffer.parseWithin (some bound)).diagnostics = []) :
    (buffer.parseWithin (some bound)).root.tokens = buffer.tokens ∧
      (buffer.parseWithin (some bound)).root.NestsWithin bound 0 ∧
        (buffer.parseWithin (some bound)).endOfFile =
          Token.endOfFile buffer.sourceEnd := by
  rcases parseWithin_eq_of_accepted accepted with ⟨same, nests⟩
  rw [same] at accepted ⊢
  rcases tokens_root_of_accepted unfinished accepted with ⟨tokens, closing⟩
  exact ⟨tokens, nests, closing⟩

/--
A buffer without lexical faults is accepted exactly if its tokens are a
sentence of the grammar whose expression nests within the bound.
-/
theorem accepted_iff
    {bound : Nat}
    (unfinished :
      ∀ token ∈ buffer.tokens, token.kind ≠ .endOfFile)
    (lexical : buffer.diagnostics = []) :
    (buffer.parseWithin (some bound)).diagnostics = [] ↔
      Sentence .term buffer.tokens ∧
        ∀ expression : Expression,
          expression.HasRank .term →
            expression.tokens = buffer.tokens →
              expression.NestsWithin bound 0 := by
  constructor
  · intro accepted
    have ranked := hasRank_root (some bound) buffer
    rcases root_of_accepted unfinished accepted with ⟨tokens, nests, _⟩
    constructor
    · exact sentence_iff_exists_hasRank.2 ⟨_, ranked, tokens⟩
    · intro expression otherRanked same
      rw [eq_of_hasRank_of_tokens_eq otherRanked ranked
        (same.trans tokens.symm)]
      exact nests
  · rintro ⟨sentence, shallow⟩
    rcases sentence_iff_exists_hasRank.1 sentence with
      ⟨expression, ranked, same⟩
    rw [parseWithin_some_eq ranked (shallow expression ranked same) same]
    exact lexical

/-- The tokens of a source, other than blanks. -/
def nonBlankTokens (source : String) : List Token :=
  (Scanner.start source).drain.1.filter fun token =>
    token.kind ≠ .whitespace

/-- Without lexical faults, only blanks are left out of a buffer. -/
theorem tokens_ofSource
    {source : String}
    (lexical : (ofSource source).diagnostics = []) :
    (ofSource source).tokens = nonBlankTokens source := by
  rw [diagnostics_ofSource, List.filterMap_eq_nil_iff] at lexical
  refine List.filter_congr fun token member => ?_
  have faultless := lexical token member
  rcases (tiling_ofSource source).exists_of_mem member with
    ⟨before, first, others, after, -, -, shape⟩
  have valid : token.kind ≠ .invalid := by
    intro invalid
    rw [shape, Token.scanned_kind] at invalid
    rw [shape, invalid] at faultless
    exact
      Token.lexicalFault?_scanned_invalid_ne_none (by simp) faultless
  revert valid
  cases token.kind <;> simp [Token.Kind.isSignificant]

end TokenBuffer

theorem SyntaxTree.hasRank_root (source : String) :
    (ofSource source).root.HasRank .term :=
  TokenBuffer.hasRank_root (some maxNestingDepth)
    (TokenBuffer.ofSource source)

open Grammar in
/--
Exactly those lines have no diagnostics that are well spelled, whose tokens
other than blanks are a sentence of the grammar, and whose expression nests
within the limit.  The tree of such a line is the only expression with these
tokens, and it ends where the source does.
-/
theorem SyntaxTree.ofSource_accepts_grammar (source : String) :
    ((ofSource source).diagnostics = [] ↔
        Text.IsSpelled source.toList ∧
          Sentence .term (TokenBuffer.nonBlankTokens source) ∧
          ∀ derivation : Expression,
            derivation.HasRank .term →
              derivation.tokens =
                  TokenBuffer.nonBlankTokens source →
                derivation.NestsWithin maxNestingDepth 0) ∧
      ((ofSource source).diagnostics = [] →
        (ofSource source).root.HasRank .term ∧
          (ofSource source).root.tokens =
            TokenBuffer.nonBlankTokens source ∧
          (∀ other : Expression,
            other.HasRank .term →
              other.tokens = TokenBuffer.nonBlankTokens source →
                other = (ofSource source).root) ∧
          (ofSource source).endOfFile =
            Token.endOfFile source.utf8ByteSize) := by
  have unfinished :
      ∀ token ∈ (TokenBuffer.ofSource source).tokens,
        token.kind ≠ .endOfFile :=
    fun token member => TokenBuffer.kind_ne_endOfFile member
  constructor
  · constructor
    · intro accepted
      have lexical :=
        TokenBuffer.diagnostics_eq_nil_of_parseWithin accepted
      rw [← TokenBuffer.tokens_ofSource lexical]
      exact
        ⟨(TokenBuffer.diagnostics_eq_nil_iff source).1 lexical,
          (TokenBuffer.accepted_iff unfinished lexical).1 accepted⟩
    · rintro ⟨spelled, derived⟩
      have lexical :=
        (TokenBuffer.diagnostics_eq_nil_iff source).2 spelled
      rw [← TokenBuffer.tokens_ofSource lexical] at derived
      exact (TokenBuffer.accepted_iff unfinished lexical).2 derived
  · intro accepted
    have lexical :=
      TokenBuffer.diagnostics_eq_nil_of_parseWithin accepted
    have ranked := hasRank_root source
    rcases TokenBuffer.root_of_accepted unfinished accepted with
      ⟨tokens, _, closing⟩
    rw [← TokenBuffer.tokens_ofSource lexical]
    refine ⟨ranked, tokens, ?_, closing⟩
    intro other otherRanked same
    exact
      eq_of_hasRank_of_tokens_eq otherRanked ranked
        (same.trans tokens.symm)

example :
    (SyntaxTree.ofSource "(1 + 2) * 3").diagnostics = [] := by
  cbv

end Abacus
