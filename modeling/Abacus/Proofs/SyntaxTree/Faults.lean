import Abacus.Proofs.Grammar.Commutation
import Abacus.Proofs.Grammar.Faults
import Abacus.Proofs.SyntaxTree.Recovery
import Abacus.Proofs.Token.Faults

/-!
# Diagnostics of a tree

The diagnostics of a tree are those of the scanner and, behind them, those that
the grammar finds by itself.  Both parts are exact: the first one has a fault
for each faulty token of the line and for nothing else, and what the second one
says of a token is true of it.
-/

namespace Abacus

open Grammar

namespace TokenBuffer

variable
    {limit : Limit}
    {buffer : TokenBuffer}

/-! ## Faults of the grammar -/

/-- A buffer in which the scanner has found no faults. -/
def silenced (buffer : TokenBuffer) : TokenBuffer :=
  { buffer with diagnostics := [] }

/-- The faults that the grammar finds in a buffer. -/
def syntacticFaults
    (limit : Limit)
    (buffer : TokenBuffer) :
    List Diagnostic :=
  (buffer.silenced.parseWithin limit).diagnostics

/-- What the scanner found makes no difference to the tree and is put first. -/
theorem parseWithin_eq
    (limit : Limit)
    (buffer : TokenBuffer) :
    buffer.parseWithin limit =
      { buffer.silenced.parseWithin limit with
        diagnostics :=
          buffer.diagnostics ++ buffer.syntacticFaults limit } := by
  have start :
      Cursor.start buffer =
        (Cursor.start buffer.silenced).withEarlier
          buffer.diagnostics := rfl
  have read :
      read limit .term (.start buffer) =
        (read limit .term (.start buffer.silenced)).withEarlier
          buffer.diagnostics := by
    rw [start]
    exact (commutesWithSteps_withEarlier limit _).reading.1 _ _
  have closing :=
    (Grammar.read limit .term
      (.start buffer.silenced)).cursor.expect_withEarlier
        buffer.diagnostics .endOfFile
  unfold syntacticFaults parseWithin
  simp only [read, Parsed.withEarlier, closing,
    Cursor.diagnostics_withEarlier]

/-- Buffers with the same tokens are read alike. -/
theorem parseWithin_congr
    {other : TokenBuffer}
    (same : other.silenced = buffer.silenced)
    (limit : Limit) :
    other.parseWithin limit =
      { buffer.parseWithin limit with
        diagnostics :=
          other.diagnostics ++ buffer.syntacticFaults limit } := by
  have faults :
      other.syntacticFaults limit = buffer.syntacticFaults limit := by
    unfold syntacticFaults
    rw [same]
  rw [parseWithin_eq limit other, parseWithin_eq limit buffer, same,
    faults]

variable
    (scanned : buffer.IsScanned)
    (significant :
      ∀ token ∈ buffer.tokens, token.kind.isSignificant = true)
    (limit : Limit)

include scanned significant

/-- The invariant of a reading holds behind the term of a buffer. -/
theorem IsScanned.isSound_read :
    (read limit .term
        (.start buffer.silenced)).cursor.IsSound buffer
      Token.Kind.standIns := by
  apply (sound_reading scanned.ordered_tokens significant limit).1
  constructor
  case rest => exact List.suffix_refl _
  case sourceEnd => rfl
  case borneOut => exact fun _ member => (List.not_mem_nil member).elim
  case kinds => exact fun member => (List.not_mem_nil member).elim
  case ordered => exact List.Pairwise.nil
  case passed => exact fun _ member => (List.not_mem_nil member).elim

/-- It holds behind the end of file, too. -/
theorem IsScanned.isSound_closing :
    ((read limit .term
        (.start buffer.silenced)).cursor.expect
      .endOfFile).2.IsSound buffer
        (.endOfFile :: Token.Kind.standIns) := by
  have sound :=
    (scanned.isSound_read significant limit).mono
      (List.subset_cons_self .endOfFile _)
  have ended := ended_read limit .term (.start buffer.silenced)
  have known := sound.isSignificant_current significant
  apply sound.expect scanned.ordered_tokens (List.mem_cons_self ..)
  exact ended.mem_foundInstead known (by decide)

/-- What the grammar finds is borne out by the buffer. -/
theorem IsScanned.isBorneOut_of_mem_syntacticFaults
    {fault : Diagnostic}
    (member : fault ∈ buffer.syntacticFaults limit) :
    fault.IsBorneOut buffer := by
  apply (scanned.isSound_closing significant limit).borneOut
  exact List.mem_reverse.1 member

/-- Unexpected tokens are found in order. -/
theorem IsScanned.pairwise_position_syntacticFaults :
    ((buffer.syntacticFaults limit).filter
      Diagnostic.isUnexpectedToken).Pairwise
        fun earlier later => earlier.position ≤ later.position := by
  have ordered := (scanned.isSound_closing significant limit).ordered
  rw [← List.pairwise_reverse, ← List.filter_reverse] at ordered
  exact ordered

/-- The end of file is expected behind the term and nowhere else. -/
theorem IsScanned.exists_syntacticFaults_eq :
    ∃ inside closing,
      buffer.syntacticFaults limit = inside ++ closing ∧
        closing.length ≤ 1 ∧
          ∀ found position,
            .unexpectedToken found .endOfFile position ∉ inside := by
  let term := read limit .term (.start buffer.silenced)
  have inside :
      ∀ found position,
        .unexpectedToken found .endOfFile position ∉
          term.cursor.diagnostics := by
    intro found position member
    have sound := scanned.isSound_read significant limit
    have standIn := sound.kinds (List.mem_reverse.1 member)
    exact absurd standIn (by decide)
  rcases term.cursor.expect_cases .endOfFile with
    ⟨_, taken⟩ | ⟨_, absent⟩
  · refine ⟨_, [], ?_, Nat.zero_le 1, inside⟩
    rw [List.append_nil]
    exact congrArg (fun closed => closed.2.diagnostics) taken
  · have reported :=
      congrArg (fun closed => closed.2.diagnostics) absent
    rw [Cursor.diagnostics_report] at reported
    exact ⟨_, _, reported, Nat.le_refl 1, inside⟩

omit scanned significant

/-- Every token that reaches the grammar is of a kind that it knows. -/
theorem isSignificant_of_mem_tokens
    {source : String}
    {token : Token}
    (member : token ∈ (ofSource source).tokens) :
    token.kind.isSignificant = true :=
  (List.mem_filter.1 member).2

end TokenBuffer

/-- What can only be in the last place of a list is last. -/
theorem eq_nil_of_append_eq_append_cons
    {Entry : Type}
    {inside closing before after : List Entry}
    {entry : Entry}
    (split : inside ++ closing = before ++ entry :: after)
    (short : closing.length ≤ 1)
    (absent : entry ∉ inside) :
    after = [] := by
  apply List.eq_nil_of_length_eq_zero
  rcases List.append_eq_append_iff.1 split with
    ⟨between, rfl, rfl⟩ | ⟨between, rfl, same⟩
  · rw [List.length_append, List.length_cons] at short
    omega
  · cases between with
    | nil =>
        obtain rfl := same
        exact Nat.le_zero.1 (Nat.le_of_succ_le_succ short)
    | cons head between =>
        obtain ⟨rfl, -⟩ := List.cons.inj same
        exact (absent (by simp)).elim

namespace SyntaxTree

/-- What is known of the faults that the grammar finds in a buffer. -/
structure HasSoundFaults
    (buffer : TokenBuffer)
    (tree : SyntaxTree) :
    Prop where
  /--
  An unexpected token is one of the buffer or the end of file behind it, and it
  is of a kind that can be found instead of the expected one.
  -/
  unexpected :
    ∀ {found expected position},
      .unexpectedToken found expected position ∈ tree.diagnostics →
        found ∈ expected.foundInstead ∧
          ∃ token ∈
              buffer.tokens ++ [Token.endOfFile buffer.sourceEnd],
            token.kind = found ∧ token.position = position
  /-- Behind a missing end of file there are no diagnostics. -/
  last :
    ∀ {before after found position},
      tree.diagnostics =
          before ++
            .unexpectedToken found .endOfFile position :: after →
        after = []
  ordered :
    (tree.diagnostics.filter Diagnostic.isUnexpectedToken).Pairwise
      fun earlier later => earlier.position ≤ later.position
  /-- The nesting limit is crossed at a parenthesis or at an operator. -/
  nested :
    ∀ {limit position},
      .nestingTooDeep limit position ∈ tree.diagnostics →
        ∃ token ∈ buffer.tokens,
          token.kind ∈ Token.Kind.nesting ∧ token.position = position

/-- The diagnostics of a tree are the lexical ones and then the others. -/
theorem diagnostics_ofSource (source : String) :
    (ofSource source).diagnostics =
      (TokenBuffer.ofSource source).diagnostics ++
        (TokenBuffer.ofSource source).syntacticFaults
          (some maxNestingDepth) :=
  congrArg diagnostics (TokenBuffer.parseWithin_eq _ _)

/-- What the grammar finds in a source is borne out by its tokens. -/
theorem isBorneOut_of_mem_syntacticFaults
    {source : String}
    {fault : Diagnostic}
    (member :
      fault ∈
        (TokenBuffer.ofSource source).syntacticFaults
          (some maxNestingDepth)) :
    fault.IsBorneOut (TokenBuffer.ofSource source) :=
  (TokenBuffer.isScanned_ofSource source
    ).isBorneOut_of_mem_syntacticFaults
      (fun _ => TokenBuffer.isSignificant_of_mem_tokens) _ member

/-- None of the faults that the grammar finds is lexical. -/
theorem isLexical_eq_false_of_mem_syntacticFaults
    {source : String}
    {fault : Diagnostic}
    (member :
      fault ∈
        (TokenBuffer.ofSource source).syntacticFaults
          (some maxNestingDepth)) :
    fault.isLexical = false :=
  (isBorneOut_of_mem_syntacticFaults member).isLexical_eq_false

/-- The lexical faults of a tree are those of its buffer. -/
theorem filter_isLexical_diagnostics (source : String) :
    (ofSource source).diagnostics.filter Diagnostic.isLexical =
      (TokenBuffer.ofSource source).diagnostics := by
  rw [diagnostics_ofSource]
  apply Diagnostic.filter_isLexical_append
  · exact fun _ => TokenBuffer.isLexical_of_mem_diagnostics
  · exact fun _ => isLexical_eq_false_of_mem_syntacticFaults

/-- The others are those that the grammar finds. -/
theorem filter_not_isLexical_diagnostics (source : String) :
    ((ofSource source).diagnostics.filter fun fault =>
        !fault.isLexical) =
      (TokenBuffer.ofSource source).syntacticFaults
        (some maxNestingDepth) := by
  rw [diagnostics_ofSource]
  apply Diagnostic.filter_not_isLexical_append
  · exact fun _ => TokenBuffer.isLexical_of_mem_diagnostics
  · exact fun _ => isLexical_eq_false_of_mem_syntacticFaults

/--
Sources differ in nothing but the lexical faults of their trees, if they are read
alike with these faults left out.
-/
theorem sameSyntax_of_silenced_eq
    {source other : String}
    (same :
      (TokenBuffer.ofSource other).silenced.parseWithin
          (some maxNestingDepth) =
        (TokenBuffer.ofSource source).silenced.parseWithin
          (some maxNestingDepth)) :
    (ofSource other).root = (ofSource source).root ∧
      (ofSource other).endOfFile = (ofSource source).endOfFile ∧
      ((ofSource other).diagnostics.filter fun fault =>
          !fault.isLexical) =
        ((ofSource source).diagnostics.filter fun fault =>
          !fault.isLexical) := by
  have read (text : String) :=
    TokenBuffer.parseWithin_eq (some maxNestingDepth)
      (TokenBuffer.ofSource text)
  have roots (text : String) := congrArg root (read text)
  have endings (text : String) := congrArg endOfFile (read text)
  refine ⟨?_, ?_, ?_⟩
  · exact
      (roots other).trans ((congrArg root same).trans (roots source).symm)
  · exact
      (endings other).trans
        ((congrArg endOfFile same).trans (endings source).symm)
  · rw [filter_not_isLexical_diagnostics,
      filter_not_isLexical_diagnostics]
    exact congrArg diagnostics same

/-- A fault of a tree that is not lexical is borne out by the tokens. -/
theorem isBorneOut_of_mem_diagnostics
    {source : String}
    {fault : Diagnostic}
    (member : fault ∈ (ofSource source).diagnostics)
    (syntactic : fault.isLexical = false) :
    fault.IsBorneOut (TokenBuffer.ofSource source) := by
  rw [diagnostics_ofSource] at member
  rcases List.mem_append.1 member with lexical | found
  · rw [TokenBuffer.isLexical_of_mem_diagnostics lexical] at syntactic
    contradiction
  · exact isBorneOut_of_mem_syntacticFaults found

/--
What the grammar says of the tokens of a line is true of them.  Only certain
kinds are found in place of others, the end of file is missing at most once and
behind all other faults, and the unexpected tokens are found in order.
-/
theorem ofSource_hasSoundFaults (source : String) :
    (ofSource source).HasSoundFaults
      (TokenBuffer.ofSource source) := by
  have scanned := TokenBuffer.isScanned_ofSource source
  have significant :
      ∀ token ∈ (TokenBuffer.ofSource source).tokens,
        token.kind.isSignificant = true :=
    fun _ => TokenBuffer.isSignificant_of_mem_tokens
  constructor
  case unexpected =>
    intro found expected position member
    cases isBorneOut_of_mem_diagnostics member rfl with
    | @unexpectedToken token _ inside instead =>
        exact ⟨instead, token, inside, rfl, rfl⟩
  case last =>
    intro before after found position split
    rcases scanned.exists_syntacticFaults_eq significant
        (some maxNestingDepth) with
      ⟨inside, closing, whole, short, absent⟩
    rw [diagnostics_ofSource, whole, ← List.append_assoc] at split
    apply eq_nil_of_append_eq_append_cons split short
    intro member
    rcases List.mem_append.1 member with lexical | syntactic
    · have isLexical :=
        TokenBuffer.isLexical_of_mem_diagnostics lexical
      contradiction
    · exact absent found position syntactic
  case ordered =>
    have silent :
        (TokenBuffer.ofSource source).diagnostics.filter
            Diagnostic.isUnexpectedToken = [] := by
      apply List.filter_eq_nil_iff.2
      intro fault member
      have isLexical := TokenBuffer.isLexical_of_mem_diagnostics member
      cases fault <;> simp_all [Diagnostic.isUnexpectedToken,
        Diagnostic.isLexical]
    rw [diagnostics_ofSource, List.filter_append, silent,
      List.nil_append]
    exact scanned.pairwise_position_syntacticFaults significant _
  case nested =>
    intro limit position member
    cases isBorneOut_of_mem_diagnostics member rfl with
    | @nestingTooDeep token _ inside nests =>
        exact ⟨token, inside, nests, rfl⟩

example :
    (ofSource "(1 2)").diagnostics =
      [.unexpectedToken .number .closeParen 3,
        .unexpectedToken .number .endOfFile 3] := by
  cbv

end SyntaxTree

/-! ## Faults of the scanner -/

/--
What is known of the tokens that a scanner gives for a source and of the faults
that it notes with them.
-/
structure Scanner.HasExactFaults
    (source : String)
    (given : List Token)
    (faults : List Diagnostic) :
    Prop where
  /-- There is one fault for each faulty token, in their order. -/
  reported :
    List.Forall₂ (Token.IsReportedBy source)
      (given.filter fun token => token.IsFaulty) faults
  ordered :
    faults.Pairwise
      fun earlier later => earlier.position < later.position
  /-- A number has the word as its value that its digits denote. -/
  value_eq_some :
    ∀ token ∈ given,
      token.kind = .number →
        ∀ word,
          token.value = some word ↔
            word.toInt = Literal.decimal token.text.toList
  /-- It has none if they denote more than the greatest word. -/
  value_eq_none :
    ∀ token ∈ given,
      token.kind = .number →
        (token.value = none ↔
          Word.greatest < Literal.decimal token.text.toList)

/-- After any number of calls the scanner has noted what it should. -/
theorem Scanner.hasExactFaults_nextTokens
    (source : String)
    (count : Nat) :
    HasExactFaults source
      ((start source).nextTokens count).1
      ((start source).nextTokens count).2.diagnostics := by
  have tiling := TokenBuffer.tiling_ofSource source
  have valued :
      ∀ token ∈ ((start source).nextTokens count).1,
        token.IsValued := by
    intro token given
    rcases mem_drain_or_eq_endOfFile given with member | ⟨_, rfl⟩
    · exact tiling.isValued member
    · exact fun isNumber => Token.Kind.noConfusion isNumber
  have faults := diagnostics_nextTokens count (start source)
  constructor
  case reported =>
    rw [faults]
    apply Token.forall₂_filterMap_lexicalFault?
    intro token given
    rcases mem_drain_or_eq_endOfFile given with member | ⟨_, rfl⟩
    · have classified := tiling.isMaximalMunch.classified _ member
      exact
        Token.lexicalFault?_cases classified (valued token given) source
    · exact Or.inl ⟨by simp [Token.IsFaulty, endOfFile], rfl⟩
  case ordered =>
    rw [faults, filterMap_lexicalFault?_nextTokens]
    apply Token.pairwise_filterMap_lexicalFault?
    exact tiling.pairwise_position.sublist (List.take_sublist ..)
  case value_eq_some =>
    intro token given isNumber word
    exact (valued token given).value_eq_some_iff isNumber word
  case value_eq_none =>
    intro token given isNumber
    exact (valued token given).value_eq_none_iff isNumber

/-- A scanner that has given the end of file has given all the tokens. -/
theorem Scanner.length_drain_le_of_endOfFile
    {source : String}
    {count : Nat}
    (ended :
      ∃ token ∈ ((start source).nextTokens count).1,
        token.kind = .endOfFile) :
    (start source).drain.1.length ≤ count := by
  rcases ended with ⟨token, given, isEnd⟩
  rcases mem_drain_or_eq_endOfFile given with member | ⟨behind, -⟩
  · have tiling := TokenBuffer.tiling_ofSource source
    exact absurd isEnd (tiling.kind_ne_endOfFile member)
  · exact Nat.le_of_lt behind

/-- One call more than there are characters gives the end of file. -/
theorem Scanner.exists_endOfFile (source : String) :
    ∃ token ∈ ((start source).nextTokens (source.length + 1)).1,
      token.kind = .endOfFile := by
  have short := (TokenBuffer.tiling_ofSource source).length_le
  rw [String.length_toList] at short
  refine ⟨(start source).endOfFile, ?_, rfl⟩
  rw [nextTokens_eq_take_append]
  apply List.mem_append_right
  apply List.mem_replicate.2
  exact ⟨by omega, rfl⟩

/--
However often the scanner is asked, its faults are the faulty ones among the
tokens that it gave, and the numbers among them have the values that their
digits denote.  Once the end of file is given, which takes no more than one call
for each character and another one, the faults are those that the tree of the
source starts with.  Behind them there are no lexical ones.
-/
theorem SyntaxTree.ofSource_starts_with_exactFaults
    (source : String) :
    (∀ count,
        Scanner.HasExactFaults source
          ((Scanner.start source).nextTokens count).1
          ((Scanner.start source).nextTokens count).2.diagnostics) ∧
      (∃ token ∈
          ((Scanner.start source).nextTokens (source.length + 1)).1,
        token.kind = .endOfFile) ∧
        ∀ count,
          (∃ token ∈ ((Scanner.start source).nextTokens count).1,
              token.kind = .endOfFile) →
            ∃ syntactic,
              (ofSource source).diagnostics =
                  ((Scanner.start source).nextTokens
                    count).2.diagnostics ++ syntactic ∧
                ∀ fault ∈ syntactic, fault.isLexical = false := by
  refine
    ⟨Scanner.hasExactFaults_nextTokens source,
      Scanner.exists_endOfFile source, ?_⟩
  intro count ended
  have whole :=
    Scanner.diagnostics_nextTokens_of_length_le
      (Scanner.length_drain_le_of_endOfFile ended)
  refine
    ⟨(TokenBuffer.ofSource source).syntacticFaults
      (some maxNestingDepth), ?_, ?_⟩
  · rw [whole]
    exact diagnostics_ofSource source
  · exact fun _ => isLexical_eq_false_of_mem_syntacticFaults

end Abacus
