import Abacus.Proofs.Grammar.Emission
import Abacus.Proofs.SyntaxTree.Acceptance
import Abacus.Proofs.Token.Position

/-!
# What a tree keeps of its line

A tree with faults is a tree nevertheless, and it still accounts for its line.
As long as the nesting limit is not reported, it has the tokens of the line from
the first one up to some place, and all that it says about the rest is said by
diagnostics: there is one for each missing token, in the order of the tree and
at the position of the token that was found instead.

Under the limit tokens get lost, but none is invented and none is moved.
-/

namespace Abacus

open Grammar

/--
The byte offset of a token of a buffer, counted from zero, or behind the last
one that of the end of the source.
-/
def TokenBuffer.positionAt (buffer : TokenBuffer) (index : Nat) : Nat :=
  match buffer.tokens[index]? with
  | some token => token.position
  | none => buffer.sourceEnd

/--
How a tree accounts for its buffer if so many tokens of the buffer, from the
first one on, are in the tree.
-/
structure SyntaxTree.AccountsFor
    (buffer : TokenBuffer)
    (taken : Nat)
    (tree : SyntaxTree) :
    Prop where
  /-- There are so many tokens. -/
  taken_le : taken ≤ buffer.tokens.length
  /-- The tokens that are not missing are the first ones of the buffer. -/
  present :
    tree.root.tokens.filter Token.isPresent =
      buffer.tokens.take taken
  /-- The end of file is found behind the last token and nowhere else. -/
  ending :
    tree.endOfFile =
      if taken = buffer.tokens.length then
        Token.endOfFile buffer.sourceEnd
      else
        Token.missing .endOfFile (buffer.positionAt taken)
  /-- A missing token is where the next token is. -/
  placed :
    ∀ before token after,
      tree.root.tokens = before ++ token :: after →
        token.isMissing = true →
          token.position =
            buffer.positionAt (before.filter Token.isPresent).length
  /-- Missing tokens are what the diagnostics of the grammar are about. -/
  reported :
    (tree.diagnostics.filter fun fault => !fault.isLexical).map
        Diagnostic.absentToken? =
      ((tree.root.tokens ++ [tree.endOfFile]).filter
        Token.isMissing).map some

theorem Diagnostic.isLexical_eq_false_of_absentToken?
    {fault : Diagnostic}
    {token : Token}
    (about : fault.absentToken? = some token) :
    fault.isLexical = false := by
  cases fault with
  | unexpectedToken actual expected position => rfl
  | _ => contradiction

/-- Faults that are about missing tokens are not lexical. -/
theorem Diagnostic.isLexical_eq_false_of_map_absentToken?
    {faults : List Diagnostic}
    {tokens : List Token}
    (about : faults.map Diagnostic.absentToken? = tokens.map some) :
    ∀ fault ∈ faults, fault.isLexical = false := by
  intro fault member
  have image : fault.absentToken? ∈ tokens.map some := by
    rw [← about]
    exact List.mem_map_of_mem member
  rcases List.mem_map.1 image with ⟨token, -, same⟩
  exact isLexical_eq_false_of_absentToken? same.symm

section LexicalFirst

variable
    {lexical syntactic : List Diagnostic}
    (isLexical : ∀ fault ∈ lexical, fault.isLexical = true)
    (isSyntactic : ∀ fault ∈ syntactic, fault.isLexical = false)

include isLexical isSyntactic

/-- The lexical faults are those in front of the faults of the grammar. -/
theorem Diagnostic.filter_isLexical_append :
    (lexical ++ syntactic).filter Diagnostic.isLexical = lexical := by
  have none : syntactic.filter Diagnostic.isLexical = [] := by
    apply List.filter_eq_nil_iff.2
    intro fault member
    simp [isSyntactic fault member]
  rw [List.filter_append, none, List.append_nil]
  exact List.filter_eq_self.2 isLexical

/-- The faults of the grammar are those behind the lexical ones. -/
theorem Diagnostic.filter_not_isLexical_append :
    ((lexical ++ syntactic).filter fun fault => !fault.isLexical) =
      syntactic := by
  have none :
      (lexical.filter fun fault => !fault.isLexical) = [] := by
    apply List.filter_eq_nil_iff.2
    intro fault member
    simp [isLexical fault member]
  rw [List.filter_append, none, List.nil_append]
  apply List.filter_eq_self.2
  intro fault member
  rw [isSyntactic fault member]
  rfl

end LexicalFirst

/-- The end of file is found where no token is left, and else it is missing. -/
theorem Grammar.Cursor.exists_expect_endOfFile
    {cursor : Cursor}
    (unfinished :
      ∀ token ∈ cursor.rest, token.kind ≠ .endOfFile) :
    (cursor.expect .endOfFile).1 =
        (if cursor.rest = [] then
          Token.endOfFile cursor.sourceEnd
        else
          Token.missing .endOfFile
            (nextToken cursor.sourceEnd cursor.rest).position) ∧
      ∃ closing,
        (cursor.expect .endOfFile).2.diagnostics =
            cursor.diagnostics ++ closing ∧
          closing.map Diagnostic.absentToken? =
            ([(cursor.expect .endOfFile).1].filter
              Token.isMissing).map some := by
  rw [← cursor.current_eq_nextToken]
  rcases cursor.expect_cases .endOfFile with
    ⟨found, taken⟩ | ⟨other, absent⟩
  · have finished :=
      TokenBuffer.rest_eq_nil_of_kind_eq_endOfFile unfinished found
    rw [taken, if_pos finished,
      Cursor.current_of_rest_eq_nil finished]
    exact ⟨rfl, [], by simp, rfl⟩
  · have unread : cursor.rest ≠ [] := by
      intro finished
      rw [Cursor.current_of_rest_eq_nil finished] at other
      exact other rfl
    rw [absent, if_neg unread]
    exact ⟨rfl, _, cursor.diagnostics_report _, rfl⟩

namespace TokenBuffer

/-- What a buffer is like that was scanned from a source. -/
structure IsScanned (buffer : TokenBuffer) : Prop where
  found : ∀ token ∈ buffer.tokens, token.isMissing = false
  unfinished : ∀ token ∈ buffer.tokens, token.kind ≠ .endOfFile
  lexical : ∀ fault ∈ buffer.diagnostics, fault.isLexical = true
  ordered :
    buffer.tokens.Pairwise
      fun earlier later => earlier.position < later.position
  inside : ∀ token ∈ buffer.tokens, token.position < buffer.sourceEnd

theorem isScanned_ofSource (source : String) :
    (ofSource source).IsScanned where
  found := fun _ member => isMissing_eq_false member
  unfinished := fun _ member => kind_ne_endOfFile member
  lexical := fun _ member => isLexical_of_mem_diagnostics member
  ordered := pairwise_position source
  inside := fun _ member => position_lt_sourceEnd member

variable {buffer : TokenBuffer}

theorem IsScanned.isPresent
    (scanned : buffer.IsScanned)
    {token : Token}
    (member : token ∈ buffer.tokens) :
    token.isPresent = true := by
  rw [Token.isPresent, scanned.found token member]
  rfl

theorem IsScanned.ordered_tokens
    (scanned : buffer.IsScanned) :
    Emission.Ordered buffer.sourceEnd buffer.tokens := by
  refine List.pairwise_append.2 ⟨?_, List.pairwise_singleton .., ?_⟩
  · exact scanned.ordered.imp Nat.le_of_lt
  · intro token member last isLast
    rw [List.mem_singleton.1 isLast]
    exact Nat.le_of_lt (scanned.inside token member)

theorem position_nextToken_drop
    (buffer : TokenBuffer)
    (index : Nat) :
    (nextToken buffer.sourceEnd
        (buffer.tokens.drop index)).position =
      buffer.positionAt index := by
  unfold positionAt
  rw [← List.head?_drop]
  cases buffer.tokens.drop index <;> rfl

/-! ## Without a limit -/

/-- The tokens of a buffer that its tree without a limit has. -/
def takenTokens (buffer : TokenBuffer) : List Token :=
  (buffer.parseWithin none).root.tokens.filter Token.isPresent

/-- The tokens of a buffer that its tree without a limit leaves over. -/
def leftTokens (buffer : TokenBuffer) : List Token :=
  (read none .term (.start buffer)).cursor.rest

theorem IsScanned.takenTokens_append_leftTokens
    (scanned : buffer.IsScanned) :
    buffer.takenTokens ++ buffer.leftTokens = buffer.tokens := by
  rcases emits_read none .term (.start buffer) with
    ⟨-, faults, -, emission⟩
  exact (emission.source_eq fun _ => scanned.isPresent).symm

theorem IsScanned.exists_expect_endOfFile
    (scanned : buffer.IsScanned) :
    (buffer.parseWithin none).endOfFile =
        (if buffer.leftTokens = [] then
          Token.endOfFile buffer.sourceEnd
        else
          Token.missing .endOfFile
            (nextToken buffer.sourceEnd buffer.leftTokens).position) ∧
      ∃ closing,
        (buffer.parseWithin none).diagnostics =
            (read none .term (.start buffer)).cursor.diagnostics ++
              closing ∧
          closing.map Diagnostic.absentToken? =
            ([(buffer.parseWithin none).endOfFile].filter
              Token.isMissing).map some := by
  have sameEnd := (emits_read none .term (.start buffer)).sourceEnd
  have closed :=
    @Cursor.exists_expect_endOfFile
      (read none .term (.start buffer)).cursor (by
        intro token member
        refine scanned.unfinished token ?_
        rw [← scanned.takenTokens_append_leftTokens]
        exact List.mem_append_right _ member)
  rw [sameEnd] at closed
  exact closed

/-- Behind the lexical faults there is one for each missing token. -/
theorem IsScanned.exists_diagnostics_eq
    (scanned : buffer.IsScanned) :
    ∃ faults,
      (buffer.parseWithin none).diagnostics =
          buffer.diagnostics ++ faults ∧
        faults.map Diagnostic.absentToken? =
          (((buffer.parseWithin none).root.tokens ++
            [(buffer.parseWithin none).endOfFile]).filter
              Token.isMissing).map some := by
  rcases emits_read none .term (.start buffer) with
    ⟨-, faults, reported, emission⟩
  rcases scanned.exists_expect_endOfFile with
    ⟨-, closing, closed, closingAbout⟩
  have about :=
    emission.map_absentToken? fun _ => scanned.isPresent
  refine ⟨faults ++ closing, ?_, ?_⟩
  · rw [closed, reported, Cursor.diagnostics_start,
      List.append_assoc]
  · rw [List.map_append, List.filter_append, List.map_append, about,
      closingAbout]
    rfl

/-- Without a limit, a tree accounts for all tokens of its buffer. -/
theorem IsScanned.accountsFor
    (scanned : buffer.IsScanned) :
    (buffer.parseWithin none).AccountsFor buffer
      buffer.takenTokens.length where
  taken_le := by
    rw [← scanned.takenTokens_append_leftTokens, List.length_append]
    exact Nat.le_add_right _ _
  present := by
    conv => rhs; rw [← scanned.takenTokens_append_leftTokens]
    rw [List.take_left]
    rfl
  ending := by
    have exhausted :
        buffer.leftTokens = [] ↔
          buffer.takenTokens.length = buffer.tokens.length := by
      rw [← scanned.takenTokens_append_leftTokens,
        List.length_append, Nat.left_eq_add,
        List.length_eq_zero_iff]
    have left :
        buffer.tokens.drop buffer.takenTokens.length =
          buffer.leftTokens := by
      rw [← scanned.takenTokens_append_leftTokens, List.drop_left]
    rcases scanned.exists_expect_endOfFile with ⟨ending, -⟩
    simp only [exhausted] at ending
    rw [← position_nextToken_drop, left]
    exact ending
  placed := by
    intro before token after split missing
    rcases emits_read none .term (.start buffer) with
      ⟨-, faults, -, emission⟩
    rw [← position_nextToken_drop]
    exact
      emission.position_of_isMissing (fun _ => scanned.isPresent)
        split missing
  reported := by
    rcases scanned.exists_diagnostics_eq with
      ⟨faults, diagnostics, about⟩
    have syntactic :=
      Diagnostic.isLexical_eq_false_of_map_absentToken? about
    rw [diagnostics,
      Diagnostic.filter_not_isLexical_append scanned.lexical
        syntactic]
    exact about

/-! ## Under a limit -/

/-- Under any limit, the tree of a buffer has its tokens in order. -/
theorem IsScanned.ordered_root
    (scanned : buffer.IsScanned)
    (limit : Limit) :
    ((buffer.parseWithin limit).root.tokens.filter
          Token.isPresent).Sublist buffer.tokens ∧
      (buffer.parseWithin limit).root.tokens.Pairwise
        fun earlier later => earlier.position ≤ later.position := by
  rcases emits_read limit .term (.start buffer) with
    ⟨-, faults, -, emission⟩
  exact
    ⟨emission.sublist,
      (emission.pairwise_position scanned.ordered_tokens).1⟩

end TokenBuffer

namespace SyntaxTree

/-- A tree that does not report the limit is one without a limit. -/
theorem ofSource_eq_of_not_reportsNesting
    {source : String}
    (silent : ¬ (ofSource source).ReportsNesting) :
    ofSource source =
      (TokenBuffer.ofSource source).parseWithin none := by
  have reported :=
    TokenBuffer.reportsNesting_iff
      (TokenBuffer.countP_isNestingTooDeep_ofSource source)
      (some maxNestingDepth)
  have uncrossed := Classical.not_not.1 (mt reported.2 silent)
  exact
    (TokenBuffer.parseWithin_eq_of_crossings_eq_nil uncrossed).1

/--
A tree that does not report the nesting limit has the first tokens of its line,
the end of file is missing exactly if tokens are left over, and the diagnostics
of the grammar are the missing tokens one by one.  Every tree has its tokens
from the line, none of them twice, and with the missing ones they are in order.
-/
theorem ofSource_keeps_tokens (source : String) :
    (¬ (ofSource source).ReportsNesting →
        ∃ taken,
          (ofSource source).AccountsFor
            (TokenBuffer.ofSource source) taken) ∧
      ((ofSource source).root.tokens.filter
          Token.isPresent).Sublist
        (TokenBuffer.ofSource source).tokens ∧
      ((ofSource source).root.tokens.filter
          Token.isPresent).Pairwise
        (fun earlier later => earlier.position < later.position) ∧
      (ofSource source).root.tokens.Pairwise
        fun earlier later => earlier.position ≤ later.position := by
  have scanned := TokenBuffer.isScanned_ofSource source
  obtain ⟨sublist, ordered⟩ :=
    scanned.ordered_root (some maxNestingDepth)
  refine ⟨?_, sublist, scanned.ordered.sublist sublist, ordered⟩
  intro silent
  rw [ofSource_eq_of_not_reportsNesting silent]
  exact ⟨_, scanned.accountsFor⟩

example :
    (ofSource "(1+").diagnostics.map Diagnostic.absentToken? =
      [some (Token.missing .number 3),
        some (Token.missing .closeParen 3)] := by
  cbv

end SyntaxTree

end Abacus
