import Abacus.Proofs.Grammar.Lookahead
import Abacus.Proofs.SyntaxTree.Faults
import Abacus.Proofs.Token.Spread

/-!
# Text that is left over

Where the end of file is missing, a token stands that the tree does not have.
The line may go on in any other way from there, if only the first character stays
the same: the tokens in front of it are cut as before, and it starts a token of
the same kind, which again is not taken.

So nothing behind that character has a say in the tree, nor in what the grammar
finds wrong with the line.  The scanner still complains about all of it.
-/

namespace Abacus

open Grammar

/-- A text has only one front of so many bytes. -/
theorem Text.front_unique
    {front other back rest : String}
    (same : front ++ back = other ++ rest)
    (size : front.utf8ByteSize = other.utf8ByteSize) :
    front = other ∧ back = rest := by
  have bytes := congrArg String.toByteArray same
  rw [String.toByteArray_append, String.toByteArray_append] at bytes
  have fronts :=
    String.toByteArray_inj.1 (ByteArray.append_inj_left bytes size)
  subst fronts
  exact ⟨rfl, (String.append_right_inj front).1 same⟩

/-! ## Tokens -/

namespace Token

variable
    {position : Nat}
    {text : List Char}
    {tokens front back : List Token}
    {token : Token}

/-- A text that is not empty starts with a token. -/
theorem Tiling.exists_eq_cons
    {first : Char}
    {rest : List Char}
    (tiling : Tiling position (first :: rest) tokens) :
    ∃ token others,
      tokens = token :: others ∧
        token.kind = Kind.ofChar first ∧
        token.position = position := by
  generalize shape : first :: rest = whole at tiling
  cases tiling with
  | nil => contradiction
  | cons run stops tiling =>
      obtain ⟨rfl, -⟩ := List.cons.inj shape
      exact ⟨_, _, rfl, scanned_kind .., scanned_position ..⟩

/--
In front of a token the text is cut without regard to what follows on the first
character of that token.
-/
theorem Tiling.exists_front
    (tiling : Tiling position text (front ++ token :: back)) :
    ∃ before first after,
      text = before ++ first :: after ∧
        token.position =
          position + (String.ofList before).utf8ByteSize ∧
        token.kind = Kind.ofChar first ∧
        ∀ tail tokens,
          Tiling token.position (first :: tail) tokens →
            Tiling position (before ++ first :: tail)
              (front ++ tokens) := by
  generalize shape : front ++ token :: back = tokens at tiling
  induction tiling generalizing front with
  | nil position => simp at shape
  | @cons position first run rest tokens continued stops tiling
      hypothesis =>
      cases front with
      | nil =>
          obtain ⟨rfl, rfl⟩ := List.cons.inj shape
          refine
            ⟨[], first, run ++ rest, rfl, scanned_position ..,
              scanned_kind .., ?_⟩
          intro tail tokens other
          rw [scanned_position] at other
          exact other
      | cons head front =>
          obtain ⟨rfl, behind⟩ := List.cons.inj shape
          obtain ⟨before, next, after, rfl, placed, kind, others⟩ :=
            hypothesis behind
          refine
            ⟨first :: run ++ before, next, after, ?_, ?_, kind, ?_⟩
          · rw [List.append_assoc]
          · rw [placed, String.ofList_append,
              String.utf8ByteSize_append, Nat.add_assoc]
          · intro tail tokens other
            rw [List.append_assoc]
            refine .cons continued ?_ (others tail tokens other)
            cases before with
            | nil => exact stops
            | cons character before => exact stops

end Token

namespace TokenBuffer

variable
    {source : String}
    {stop : Token}
    {shared behind : List Token}

/--
If a source changes behind the first character of one of its tokens, then its
buffer has the same tokens up to that one, and there one that looks like it.
-/
theorem exists_tokens_ofSource
    (split : (ofSource source).tokens = shared ++ stop :: behind) :
    ∃ front back,
      source = front ++ back ∧
        back ≠ "" ∧
        front.utf8ByteSize = stop.position ∧
        ∀ tail : String,
          tail.toList.head? = back.toList.head? →
            ∃ others,
              (ofSource (front ++ tail)).tokens = shared ++ others ∧
                LooksLike (stop :: behind) others := by
  obtain ⟨front, back, whole, kept, left⟩ :=
    List.filter_eq_append_iff.1 split
  obtain ⟨dropped, rest, rfl, insignificant, significant, -⟩ :=
    List.filter_eq_cons_iff.1 left
  have tiling := tiling_ofSource source
  rw [whole, ← List.append_assoc] at tiling
  obtain ⟨before, first, after, text, placed, kind, changed⟩ :=
    tiling.exists_front
  rw [Nat.zero_add] at placed
  refine
    ⟨String.ofList before, String.ofList (first :: after), ?_, ?_,
      placed.symm, ?_⟩
  · rw [← String.ofList_append, ← text, String.ofList_toList]
  · rw [ne_eq, ← String.toList_eq_nil_iff, String.toList_ofList]
    exact List.cons_ne_nil first after
  · intro tail starts
    rw [String.toList_ofList, List.head?_cons,
      List.head?_eq_some_iff] at starts
    obtain ⟨others, shape⟩ := starts
    obtain ⟨tokens, tailTiling⟩ :=
      Token.exists_tiling stop.position (first :: others)
    obtain ⟨twin, behindTwin, rfl, twinKind, twinPlaced⟩ :=
      tailTiling.exists_eq_cons
    have tilingOfChange := changed others _ tailTiling
    rw [← shape, ← @String.toList_ofList before,
      ← String.toList_append] at tilingOfChange
    have twinSignificant : twin.kind.isSignificant = true := by
      rw [twinKind, ← kind]
      exact significant
    have tokensOfChange :
        (ofSource (String.ofList before ++ tail)).tokens =
          shared ++ twin ::
            behindTwin.filter fun token =>
              token.kind.isSignificant := by
      rw [ofSource_eq_of_tiling tilingOfChange]
      simp only [List.filter_append, kept,
        List.filter_eq_nil_iff.2 insignificant, List.append_nil]
      exact
        congrArg (shared ++ ·) (List.filter_cons_of_pos twinSignificant)
    exact
      ⟨_, tokensOfChange, .intro (twinKind.trans kind.symm) twinPlaced⟩

variable {buffer other : TokenBuffer}

/--
Buffers that agree up to the tokens that are left over from the term of one of
them have the same tree, if the scanner found nothing in either.
-/
theorem parseWithin_silenced_eq
    {limit : Limit}
    {others : List Token}
    (unread :
      (read limit .term (.start buffer.silenced)).cursor.rest =
        stop :: behind)
    (unfinished : stop.kind ≠ .endOfFile)
    (tokens : buffer.tokens = shared ++ stop :: behind)
    (otherTokens : other.tokens = shared ++ others)
    (alike : LooksLike (stop :: behind) others) :
    other.silenced.parseWithin limit =
      buffer.silenced.parseWithin limit := by
  let term := read limit .term (.start buffer.silenced)
  have start :
      (Cursor.start buffer.silenced).AgreesUpTo (stop :: behind)
        others (.start other.silenced) :=
    ⟨⟨shared, tokens, otherTokens⟩, rfl, rfl, rfl⟩
  have untaken : stop :: behind <:+ term.cursor.rest :=
    ⟨[], unread.symm⟩
  have agrees := agrees_read start alike untaken
  have missing : term.cursor.current.kind ≠ .endOfFile := by
    unfold Cursor.current
    rw [unread]
    exact unfinished
  have left :
      stop :: behind <:+ (term.cursor.expect .endOfFile).2.rest := by
    rcases term.cursor.expect_cases .endOfFile with
      ⟨found, -⟩ | ⟨-, absent⟩
    · exact (missing found).elim
    · rw [absent]
      exact untaken
  obtain ⟨closing, behind⟩ := agrees.cursor.expect alike left
  have faults := congrArg List.reverse behind.faults
  unfold parseWithin
  rw [SyntaxTree.mk.injEq]
  exact ⟨faults, agrees.expression, closing⟩

/-- Where the end of file is missing, there is a token. -/
theorem exists_unread
    (leftOver :
      (SyntaxTree.ofSource source).endOfFile.isMissing = true) :
    ∃ shared stop behind,
      (ofSource source).tokens = shared ++ stop :: behind ∧
        (read (some maxNestingDepth) .term
            (.start (ofSource source).silenced)).cursor.rest =
          stop :: behind ∧
        (SyntaxTree.ofSource source).endOfFile.position =
          stop.position := by
  let term :=
    read (some maxNestingDepth) .term (.start (ofSource source).silenced)
  have ending :
      (SyntaxTree.ofSource source).endOfFile =
        (term.cursor.expect .endOfFile).1 :=
    congrArg SyntaxTree.endOfFile (parseWithin_eq _ _)
  have precedes :=
    (follows_read (some maxNestingDepth) .term
      (.start (ofSource source).silenced)).precedes
  obtain ⟨shared, whole⟩ := precedes.rest
  have expected :=
    @Cursor.exists_expect_endOfFile term.cursor (by
      intro token member
      exact kind_ne_endOfFile (precedes.rest.subset member))
  rw [ending, expected.1] at leftOver ⊢
  cases rest : term.cursor.rest with
  | nil =>
      rw [if_pos rest] at leftOver
      contradiction
  | cons stop behind =>
      refine ⟨shared, stop, behind, ?_, rfl, ?_⟩
      · rw [← rest]
        exact whole.symm
      · rw [if_neg (List.cons_ne_nil _ _)]
        rfl

end TokenBuffer

namespace SyntaxTree

variable {source : String}

/--
A line whose end of file is missing may go on in any other way behind the first
character that is left over.  Its tree stays the same, and the grammar finds the
same faults.
-/
theorem ofSource_ignores_leftOver
    (leftOver : (ofSource source).endOfFile.isMissing = true) :
    (∃ front back,
      source = front ++ back ∧
        back ≠ "" ∧
        front.utf8ByteSize = (ofSource source).endOfFile.position) ∧
      ∀ front back tail : String,
        source = front ++ back →
        front.utf8ByteSize = (ofSource source).endOfFile.position →
        tail.toList.head? = back.toList.head? →
          (ofSource (front ++ tail)).root = (ofSource source).root ∧
            (ofSource (front ++ tail)).endOfFile =
              (ofSource source).endOfFile ∧
            ((ofSource (front ++ tail)).diagnostics.filter fun fault =>
                !fault.isLexical) =
              ((ofSource source).diagnostics.filter fun fault =>
                !fault.isLexical) := by
  obtain ⟨shared, stop, behind, tokens, unread, placed⟩ :=
    TokenBuffer.exists_unread leftOver
  obtain ⟨before, after, split, nonempty, size, changed⟩ :=
    TokenBuffer.exists_tokens_ofSource tokens
  rw [← size] at placed
  refine ⟨⟨before, after, split, nonempty, placed.symm⟩, ?_⟩
  intro front back tail otherSplit otherSize starts
  obtain ⟨rfl, rfl⟩ :=
    Text.front_unique (otherSplit.symm.trans split)
      (otherSize.trans placed)
  obtain ⟨others, otherTokens, alike⟩ := changed tail starts
  have unfinished : stop.kind ≠ .endOfFile := by
    apply @TokenBuffer.kind_ne_endOfFile source
    rw [tokens]
    exact List.mem_append_right _ (List.mem_cons_self ..)
  have same :=
    TokenBuffer.parseWithin_silenced_eq unread unfinished tokens
      otherTokens alike
  exact sameSyntax_of_silenced_eq same

/-- A number is left over, and it may be longer and have anything behind it. -/
theorem ofSource_ignores_leftOver_number :
    (ofSource "2*(1-) 7").endOfFile.isMissing = true ∧
      (ofSource "2*(1-) 78é)").root = (ofSource "2*(1-) 7").root ∧
      (ofSource "2*(1-) 78é)").endOfFile =
        Token.missing .endOfFile 7 ∧
      ((ofSource "2*(1-) 78é)").diagnostics.filter fun fault =>
          !fault.isLexical) =
        [.unexpectedToken .closeParen .number 5,
          .unexpectedToken .number .endOfFile 7] := by
  have ending :
      (ofSource "2*(1-) 7").endOfFile = Token.missing .endOfFile 7 := by
    decide +kernel
  have leftOver : (ofSource "2*(1-) 7").endOfFile.isMissing = true := by
    rw [ending]
    rfl
  have faults :
      ((ofSource "2*(1-) 7").diagnostics.filter fun fault =>
          !fault.isLexical) =
        [.unexpectedToken .closeParen .number 5,
          .unexpectedToken .number .endOfFile 7] := by
    decide +kernel
  obtain ⟨roots, endings, others⟩ :=
    (ofSource_ignores_leftOver leftOver).2 "2*(1-) " "7" "78é)" rfl
      (by rw [ending]; rfl) rfl
  exact ⟨leftOver, roots, endings.trans ending, others.trans faults⟩

end SyntaxTree

end Abacus
