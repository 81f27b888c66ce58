import Abacus.Proofs.Grammar.Emission
import Abacus.Proofs.Grammar.Slots

/-!
# Faults of the grammar

A fault that a reading finds is about a token of its buffer, or about the end of
file behind them.  It says of what kind that token is and where it stands, and
not every kind can be found in place of every other: behind a term there is
neither an operator that the term would have taken nor, in a group, the
parenthesis that closes it.

The invariant of a reading says this of all faults found so far, and besides
that the missing tokens among them were found in order and lie no further than
the cursor.  A step that only takes tokens keeps it because positions rise.
-/

namespace Abacus

namespace Token.Kind

/-- The kinds of token that can be found in place of one that is expected. -/
def foundInstead : Kind → List Kind
  | .number => [.plus, .minus, .star, .slash, .closeParen, .endOfFile]
  | .closeParen => [.number, .openParen, .endOfFile]
  | .endOfFile => [.number, .openParen, .closeParen]
  | _ => []

/-- The kinds of token at which the nesting limit can be crossed. -/
def nesting : List Kind :=
  [.openParen, .plus, .minus, .star, .slash]

variable {kind : Kind}

theorem mem_foundInstead_number
    (significant : kind.isSignificant = true)
    (closed : kind ≠ .openParen)
    (other : kind ≠ .number) :
    kind ∈ foundInstead .number := by
  cases kind <;> simp_all [foundInstead, isSignificant]

theorem mem_nesting_of_mem_operators
    (operates : kind ∈ operators) :
    kind ∈ nesting := by
  show kind ∈ openParen :: operators
  exact List.mem_cons_of_mem openParen operates

end Token.Kind

namespace Diagnostic

/-- Whether a diagnostic says that a token is not of the expected kind. -/
def isUnexpectedToken : Diagnostic → Bool
  | .unexpectedToken _ _ _ => true
  | _ => false

/--
Whether a fault is borne out by a buffer: it has the kind and the position of a
token that can be found where the fault says, or the position of a token at
which the nesting limit can be crossed.
-/
inductive IsBorneOut (buffer : TokenBuffer) : Diagnostic → Prop where
  | unexpectedToken
      {token : Token}
      {expected : Token.Kind}
      (found :
        token ∈ buffer.tokens ++ [Token.endOfFile buffer.sourceEnd])
      (instead : token.kind ∈ expected.foundInstead) :
      IsBorneOut buffer
        (.unexpectedToken token.kind expected token.position)
  | nestingTooDeep
      {token : Token}
      {limit : Nat}
      (found : token ∈ buffer.tokens)
      (nests : token.kind ∈ Token.Kind.nesting) :
      IsBorneOut buffer (.nestingTooDeep limit token.position)

theorem IsBorneOut.isLexical_eq_false
    {buffer : TokenBuffer}
    {fault : Diagnostic}
    (borneOut : fault.IsBorneOut buffer) :
    fault.isLexical = false := by
  cases borneOut <;> rfl

end Diagnostic

namespace Grammar

variable
    {limit : Limit}
    {buffer : TokenBuffer}

/-! ## Behind a reading -/

/-- Whether neither a rank nor its operands have a link at some place. -/
structure Rank.IsEndedBy (rank : Rank) (kind : Token.Kind) : Prop where
  chain : rank.isJoinedBy kind = false
  operand : rank.operand.isJoinedBy kind = false

theorem Rank.isEndedBy_primary
    (kind : Token.Kind) :
    Rank.primary.IsEndedBy kind where
  chain := Rank.isJoinedBy_primary kind
  operand := Rank.isJoinedBy_primary kind

/-- No operator is left behind a term. -/
theorem Rank.IsEndedBy.not_mem_operators
    {kind : Token.Kind}
    (ended : Rank.term.IsEndedBy kind) :
    kind ∉ Token.Kind.operators := by
  rcases ended with ⟨chain, operand⟩
  revert chain operand
  cases kind <;> decide

/-- A token that can end a group or a line ends a term in its place. -/
theorem Rank.IsEndedBy.mem_foundInstead
    {kind expected : Token.Kind}
    (ended : Rank.term.IsEndedBy kind)
    (significant : kind.isSignificant = true)
    (closes : expected ∈ [Token.Kind.closeParen, .endOfFile])
    (other : kind ≠ expected) :
    kind ∈ expected.foundInstead := by
  have idle := ended.not_mem_operators
  rcases List.mem_cons.1 closes with rfl | closes
  · cases kind <;> simp_all [Token.Kind.foundInstead,
      Token.Kind.isSignificant, Token.Kind.operators]
  · obtain rfl := List.mem_singleton.1 closes
    cases kind <;> simp_all [Token.Kind.foundInstead,
      Token.Kind.isSignificant, Token.Kind.operators]

@[simp]
theorem Parsed.current_link
    (limit : Limit)
    (left : Parsed)
    (operator : Token)
    (right : Parsed) :
    (link limit left operator right).cursor.current =
      right.cursor.current := by
  rcases link_cases limit left operator right with
    joined | ⟨bound, crossed⟩
  · rw [joined]
  · rw [crossed]
    rfl

/-- A reading leaves no link of its own behind. -/
theorem ended_reading (limit : Limit) :
    (∀ (rank : Rank) (cursor : Cursor),
      rank.IsEndedBy (read limit rank cursor).cursor.current.kind) ∧
      ∀ (rank : Rank) (left : Parsed),
        rank.operand.isJoinedBy left.cursor.current.kind = false →
          rank.IsEndedBy
            (readChain limit rank left).cursor.current.kind := by
  apply reading_induction
  constructor
  case chain =>
    intro rank cursor first chain
    rw [read_eq_readChain]
    exact chain first.chain
  case number =>
    intro cursor closed
    exact Rank.isEndedBy_primary _
  case skipped =>
    intro cursor bound opens exceeded
    exact Rank.isEndedBy_primary _
  case group =>
    intro cursor opens within inner
    exact Rank.isEndedBy_primary _
  case link =>
    intro rank left joins right chain ended
    rw [readChain_link limit joins]
    apply chain
    rw [Parsed.current_link]
    exact right.chain
  case stop =>
    intro rank left stops ended
    rw [readChain_stop limit stops]
    exact ⟨stops, ended⟩

theorem ended_read
    (limit : Limit)
    (rank : Rank)
    (cursor : Cursor) :
    rank.IsEndedBy (read limit rank cursor).cursor.current.kind :=
  (ended_reading limit).1 rank cursor

/-! ## The invariant of a reading -/

/-- What is left of some tokens in order is in order and not before them. -/
theorem Emission.Ordered.of_suffix
    {sourceEnd : Nat}
    {source rest : List Token}
    (ordered : Ordered sourceEnd source)
    (suffix : rest <:+ source) :
    Ordered sourceEnd rest ∧
      (nextToken sourceEnd source).position ≤
        (nextToken sourceEnd rest).position := by
  rcases suffix with ⟨passed, rfl⟩
  induction passed with
  | nil => exact ⟨ordered, Nat.le_refl _⟩
  | cons token passed hypothesis =>
      rcases ordered_cons_iff.1 ordered with ⟨first, others⟩
      rcases hypothesis others with ⟨left, behind⟩
      exact ⟨left, Nat.le_trans first behind⟩

namespace Cursor

/--
What is known at some place of a buffer, if no other tokens have been expected
and not found than those of some kinds.
-/
structure IsSound
    (buffer : TokenBuffer)
    (expected : List Token.Kind)
    (cursor : Cursor) :
    Prop where
  /-- The tokens that are left are the last ones of the buffer. -/
  rest : cursor.rest <:+ buffer.tokens
  sourceEnd : cursor.sourceEnd = buffer.sourceEnd
  /-- All faults are borne out by the buffer. -/
  borneOut : ∀ fault ∈ cursor.faults, fault.IsBorneOut buffer
  kinds :
    ∀ {found missing position},
      .unexpectedToken found missing position ∈ cursor.faults →
        missing ∈ expected
  /-- Later ones among the unexpected tokens do not stand before earlier ones. -/
  ordered :
    (cursor.faults.filter Diagnostic.isUnexpectedToken).Pairwise
      fun later earlier => earlier.position ≤ later.position
  /-- The unexpected tokens do not stand behind the place. -/
  passed :
    ∀ fault ∈ cursor.faults.filter Diagnostic.isUnexpectedToken,
      fault.position ≤ cursor.current.position

variable
    {cursor after : Cursor}
    {expected : List Token.Kind}

theorem IsSound.current_mem
    (sound : cursor.IsSound buffer expected) :
    cursor.current ∈
      buffer.tokens ++ [Token.endOfFile buffer.sourceEnd] := by
  rw [cursor.current_eq_nextToken, sound.sourceEnd]
  have inside := sound.rest.subset
  cases rest : cursor.rest with
  | nil =>
      apply List.mem_append_right
      exact List.mem_singleton.2 rfl
  | cons token others =>
      rw [rest] at inside
      apply List.mem_append_left
      exact inside (List.mem_cons_self ..)

/-- What is not the end of file is a token of the buffer. -/
theorem IsSound.current_mem_tokens
    (sound : cursor.IsSound buffer expected)
    (unfinished : cursor.current.kind ≠ .endOfFile) :
    cursor.current ∈ buffer.tokens := by
  rcases List.mem_append.1 sound.current_mem with member | isLast
  · exact member
  · rw [List.mem_singleton.1 isLast] at unfinished
    exact (unfinished rfl).elim

/-- The current token is of a kind that the grammar knows. -/
theorem IsSound.isSignificant_current
    (sound : cursor.IsSound buffer expected)
    (significant :
      ∀ token ∈ buffer.tokens, token.kind.isSignificant = true) :
    cursor.current.kind.isSignificant = true := by
  by_cases finished : cursor.current.kind = .endOfFile
  · rw [finished]
    rfl
  · exact significant _ (sound.current_mem_tokens finished)

/-- Further kinds of token may have been expected. -/
theorem IsSound.mono
    {further : List Token.Kind}
    (sound : cursor.IsSound buffer expected)
    (subset : expected ⊆ further) :
    cursor.IsSound buffer further :=
  { sound with kinds := fun reported => subset (sound.kinds reported) }

/-- Tokens may be taken. -/
theorem IsSound.of_suffix
    (sound : cursor.IsSound buffer expected)
    (ordered : Emission.Ordered buffer.sourceEnd buffer.tokens)
    (suffix : after.rest <:+ cursor.rest)
    (sameEnd : after.sourceEnd = cursor.sourceEnd)
    (sameFaults : after.faults = cursor.faults) :
    after.IsSound buffer expected := by
  have later : cursor.current.position ≤ after.current.position := by
    rw [cursor.current_eq_nextToken, after.current_eq_nextToken,
      sameEnd, sound.sourceEnd]
    exact ((ordered.of_suffix sound.rest).1.of_suffix suffix).2
  constructor
  case rest => exact suffix.trans sound.rest
  case sourceEnd => exact sameEnd.trans sound.sourceEnd
  case borneOut =>
    rw [sameFaults]
    exact sound.borneOut
  case kinds =>
    intro found missing position member
    rw [sameFaults] at member
    exact sound.kinds member
  case ordered =>
    rw [sameFaults]
    exact sound.ordered
  case passed =>
    rw [sameFaults]
    intro fault member
    exact Nat.le_trans (sound.passed fault member) later

/-- A fault may be found that is borne out by the buffer. -/
theorem IsSound.of_faults_cons
    {fault : Diagnostic}
    (sound : cursor.IsSound buffer expected)
    (sameRest : after.rest = cursor.rest)
    (sameEnd : after.sourceEnd = cursor.sourceEnd)
    (faults : after.faults = fault :: cursor.faults)
    (borneOut : fault.IsBorneOut buffer)
    (known :
      ∀ {found missing position},
        fault = .unexpectedToken found missing position →
          missing ∈ expected)
    (here :
      fault.isUnexpectedToken = true →
        fault.position = cursor.current.position) :
    after.IsSound buffer expected := by
  have stays : after.current = cursor.current := by
    rw [after.current_eq_nextToken, cursor.current_eq_nextToken,
      sameRest, sameEnd]
  constructor
  case rest =>
    rw [sameRest]
    exact sound.rest
  case sourceEnd => exact sameEnd.trans sound.sourceEnd
  case borneOut =>
    rw [faults, List.forall_mem_cons]
    exact ⟨borneOut, sound.borneOut⟩
  case kinds =>
    intro found missing position reported
    rw [faults] at reported
    rcases List.mem_cons.1 reported with same | reported
    · exact known same.symm
    · exact sound.kinds reported
  case ordered =>
    rw [faults, List.filter_cons]
    split
    · rename_i unexpected
      rw [List.pairwise_cons, here unexpected]
      exact ⟨sound.passed, sound.ordered⟩
    · exact sound.ordered
  case passed =>
    rw [faults, stays, List.filter_cons]
    split
    · rename_i unexpected
      rw [List.forall_mem_cons, here unexpected]
      exact ⟨Nat.le_refl _, sound.passed⟩
    · exact sound.passed

/-- A token may be expected where only certain others can be found instead. -/
theorem IsSound.expect
    {kind : Token.Kind}
    (sound : cursor.IsSound buffer expected)
    (ordered : Emission.Ordered buffer.sourceEnd buffer.tokens)
    (member : kind ∈ expected)
    (instead :
      cursor.current.kind ≠ kind →
        cursor.current.kind ∈ kind.foundInstead) :
    (cursor.expect kind).2.IsSound buffer expected := by
  rcases cursor.expect_cases kind with ⟨_, taken⟩ | ⟨other, absent⟩
  · rw [taken]
    exact sound.of_suffix ordered (List.tail_suffix _) rfl rfl
  · rw [absent]
    refine sound.of_faults_cons rfl rfl rfl ?borneOut ?known ?here
    case borneOut =>
      exact .unexpectedToken sound.current_mem (instead other)
    case known =>
      intro found missing position same
      obtain ⟨-, rfl, -⟩ := Diagnostic.unexpectedToken.inj same
      exact member
    case here => exact fun _ => rfl

/--
The nesting limit may be crossed at a token of the buffer.  Only the first crossing
is a fault.
-/
theorem IsSound.cross
    {token : Token}
    (sound : cursor.IsSound buffer expected)
    (ordered : Emission.Ordered buffer.sourceEnd buffer.tokens)
    (member : token ∈ buffer.tokens)
    (nests : token.kind ∈ Token.Kind.nesting)
    (bound : Nat) :
    (cursor.cross bound token).IsSound buffer expected := by
  cases already : cursor.isTooDeep with
  | true =>
      have faults :
          (cursor.cross bound token).faults = cursor.faults := by
        simp [Cursor.cross, already]
      exact sound.of_suffix ordered (List.suffix_refl _) rfl faults
  | false =>
      have faults :
          (cursor.cross bound token).faults =
            .nestingTooDeep bound token.position ::
              cursor.faults := by
        simp [Cursor.cross, already]
      refine
        sound.of_faults_cons rfl rfl faults ?borneOut ?known ?here
      case borneOut => exact .nestingTooDeep member nests
      case known => exact fun same => Diagnostic.noConfusion same
      case here => exact fun unexpected => Bool.noConfusion unexpected

end Cursor

/--
A reading keeps the invariant if its tokens are in order and of kinds that the
grammar knows, and if numbers and closing parentheses may be expected.
-/
theorem sound_reading
    (ordered : Emission.Ordered buffer.sourceEnd buffer.tokens)
    (significant :
      ∀ token ∈ buffer.tokens, token.kind.isSignificant = true)
    (limit : Limit) :
    (∀ rank (cursor : Cursor),
      cursor.IsSound buffer Token.Kind.standIns →
        (read limit rank cursor).cursor.IsSound buffer
          Token.Kind.standIns) ∧
      ∀ rank (left : Parsed),
        left.cursor.IsSound buffer Token.Kind.standIns →
          (readChain limit rank left).cursor.IsSound buffer
            Token.Kind.standIns := by
  apply reading_induction
  constructor
  case chain =>
    intro rank cursor first chain sound
    rw [read_eq_readChain]
    exact chain (first sound)
  case number =>
    intro cursor closed sound
    have known := sound.isSignificant_current significant
    rw [read_number limit closed]
    apply sound.expect ordered (by decide)
    exact Token.Kind.mem_foundInstead_number known closed
  case skipped =>
    intro cursor bound opens exceeded sound
    have member := sound.current_mem_tokens (by simp [opens])
    have nests : cursor.current.kind ∈ Token.Kind.nesting := by
      rw [opens]
      exact List.mem_cons_self ..
    rw [read_skipped opens exceeded]
    exact
      (sound.cross ordered member nests bound).of_suffix ordered
        (Cursor.precedes_skipGroup _).rest rfl rfl
  case group =>
    intro cursor opens within inner sound
    have inside :
        cursor.advance.enterGroup.IsSound buffer
          Token.Kind.standIns :=
      sound.of_suffix ordered (List.tail_suffix _) rfl rfl
    have closing :
        (read limit .term
          cursor.advance.enterGroup).cursor.leaveGroup.IsSound buffer
          Token.Kind.standIns :=
      (inner inside).of_suffix ordered (List.suffix_refl _) rfl rfl
    have ended := ended_read limit .term cursor.advance.enterGroup
    have known := closing.isSignificant_current significant
    rw [read_group opens within]
    apply closing.expect ordered (by decide)
    exact ended.mem_foundInstead known (by decide)
  case link =>
    intro rank left joins right chain sound
    have operates := Expression.mem_operators_of_isJoinedBy joins
    have member :=
      sound.current_mem_tokens (by
        intro finished
        rw [finished] at operates
        contradiction)
    have behind :=
      right (sound.of_suffix ordered (List.tail_suffix _) rfl rfl)
    rw [readChain_link limit joins]
    apply chain
    rcases Parsed.link_cases limit left left.cursor.current
        (read limit rank.operand left.cursor.advance) with
      joined | ⟨bound, crossed⟩
    · rw [joined]
      exact behind
    · rw [crossed]
      exact
        behind.cross ordered member
          (Token.Kind.mem_nesting_of_mem_operators operates) bound
  case stop =>
    intro rank left stops sound
    rw [readChain_stop limit stops]
    exact sound

end Grammar

end Abacus
