import Abacus.Proofs.Grammar.Recognition

/-!
# Where the tokens of an expression come from

A reading goes through the tokens of its source in order.  What it emits, from
left to right, are the tokens that it takes and the missing ones that stand in
where it does not find what it asks for.  Each of the latter is a fault, and a
missing token has the position of the token that was found in its place.

Without a nesting limit that is all.  Under a limit there are three more things
that can happen: a token is passed over, a missing number stands in for a
skipped group without being a fault of its own, and a fault is found that no
emitted token accounts for.

`emits_read` says that every reading emits the tokens of what it reads.  The
rest of this module is what can be told from that alone, by induction on the
emission.
-/

namespace Abacus

/-- Whether a token is one that the source has. -/
def Token.isPresent (token : Token) : Bool :=
  !token.isMissing

/-- The kinds of token that may be missing inside an expression. -/
def Token.Kind.standIns : List Token.Kind :=
  [.number, .closeParen]

theorem Token.Kind.number_mem_standIns :
    Token.Kind.number ∈ standIns :=
  List.mem_cons_self ..

/-- The missing token that a diagnostic is about, if it is about one. -/
def Diagnostic.absentToken? : Diagnostic → Option Token
  | .unexpectedToken _ expected position =>
      some (Token.missing expected position)
  | _ => none

namespace Grammar

/-- The first of some tokens, or else the end of file. -/
def nextToken (sourceEnd : Nat) : List Token → Token
  | [] => Token.endOfFile sourceEnd
  | token :: _ => token

theorem Cursor.current_eq_nextToken (cursor : Cursor) :
    cursor.current = nextToken cursor.sourceEnd cursor.rest := by
  unfold current
  cases cursor.rest <;> rfl

/--
What becomes of the first tokens of a source: the tokens that are emitted in
their place, the faults that are found on the way, and the tokens that are left.
-/
inductive Emission (limit : Limit) (sourceEnd : Nat) :
    List Token →
      List Token → List Diagnostic → List Token → Prop where
  | stop (rest : List Token) :
      Emission limit sourceEnd rest [] [] rest
  | take
      {source emitted rest : List Token}
      {faults : List Diagnostic}
      (token : Token)
      (others :
        Emission limit sourceEnd source emitted faults rest) :
      Emission limit sourceEnd (token :: source) (token :: emitted)
        faults rest
  | absent
      {source emitted rest : List Token}
      {faults : List Diagnostic}
      {expected : Token.Kind}
      (replaceable : expected ∈ Token.Kind.standIns)
      (others :
        Emission limit sourceEnd source emitted faults rest) :
      Emission limit sourceEnd source
        (Token.missing expected
            (nextToken sourceEnd source).position ::
          emitted)
        (.unexpectedToken (nextToken sourceEnd source).kind expected
            (nextToken sourceEnd source).position ::
          faults)
        rest
  | skip
      {source emitted rest : List Token}
      {faults : List Diagnostic}
      (limited : limit ≠ none)
      (token : Token)
      (others :
        Emission limit sourceEnd source emitted faults rest) :
      Emission limit sourceEnd (token :: source) emitted faults rest
  | placeholder
      {source emitted rest : List Token}
      {faults : List Diagnostic}
      (limited : limit ≠ none)
      (others :
        Emission limit sourceEnd source emitted faults rest) :
      Emission limit sourceEnd source
        (Token.missing .number
            (nextToken sourceEnd source).position ::
          emitted)
        faults rest
  | report
      {source emitted rest : List Token}
      {faults : List Diagnostic}
      (limited : limit ≠ none)
      (fault : Diagnostic)
      (others :
        Emission limit sourceEnd source emitted faults rest) :
      Emission limit sourceEnd source emitted (fault :: faults) rest

namespace Emission

variable
    {limit : Limit}
    {sourceEnd : Nat}
    {source emitted rest : List Token}
    {faults : List Diagnostic}

theorem trans
    {middle others : List Token}
    {more : List Diagnostic}
    (front : Emission limit sourceEnd source emitted faults middle)
    (back : Emission limit sourceEnd middle others more rest) :
    Emission limit sourceEnd source (emitted ++ others)
      (faults ++ more) rest := by
  induction front with
  | stop middle => exact back
  | take token _ hypothesis => exact .take token (hypothesis back)
  | absent replaceable _ hypothesis =>
      exact .absent replaceable (hypothesis back)
  | skip limited token _ hypothesis =>
      exact .skip limited token (hypothesis back)
  | placeholder limited _ hypothesis =>
      exact .placeholder limited (hypothesis back)
  | report limited fault _ hypothesis =>
      exact .report limited fault (hypothesis back)

/-- Under a limit, tokens that were emitted may be dropped again. -/
theorem discard
    (limited : limit ≠ none)
    (emission :
      Emission limit sourceEnd source emitted faults rest) :
    Emission limit sourceEnd source [] faults rest := by
  induction emission with
  | stop rest => exact .stop rest
  | take token _ hypothesis => exact .skip limited token hypothesis
  | absent _ _ hypothesis => exact .report limited _ hypothesis
  | skip _ token _ hypothesis => exact .skip limited token hypothesis
  | placeholder _ _ hypothesis => exact hypothesis
  | report _ fault _ hypothesis =>
      exact .report limited fault hypothesis

/-- Under a limit, tokens may be passed over. -/
theorem of_suffix
    (limited : limit ≠ none)
    (suffix : rest <:+ source) :
    Emission limit sourceEnd source [] [] rest := by
  rcases suffix with ⟨passed, rfl⟩
  induction passed with
  | nil => exact .stop rest
  | cons token passed hypothesis =>
      exact .skip limited token hypothesis

end Emission

/-! ## What a reading emits -/

namespace Cursor

/-- Whether some tokens are emitted between two places. -/
structure Emits
    (limit : Limit)
    (before : Cursor)
    (emitted : List Token)
    (after : Cursor) :
    Prop where
  sourceEnd : after.sourceEnd = before.sourceEnd
  emission :
    ∃ faults,
      after.diagnostics = before.diagnostics ++ faults ∧
        Emission limit before.sourceEnd before.rest emitted faults
          after.rest

variable {limit : Limit}

theorem Emits.trans
    {first second third : Cursor}
    {emitted others : List Token}
    (front : first.Emits limit emitted second)
    (back : second.Emits limit others third) :
    first.Emits limit (emitted ++ others) third := by
  rcases front with ⟨frontEnd, faults, found, emission⟩
  rcases back with ⟨backEnd, more, foundMore, following⟩
  rw [frontEnd] at following
  refine
    ⟨backEnd.trans frontEnd, faults ++ more, ?_,
      emission.trans following⟩
  rw [foundMore, found, List.append_assoc]

theorem Emits.discard
    {before after : Cursor}
    {emitted : List Token}
    (limited : limit ≠ none)
    (emits : before.Emits limit emitted after) :
    before.Emits limit [] after := by
  rcases emits with ⟨sourceEnd, faults, found, emission⟩
  exact ⟨sourceEnd, faults, found, emission.discard limited⟩

theorem emits_enterGroup (cursor : Cursor) :
    cursor.Emits limit [] cursor.enterGroup :=
  ⟨rfl, [], (List.append_nil _).symm, .stop _⟩

theorem emits_leaveGroup (cursor : Cursor) :
    cursor.Emits limit [] cursor.leaveGroup :=
  ⟨rfl, [], (List.append_nil _).symm, .stop _⟩

theorem emits_advance
    {cursor : Cursor}
    (unfinished : cursor.current.kind ≠ .endOfFile) :
    cursor.Emits limit [cursor.current] cursor.advance := by
  refine ⟨rfl, [], (List.append_nil _).symm, ?_⟩
  rw [cursor.rest_eq_current_cons unfinished]
  exact .take cursor.current (.stop _)

theorem emits_expect
    {expected : Token.Kind}
    (replaceable : expected ∈ Token.Kind.standIns)
    (cursor : Cursor) :
    cursor.Emits limit [(cursor.expect expected).1]
      (cursor.expect expected).2 := by
  rcases cursor.expect_cases expected with ⟨found, taken⟩ | ⟨_, absent⟩
  · rw [taken]
    refine emits_advance fun finished => ?_
    rw [← found, finished] at replaceable
    contradiction
  · rw [absent]
    refine ⟨rfl, _, cursor.diagnostics_report _, ?_⟩
    rw [cursor.current_eq_nextToken]
    exact .absent replaceable (.stop cursor.rest)

/-- A missing number is put in place of what follows. -/
theorem emits_placeholder
    (limited : limit ≠ none)
    (cursor : Cursor) :
    cursor.Emits limit
      [Token.missing .number cursor.current.position] cursor := by
  refine ⟨rfl, [], (List.append_nil _).symm, ?_⟩
  rw [cursor.current_eq_nextToken]
  exact .placeholder limited (.stop cursor.rest)

theorem emits_cross
    (limited : limit ≠ none)
    (cursor : Cursor)
    (bound : Nat)
    (token : Token) :
    cursor.Emits limit [] (cursor.cross bound token) := by
  refine ⟨rfl, _, cursor.diagnostics_cross bound token, ?_⟩
  split
  · exact .stop cursor.rest
  · exact .report limited _ (.stop cursor.rest)

theorem emits_skipGroup
    (limited : limit ≠ none)
    (cursor : Cursor) :
    cursor.Emits limit [] cursor.skipGroup :=
  ⟨rfl, [], (List.append_nil _).symm,
    .of_suffix limited (afterGroups_suffix 0 cursor.rest)⟩

end Cursor

theorem Limit.ne_none_of_exceededBy?
    {limit : Limit}
    {level bound : Nat}
    (exceeded : limit.exceededBy? level = some bound) :
    limit ≠ none := by
  rintro rfl
  contradiction

/-- A link emits its operator and right operand, or else drops them. -/
theorem Parsed.emits_link
    {limit : Limit}
    {cursor : Cursor}
    {left right : Parsed}
    (leftEmits :
      cursor.Emits limit left.expression.tokens left.cursor)
    (unfinished : left.cursor.current.kind ≠ .endOfFile)
    (rightEmits :
      left.cursor.advance.Emits limit right.expression.tokens
        right.cursor) :
    cursor.Emits limit
      (link limit left left.cursor.current right).expression.tokens
      (link limit left left.cursor.current right).cursor := by
  have behind :
      left.cursor.Emits limit
        (left.cursor.current :: right.expression.tokens)
        right.cursor :=
    (Cursor.emits_advance unfinished).trans rightEmits
  cases exceeded :
      limit.exceededBy? (max left.height right.height + 1) with
  | none =>
      rw [link_of_exceededBy?_eq_none _ exceeded]
      exact leftEmits.trans behind
  | some bound =>
      have limited := Limit.ne_none_of_exceededBy? exceeded
      have dropped :=
        (behind.discard limited).trans
          (Cursor.emits_cross limited right.cursor bound
            left.cursor.current)
      rw [link_of_exceededBy?_eq_some _ exceeded]
      simpa using leftEmits.trans dropped

/-- What is read inside a group is followed by the end of that group. -/
theorem Parsed.emits_closing
    {limit : Limit}
    (inner : Parsed) :
    inner.cursor.Emits limit
      [(inner.cursor.leaveGroup.expect .closeParen).1]
      (inner.cursor.leaveGroup.expect .closeParen).2 :=
  inner.cursor.emits_leaveGroup.trans
    (Cursor.emits_expect (by decide) _)

/-- Every reading emits the tokens of what it reads. -/
theorem emits_reading (limit : Limit) :
    (∀ rank (cursor : Cursor),
      cursor.Emits limit (read limit rank cursor).expression.tokens
        (read limit rank cursor).cursor) ∧
      ∀ rank (left : Parsed) (cursor : Cursor),
        cursor.Emits limit left.expression.tokens left.cursor →
          cursor.Emits limit
            (readChain limit rank left).expression.tokens
            (readChain limit rank left).cursor := by
  apply reading_induction
  constructor
  case chain =>
    intro rank cursor first chain
    rw [read_eq_readChain]
    exact chain cursor first
  case number =>
    intro cursor closed
    rw [read_number limit closed]
    exact Cursor.emits_expect (by decide) cursor
  case skipped =>
    intro cursor bound opens exceeded
    have limited := Limit.ne_none_of_exceededBy? exceeded
    have passed :=
      (Cursor.emits_cross limited cursor bound cursor.current).trans
        (Cursor.emits_skipGroup limited _)
    rw [read_skipped opens exceeded]
    exact (Cursor.emits_placeholder limited cursor).trans passed
  case group =>
    intro cursor opens within inner
    have opening :
        cursor.Emits limit [cursor.current]
          cursor.advance.enterGroup :=
      (Cursor.emits_advance (by simp [opens])).trans
        (Cursor.emits_enterGroup _)
    rw [read_group opens within]
    exact (opening.trans inner).trans (Parsed.emits_closing _)
  case link =>
    intro rank left joins right chain cursor emits
    rw [readChain_link limit joins]
    refine chain cursor (Parsed.emits_link emits ?_ right)
    intro finished
    simp [finished] at joins
  case stop =>
    intro rank left stops cursor emits
    rw [readChain_stop limit stops]
    exact emits

theorem emits_read
    (limit : Limit)
    (rank : Rank)
    (cursor : Cursor) :
    cursor.Emits limit (read limit rank cursor).expression.tokens
      (read limit rank cursor).cursor :=
  (emits_reading limit).1 rank cursor

/-! ## What can be told from an emission -/

namespace Emission

variable
    {limit : Limit}
    {sourceEnd : Nat}
    {source emitted rest : List Token}
    {faults : List Diagnostic}

/-- Tokens that are emitted and not missing are from the source, in order. -/
theorem sublist
    (emission :
      Emission limit sourceEnd source emitted faults rest) :
    (emitted.filter Token.isPresent).Sublist source := by
  induction emission with
  | stop rest => exact List.nil_sublist rest
  | take token _ hypothesis =>
      rw [List.filter_cons]
      split
      · exact hypothesis.cons_cons token
      · exact hypothesis.cons token
  | absent _ _ hypothesis => exact hypothesis
  | skip _ token _ hypothesis => exact hypothesis.cons token
  | placeholder _ _ hypothesis => exact hypothesis
  | report _ _ _ hypothesis => exact hypothesis

/-- Only tokens of some kinds stand in for others. -/
theorem mem_source
    {token : Token}
    (emission :
      Emission limit sourceEnd source emitted faults rest)
    (member : token ∈ emitted)
    (irreplaceable : token.kind ∉ Token.Kind.standIns) :
    token ∈ source := by
  induction emission with
  | stop rest => contradiction
  | take first _ hypothesis =>
      rcases List.mem_cons.1 member with rfl | member
      · exact List.mem_cons_self ..
      · exact List.mem_cons_of_mem first (hypothesis member)
  | absent replaceable _ hypothesis =>
      rcases List.mem_cons.1 member with rfl | member
      · exact (irreplaceable replaceable).elim
      · exact hypothesis member
  | skip _ first _ hypothesis =>
      exact List.mem_cons_of_mem first (hypothesis member)
  | placeholder _ _ hypothesis =>
      rcases List.mem_cons.1 member with rfl | member
      · exact (irreplaceable Token.Kind.number_mem_standIns).elim
      · exact hypothesis member
  | report _ _ _ hypothesis => exact hypothesis member

/-- Whether some tokens stand one behind the other and before an end. -/
def Ordered (sourceEnd : Nat) (tokens : List Token) : Prop :=
  (tokens ++ [Token.endOfFile sourceEnd]).Pairwise
    fun earlier later => earlier.position ≤ later.position

theorem ordered_cons_iff
    {token : Token} :
    Ordered sourceEnd (token :: source) ↔
      token.position ≤ (nextToken sourceEnd source).position ∧
        Ordered sourceEnd source := by
  unfold Ordered
  cases source with
  | nil => simp [nextToken]
  | cons next source =>
      simp only [nextToken, List.cons_append, List.pairwise_cons,
        List.forall_mem_cons]
      constructor
      · rintro ⟨⟨first, -⟩, others⟩
        exact ⟨first, others⟩
      · rintro ⟨first, others, ordered⟩
        refine ⟨⟨first, ?_⟩, others, ordered⟩
        intro later member
        exact Nat.le_trans first (others later member)

/--
Nothing is emitted out of place: positions do not fall, and none lies before
the first token of the source.
-/
theorem pairwise_position
    (emission :
      Emission limit sourceEnd source emitted faults rest)
    (ordered : Ordered sourceEnd source) :
    emitted.Pairwise
        (fun earlier later => earlier.position ≤ later.position) ∧
      ∀ token ∈ emitted,
        (nextToken sourceEnd source).position ≤ token.position := by
  induction emission with
  | stop rest => simp
  | @take _ emitted _ _ first _ hypothesis =>
      rcases ordered_cons_iff.1 ordered with ⟨before, others⟩
      rcases hypothesis others with ⟨pairwise, bound⟩
      have behind :
          ∀ token ∈ emitted, first.position ≤ token.position :=
        fun token member => Nat.le_trans before (bound token member)
      exact
        ⟨List.pairwise_cons.2 ⟨behind, pairwise⟩,
          List.forall_mem_cons.2 ⟨Nat.le_refl _, behind⟩⟩
  | absent _ _ hypothesis =>
      rcases hypothesis ordered with ⟨pairwise, bound⟩
      exact
        ⟨List.pairwise_cons.2 ⟨bound, pairwise⟩,
          List.forall_mem_cons.2 ⟨Nat.le_refl _, bound⟩⟩
  | skip _ first _ hypothesis =>
      rcases ordered_cons_iff.1 ordered with ⟨before, others⟩
      rcases hypothesis others with ⟨pairwise, bound⟩
      exact
        ⟨pairwise,
          fun token member =>
            Nat.le_trans before (bound token member)⟩
  | placeholder _ _ hypothesis =>
      rcases hypothesis ordered with ⟨pairwise, bound⟩
      exact
        ⟨List.pairwise_cons.2 ⟨bound, pairwise⟩,
          List.forall_mem_cons.2 ⟨Nat.le_refl _, bound⟩⟩
  | report _ _ _ hypothesis => exact hypothesis ordered

/-! ## Emissions without a limit -/

/-- Without a limit, all tokens up to some place are emitted. -/
theorem source_eq
    (emission :
      Emission none sourceEnd source emitted faults rest)
    (present : ∀ token ∈ source, token.isPresent = true) :
    source = emitted.filter Token.isPresent ++ rest := by
  induction emission with
  | stop rest => rfl
  | take token _ hypothesis =>
      rcases List.forall_mem_cons.1 present with ⟨first, others⟩
      rw [List.filter_cons_of_pos first, List.cons_append,
        ← hypothesis others]
  | absent _ _ hypothesis => exact hypothesis present
  | skip limited => contradiction
  | placeholder limited => contradiction
  | report limited => contradiction

/--
Without a limit, the faults are the missing tokens that are emitted, one by
one and in their order.
-/
theorem map_absentToken?
    (emission :
      Emission none sourceEnd source emitted faults rest)
    (present : ∀ token ∈ source, token.isPresent = true) :
    faults.map Diagnostic.absentToken? =
      (emitted.filter Token.isMissing).map some := by
  induction emission with
  | stop rest => rfl
  | take token _ hypothesis =>
      rcases List.forall_mem_cons.1 present with ⟨first, others⟩
      have found : ¬ token.isMissing = true := by
        simpa [Token.isPresent] using first
      rw [List.filter_cons_of_neg found, hypothesis others]
  | absent _ _ hypothesis =>
      exact congrArg (some _ :: ·) (hypothesis present)
  | skip limited => contradiction
  | placeholder limited => contradiction
  | report limited => contradiction

/-- A missing token is where the first token is that is not emitted yet. -/
theorem position_of_isMissing
    {before after : List Token}
    {token : Token}
    (emission :
      Emission none sourceEnd source emitted faults rest)
    (present : ∀ token ∈ source, token.isPresent = true)
    (split : emitted = before ++ token :: after)
    (missing : token.isMissing = true) :
    token.position =
      (nextToken sourceEnd
        (source.drop
          (before.filter Token.isPresent).length)).position := by
  induction emission generalizing before with
  | stop rest => simp at split
  | take first _ hypothesis =>
      rcases List.forall_mem_cons.1 present with ⟨found, others⟩
      cases before with
      | nil =>
          obtain ⟨rfl, -⟩ := List.cons.inj split
          simp [Token.isPresent, missing] at found
      | cons head before =>
          obtain ⟨rfl, shorter⟩ := List.cons.inj split
          rw [List.filter_cons_of_pos found]
          exact hypothesis others shorter
  | absent _ _ hypothesis =>
      cases before with
      | nil =>
          obtain ⟨rfl, -⟩ := List.cons.inj split
          rfl
      | cons head before =>
          obtain ⟨rfl, shorter⟩ := List.cons.inj split
          rw [List.filter_cons_of_neg (by simp [Token.isPresent])]
          exact hypothesis present shorter
  | skip limited => contradiction
  | placeholder limited => contradiction
  | report limited => contradiction

end Emission

end Grammar

end Abacus
