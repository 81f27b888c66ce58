import Abacus.Proofs.Grammar.Reading

/-!
# Tokens that are not taken

A reading sees the kind and the position of its next token, and nothing of what
is behind.  So what it reads does not depend on the tokens that it leaves over,
as long as the first of these is of the same kind and in the same place.

Two cursors agree up to some tokens if they have the same tokens before these
and have found the same so far.  Every step keeps this, unless it takes one of
the tokens that may differ.  Tokens are never put back, so a reading that leaves
them over has no such step.
-/

namespace Abacus.Grammar

variable
    {limit : Limit}
    {ahead others : List Token}

/--
Whether some tokens look like others to a reading that does not take them.
-/
inductive LooksLike : List Token → List Token → Prop where
  | intro
      {token twin : Token}
      {behind behindTwin : List Token}
      (kind : twin.kind = token.kind)
      (position : twin.position = token.position) :
      LooksLike (token :: behind) (twin :: behindTwin)

theorem LooksLike.length_pos
    (alike : LooksLike ahead others) :
    0 < ahead.length := by
  cases alike
  exact Nat.succ_pos _

/-! ## Cursors -/

namespace Cursor

/--
Whether two cursors differ in nothing but the tokens behind some place: the one
has the first tokens there, and the other has the second.
-/
structure AgreesUpTo
    (ahead others : List Token)
    (cursor twin : Cursor) :
    Prop where
  rest :
    ∃ shared,
      cursor.rest = shared ++ ahead ∧ twin.rest = shared ++ others
  depth : twin.depth = cursor.depth
  crossings : twin.crossings = cursor.crossings
  faults : twin.faults = cursor.faults

variable {cursor twin : Cursor}

/-- The next tokens of cursors that agree look alike. -/
theorem AgreesUpTo.current_alike
    (agrees : cursor.AgreesUpTo ahead others twin)
    (alike : LooksLike ahead others) :
    twin.current.kind = cursor.current.kind ∧
      twin.current.position = cursor.current.position := by
  obtain ⟨shared, shape, twinShape⟩ := agrees.rest
  unfold current
  rw [shape, twinShape]
  cases shared with
  | nil =>
      cases alike with
      | intro kind position => exact ⟨kind, position⟩
  | cons token shared => exact ⟨rfl, rfl⟩

/-- In front of the place the next tokens are the same. -/
theorem AgreesUpTo.exists_rest_eq_cons
    (agrees : cursor.AgreesUpTo ahead others twin)
    (before : ahead.length < cursor.rest.length) :
    twin.current = cursor.current ∧
      ∃ shared,
        cursor.rest = cursor.current :: (shared ++ ahead) ∧
          twin.rest = cursor.current :: (shared ++ others) := by
  obtain ⟨shared, shape, twinShape⟩ := agrees.rest
  unfold current
  rw [shape] at before
  rw [shape, twinShape]
  cases shared with
  | nil => exact (Nat.lt_irrefl _ before).elim
  | cons token shared => exact ⟨rfl, shared, rfl, rfl⟩

theorem AgreesUpTo.advance
    (agrees : cursor.AgreesUpTo ahead others twin)
    (before : ahead.length < cursor.rest.length) :
    cursor.advance.AgreesUpTo ahead others twin.advance where
  rest := by
    obtain ⟨-, shared, shape, twinShape⟩ :=
      agrees.exists_rest_eq_cons before
    refine ⟨shared, ?_, ?_⟩
    · rw [Cursor.advance, shape]
      rfl
    · rw [Cursor.advance, twinShape]
      rfl
  depth := agrees.depth
  crossings := agrees.crossings
  faults := agrees.faults

theorem AgreesUpTo.enterGroup
    (agrees : cursor.AgreesUpTo ahead others twin) :
    cursor.enterGroup.AgreesUpTo ahead others twin.enterGroup :=
  { agrees with depth := congrArg (· + 1) agrees.depth }

theorem AgreesUpTo.leaveGroup
    (agrees : cursor.AgreesUpTo ahead others twin) :
    cursor.leaveGroup.AgreesUpTo ahead others twin.leaveGroup :=
  { agrees with depth := congrArg (· - 1) agrees.depth }

theorem AgreesUpTo.report
    (agrees : cursor.AgreesUpTo ahead others twin)
    (fault : Diagnostic) :
    (cursor.report fault).AgreesUpTo ahead others
      (twin.report fault) :=
  { agrees with faults := congrArg (fault :: ·) agrees.faults }

theorem AgreesUpTo.cross
    (agrees : cursor.AgreesUpTo ahead others twin)
    (bound : Nat)
    (token : Token) :
    (cursor.cross bound token).AgreesUpTo ahead others
      (twin.cross bound token) where
  rest := agrees.rest
  depth := agrees.depth
  crossings := congrArg (token :: ·) agrees.crossings
  faults := by
    have same : twin.isTooDeep = cursor.isTooDeep := by
      rw [isTooDeep, isTooDeep, agrees.crossings]
    unfold Cursor.cross
    rw [same, agrees.faults]

/-- A token that is asked for is found in both or missing in both. -/
theorem AgreesUpTo.expect
    {expected : Token.Kind}
    (agrees : cursor.AgreesUpTo ahead others twin)
    (alike : LooksLike ahead others)
    (untaken : ahead <:+ (cursor.expect expected).2.rest) :
    (twin.expect expected).1 = (cursor.expect expected).1 ∧
      (cursor.expect expected).2.AgreesUpTo ahead others
        (twin.expect expected).2 := by
  obtain ⟨kind, position⟩ := agrees.current_alike alike
  rcases cursor.expect_cases expected with
    ⟨found, taken⟩ | ⟨other, absent⟩
  · have twinTaken :
        twin.expect expected = (twin.current, twin.advance) :=
      if_pos (kind.trans found)
    rw [taken] at untaken
    have before : ahead.length < cursor.rest.length := by
      have left := untaken.length_le
      have positive := alike.length_pos
      simp only [Cursor.advance, List.length_tail] at left
      omega
    rw [taken, twinTaken]
    exact
      ⟨(agrees.exists_rest_eq_cons before).1, agrees.advance before⟩
  · have twinAbsent :
        twin.expect expected =
          (Token.missing expected twin.current.position,
            twin.report
              (.unexpectedToken twin.current.kind expected
                twin.current.position)) :=
      if_neg (kind ▸ other)
    rw [absent, twinAbsent, kind, position]
    exact ⟨rfl, agrees.report _⟩

/--
A group that ends before some tokens does not depend on them.  It has at least one
token itself.
-/
theorem exists_afterGroups_eq_append
    {opened : Nat}
    {shared : List Token}
    (nonempty : 0 < ahead.length)
    (untaken : ahead <:+ afterGroups opened (shared ++ ahead))
    (others : List Token) :
    shared ≠ [] ∧
      ∃ left,
        afterGroups opened (shared ++ ahead) = left ++ ahead ∧
          afterGroups opened (shared ++ others) = left ++ others := by
  induction shared generalizing opened with
  | nil =>
      cases ahead with
      | nil => contradiction
      | cons token behind =>
          have longer := untaken.length_le
          rw [List.nil_append, afterGroups] at longer
          split at longer
          · exact (Nat.lt_irrefl _ longer).elim
          · have left := length_afterGroups_le
              (openAfter opened token) behind
            exact (Nat.lt_irrefl _ (Nat.lt_of_lt_of_le longer left)).elim
  | cons token shared hypothesis =>
      refine ⟨List.cons_ne_nil _ _, ?_⟩
      rw [List.cons_append, afterGroups] at untaken ⊢
      rw [List.cons_append, afterGroups]
      split
      · exact ⟨shared, rfl, rfl⟩
      · rename_i unclosed
        rw [if_neg unclosed] at untaken
        exact (hypothesis untaken).2

theorem AgreesUpTo.skipGroup
    (agrees : cursor.AgreesUpTo ahead others twin)
    (alike : LooksLike ahead others)
    (untaken : ahead <:+ cursor.skipGroup.rest) :
    ahead.length < cursor.rest.length ∧
      cursor.skipGroup.AgreesUpTo ahead others twin.skipGroup := by
  obtain ⟨shared, shape, twinShape⟩ := agrees.rest
  rw [Cursor.skipGroup, shape] at untaken
  obtain ⟨nonempty, left, behind, behindTwin⟩ :=
    exists_afterGroups_eq_append alike.length_pos untaken others
  constructor
  · have positive := List.length_pos_iff.2 nonempty
    rw [shape, List.length_append]
    omega
  · refine { agrees with rest := ⟨left, ?_, ?_⟩ }
    · rw [Cursor.skipGroup, shape]
      exact behind
    · rw [Cursor.skipGroup, twinShape]
      exact behindTwin

end Cursor

/-! ## Readings -/

namespace Parsed

/-- Whether the same was read, and the places behind it agree. -/
structure AgreesUpTo
    (ahead others : List Token)
    (parsed twin : Parsed) :
    Prop where
  expression : twin.expression = parsed.expression
  height : twin.height = parsed.height
  cursor : parsed.cursor.AgreesUpTo ahead others twin.cursor

variable
    {cursor twin : Cursor}
    {left right leftTwin rightTwin : Parsed}

theorem agreesUpTo_literal
    (agrees : cursor.AgreesUpTo ahead others twin)
    (alike : LooksLike ahead others)
    (untaken : ahead <:+ (literal cursor).cursor.rest) :
    (literal cursor).AgreesUpTo ahead others (literal twin) := by
  obtain ⟨token, behind⟩ := agrees.expect alike untaken
  exact ⟨congrArg Expression.number token, rfl, behind⟩

theorem agreesUpTo_skipped
    {bound : Nat}
    (agrees : cursor.AgreesUpTo ahead others twin)
    (alike : LooksLike ahead others)
    (untaken : ahead <:+ (skipped bound cursor).cursor.rest) :
    (skipped bound cursor).AgreesUpTo ahead others
      (skipped bound twin) := by
  have crossed := agrees.cross bound cursor.current
  obtain ⟨before, behind⟩ := crossed.skipGroup alike untaken
  have opening := (agrees.exists_rest_eq_cons before).1
  unfold skipped
  rw [opening]
  exact ⟨rfl, rfl, behind⟩

theorem AgreesUpTo.enclose
    (opening : Token)
    (agrees : left.AgreesUpTo ahead others leftTwin)
    (alike : LooksLike ahead others)
    (untaken : ahead <:+ (enclose opening left).cursor.rest) :
    (enclose opening left).AgreesUpTo ahead others
      (enclose opening leftTwin) := by
  obtain ⟨closing, behind⟩ :=
    agrees.cursor.leaveGroup.expect alike untaken
  refine ⟨?_, congrArg (· + 1) agrees.height, behind⟩
  simp only [Parsed.enclose, agrees.expression, closing]

theorem AgreesUpTo.link
    (limit : Limit)
    (operator : Token)
    (leftAgrees : left.AgreesUpTo ahead others leftTwin)
    (rightAgrees : right.AgreesUpTo ahead others rightTwin) :
    (link limit left operator right).AgreesUpTo ahead others
      (link limit leftTwin operator rightTwin) := by
  have height :
      max leftTwin.height rightTwin.height =
        max left.height right.height := by
    rw [leftAgrees.height, rightAgrees.height]
  cases exceeded :
      limit.exceededBy? (max left.height right.height + 1) with
  | none =>
      rw [link_of_exceededBy?_eq_none _ exceeded]
      rw [← height] at exceeded
      rw [link_of_exceededBy?_eq_none _ exceeded, height,
        leftAgrees.expression, rightAgrees.expression]
      exact ⟨rfl, rfl, rightAgrees.cursor⟩
  | some bound =>
      rw [link_of_exceededBy?_eq_some _ exceeded]
      rw [← height] at exceeded
      rw [link_of_exceededBy?_eq_some _ exceeded]
      exact
        { leftAgrees with
          cursor := rightAgrees.cursor.cross bound operator }

end Parsed

/--
Readings at cursors that agree read the same, if they leave the tokens over that
may differ.
-/
theorem agrees_reading
    (alike : LooksLike ahead others)
    (limit : Limit) :
    (∀ (rank : Rank) (cursor twin : Cursor),
      cursor.AgreesUpTo ahead others twin →
        ahead <:+ (read limit rank cursor).cursor.rest →
          (read limit rank cursor).AgreesUpTo ahead others
            (read limit rank twin)) ∧
      ∀ (rank : Rank) (left twin : Parsed),
        left.IsMeasured →
          left.AgreesUpTo ahead others twin →
            ahead <:+ (readChain limit rank left).cursor.rest →
              (readChain limit rank left).AgreesUpTo ahead others
                (readChain limit rank twin) := by
  apply reading_induction
  constructor
  case chain =>
    intro rank cursor first chain twin agrees untaken
    have measured := (follows_read limit rank.operand cursor).measured
    have links := (follows_readChain limit rank measured).precedes
    rw [read_eq_readChain] at untaken
    rw [read_eq_readChain, read_eq_readChain limit rank twin]
    exact
      chain _ measured
        (first twin agrees (untaken.trans links.rest)) untaken
  case number =>
    intro cursor closed twin agrees untaken
    obtain ⟨kind, -⟩ := agrees.current_alike alike
    rw [read_number limit closed] at untaken
    rw [read_number limit closed, read_number limit (kind ▸ closed)]
    exact Parsed.agreesUpTo_literal agrees alike untaken
  case skipped =>
    intro cursor bound opens exceeded twin agrees untaken
    obtain ⟨kind, -⟩ := agrees.current_alike alike
    have twinOpens := kind.trans opens
    have twinExceeded :
        limit.exceededBy? (twin.depth + 1) = some bound := by
      rw [agrees.depth]
      exact exceeded
    rw [read_skipped opens exceeded] at untaken
    rw [read_skipped opens exceeded,
      read_skipped twinOpens twinExceeded]
    exact Parsed.agreesUpTo_skipped agrees alike untaken
  case group =>
    intro cursor opens within inner twin agrees untaken
    obtain ⟨kind, -⟩ := agrees.current_alike alike
    have twinOpens := kind.trans opens
    have twinWithin : limit.exceededBy? (twin.depth + 1) = none := by
      rw [agrees.depth]
      exact within
    rw [read_group opens within] at untaken
    have term :=
      follows_read limit .term cursor.advance.enterGroup
    have left :=
      untaken.trans
        (Parsed.precedes_enclose cursor.current
          (read limit .term cursor.advance.enterGroup)).rest
    have before : ahead.length < cursor.rest.length :=
      Nat.lt_of_le_of_lt
        (left.trans term.precedes.rest).length_le
        (Cursor.length_rest_advance_lt (by simp [opens]))
    have same := (agrees.exists_rest_eq_cons before).1
    rw [read_group opens within, read_group twinOpens twinWithin, same]
    exact
      (inner _ (agrees.advance before).enterGroup left).enclose _ alike
        untaken
  case link =>
    intro rank left joins right chain twin measured agrees untaken
    obtain ⟨kind, -⟩ := agrees.cursor.current_alike alike
    have twinJoins :
        rank.isJoinedBy twin.cursor.current.kind = true := by
      rw [kind]
      exact joins
    have operand :=
      follows_read limit rank.operand left.cursor.advance
    have linked :=
      measured.link operand.measured limit left.cursor.current
    have links := (follows_readChain limit rank linked).precedes
    rw [readChain_link limit joins] at untaken
    have behind := untaken.trans links.rest
    rw [Parsed.rest_link] at behind
    have before : ahead.length < left.cursor.rest.length := by
      refine
        Nat.lt_of_le_of_lt
          (behind.trans operand.precedes.rest).length_le
          (Cursor.length_rest_advance_lt ?_)
      intro finished
      simp [finished] at joins
    have same := (agrees.cursor.exists_rest_eq_cons before).1
    rw [readChain_link limit joins, readChain_link limit twinJoins, same]
    exact
      chain _ linked
        (agrees.link limit _
          (right _ (agrees.cursor.advance before) behind))
        untaken
  case stop =>
    intro rank left stops twin measured agrees untaken
    obtain ⟨kind, -⟩ := agrees.cursor.current_alike alike
    have twinStops :
        rank.isJoinedBy twin.cursor.current.kind = false := by
      rw [kind]
      exact stops
    rw [readChain_stop limit stops, readChain_stop limit twinStops]
    exact agrees

theorem agrees_read
    {rank : Rank}
    {cursor twin : Cursor}
    (agrees : cursor.AgreesUpTo ahead others twin)
    (alike : LooksLike ahead others)
    (untaken : ahead <:+ (read limit rank cursor).cursor.rest) :
    (read limit rank cursor).AgreesUpTo ahead others
      (read limit rank twin) :=
  (agrees_reading alike limit).1 rank cursor twin agrees untaken

end Abacus.Grammar
