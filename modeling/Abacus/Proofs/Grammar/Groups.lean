import Abacus.Proofs.Grammar.Recognition

/-!
# Groups that are skipped

A group that would be one too many is skipped without being read.  All that
matters then are the parentheses: a counter goes up at each that opens a group
and down at each that closes one, and the group ends where the counter is back
at zero.

The tokens that are skipped are the fewest, but not none, among which as many
parentheses close as open, or all that are left if there are no such tokens.
Before their end more have been opened than closed.  So the counter, which
cannot go below zero, never has to, and it is exact all along.
-/

namespace Abacus

namespace Token

/-- The number of groups that some tokens open. -/
def openings (tokens : List Token) : Nat :=
  tokens.countP fun token => token.kind = .openParen

/-- The number of groups that some tokens close. -/
def closings (tokens : List Token) : Nat :=
  tokens.countP fun token => token.kind = .closeParen

variable
    {token : Token}
    {tokens : List Token}

theorem openings_cons :
    openings (token :: tokens) =
      openings [token] + openings tokens := by
  rw [← List.singleton_append, openings, List.countP_append]
  rfl

theorem closings_cons :
    closings (token :: tokens) =
      closings [token] + closings tokens := by
  rw [← List.singleton_append, closings, List.countP_append]
  rfl

theorem count_of_opens
    (opens : token.kind = .openParen) :
    openings [token] = 1 ∧ closings [token] = 0 := by
  simp [openings, closings, opens]

/--
Whether some tokens are the first ones of others, but not none, and close as
many groups as they open.
-/
structure IsBalancedFront (tokens front : List Token) : Prop where
  isFront : front <+: tokens
  nonempty : front ≠ []
  balanced : openings front = closings front

end Token

namespace Grammar

open Token

namespace Cursor

/-! ## The counter -/

section Counter

variable
    {opened : Nat}
    {token : Token}
    {tokens others skipped : List Token}

/-- A token is counted exactly unless it closes a group that is not open. -/
theorem openAfter_add_closings
    (counted : token.kind = .closeParen → 0 < opened) :
    openAfter opened token + closings [token] =
      opened + openings [token] := by
  unfold openAfter openings closings
  cases kind : token.kind with
  | closeParen =>
      have positive := counted kind
      simp only [List.countP_singleton, kind]
      exact Nat.sub_add_cancel positive
  | _ => simp [kind]

/-- So are many tokens, if none of them closes a group that is not open. -/
theorem foldl_openAfter_add_closings
    (counted :
      ∀ before token,
        before ++ [token] <+: tokens →
          token.kind = .closeParen →
            closings before < opened + openings before) :
    tokens.foldl openAfter opened + closings tokens =
      opened + openings tokens := by
  induction tokens generalizing opened with
  | nil => rfl
  | cons token others hypothesis =>
      have first :
          openAfter opened token + closings [token] =
            opened + openings [token] :=
        openAfter_add_closings
          (counted [] token (List.prefix_append [token] others))
      have behind :
          others.foldl openAfter (openAfter opened token) +
              closings others =
            openAfter opened token + openings others := by
        apply hypothesis
        intro before next isFront closes
        have fewer :=
          counted (token :: before) next
            (List.cons_prefix_cons.2 ⟨rfl, isFront⟩) closes
        rw [closings_cons, openings_cons] at fewer
        omega
      rw [List.foldl_cons, closings_cons, openings_cons]
      omega

/--
What is known of the tokens that are skipped while some groups are open: up to
their end more groups have been opened than closed, and there either all groups
are closed or no tokens are left.
-/
structure SkipsOpen
    (opened : Nat)
    (tokens skipped : List Token) :
    Prop where
  isFront : skipped <+: tokens
  before :
    ∀ front,
      front <+: skipped →
        front ≠ skipped →
          closings front < opened + openings front
  ended :
    closings skipped = opened + openings skipped ∨
      skipped = tokens ∧
        closings skipped < opened + openings skipped

/-- No token is skipped if no group is open. -/
theorem skipsOpen_zero (tokens : List Token) :
    SkipsOpen 0 tokens [] where
  isFront := List.nil_prefix
  before := by
    intro front isFront shorter
    exact (shorter (List.prefix_nil.1 isFront)).elim
  ended := Or.inl rfl

/-- No token is skipped if none is left. -/
theorem skipsOpen_nil
    (positive : 0 < opened) :
    SkipsOpen opened [] [] where
  isFront := List.nil_prefix
  before := by
    intro front isFront shorter
    exact (shorter (List.prefix_nil.1 isFront)).elim
  ended := Or.inr ⟨rfl, positive⟩

/-- Inside a group the next token is skipped before the others are. -/
theorem SkipsOpen.cons
    (positive : 0 < opened)
    (skips : SkipsOpen (openAfter opened token) others skipped) :
    SkipsOpen opened (token :: others) (token :: skipped) := by
  have first :
      openAfter opened token + closings [token] =
        opened + openings [token] :=
    openAfter_add_closings fun _ => positive
  constructor
  case isFront => exact List.cons_prefix_cons.2 ⟨rfl, skips.isFront⟩
  case before =>
    intro front isFront shorter
    rcases List.prefix_cons_iff.1 isFront with
      rfl | ⟨more, rfl, isMore⟩
    · exact positive
    · have fewer :=
        skips.before more isMore fun same =>
          shorter (congrArg (token :: ·) same)
      rw [closings_cons, openings_cons]
      omega
  case ended =>
    rw [closings_cons, openings_cons]
    rcases skips.ended with balanced | ⟨rfl, fewer⟩
    · left
      omega
    · right
      exact ⟨rfl, by omega⟩

/-- What is left behind the open groups is what is not skipped. -/
theorem exists_skipsOpen_afterGroups
    (tokens : List Token)
    (positive : 0 < opened) :
    ∃ skipped,
      tokens = skipped ++ afterGroups opened tokens ∧
        SkipsOpen opened tokens skipped := by
  induction tokens generalizing opened with
  | nil => exact ⟨[], rfl, skipsOpen_nil positive⟩
  | cons token others hypothesis =>
      by_cases closed : openAfter opened token = 0
      · have last : SkipsOpen (openAfter opened token) others [] := by
          rw [closed]
          exact skipsOpen_zero others
        rw [afterGroups, if_pos closed]
        exact ⟨[token], rfl, last.cons positive⟩
      · obtain ⟨skipped, shape, skips⟩ :=
          hypothesis (Nat.pos_of_ne_zero closed)
        rw [afterGroups, if_neg closed]
        exact
          ⟨token :: skipped, congrArg (token :: ·) shape,
            skips.cons positive⟩

end Counter

/-! ## The group at a cursor -/

/-- What is known of the tokens that are skipped where a group begins. -/
structure SkipsGroup (tokens skipped : List Token) : Prop where
  isFront : skipped <+: tokens
  begins :
    ∃ opening others,
      skipped = opening :: others ∧ opening.kind = .openParen
  before :
    ∀ front,
      front <+: skipped →
        front ≠ [] →
          front ≠ skipped →
            closings front < openings front
  ended :
    openings skipped = closings skipped ∨
      skipped = tokens ∧ closings skipped < openings skipped

variable
    {tokens skipped front : List Token}

/-- A group goes on as long as what its first token opens. -/
theorem SkipsOpen.group
    {opening : Token}
    {others : List Token}
    (opens : opening.kind = .openParen)
    (skips : SkipsOpen 1 others skipped) :
    SkipsGroup (opening :: others) (opening :: skipped) := by
  obtain ⟨opened, unclosed⟩ := count_of_opens opens
  constructor
  case isFront => exact List.cons_prefix_cons.2 ⟨rfl, skips.isFront⟩
  case begins => exact ⟨opening, skipped, rfl, opens⟩
  case before =>
    intro front isFront nonempty shorter
    rcases List.prefix_cons_iff.1 isFront with
      rfl | ⟨more, rfl, isMore⟩
    · exact (nonempty rfl).elim
    · have fewer :=
        skips.before more isMore fun same =>
          shorter (congrArg (opening :: ·) same)
      rw [closings_cons, openings_cons]
      omega
  case ended =>
    rw [closings_cons, openings_cons, opened, unclosed, Nat.zero_add]
    rcases skips.ended with balanced | ⟨rfl, fewer⟩
    · exact Or.inl balanced.symm
    · exact Or.inr ⟨rfl, fewer⟩

/-- What is left behind the group at a cursor is what is not skipped. -/
theorem exists_skipsGroup
    {cursor : Cursor}
    (opens : cursor.current.kind = .openParen) :
    ∃ skipped,
      cursor.rest = skipped ++ cursor.skipGroup.rest ∧
        SkipsGroup cursor.rest skipped := by
  have unfinished : cursor.current.kind ≠ .endOfFile := by
    simp [opens]
  have shape := cursor.rest_eq_current_cons unfinished
  have opened : openAfter 0 cursor.current = 1 := by
    simp [openAfter, opens]
  have left :
      cursor.skipGroup.rest = afterGroups 1 cursor.advance.rest := by
    rw [skipGroup, shape, afterGroups, opened, if_neg Nat.one_ne_zero]
  obtain ⟨skipped, split, skips⟩ :=
    exists_skipsOpen_afterGroups cursor.advance.rest Nat.one_pos
  refine ⟨cursor.current :: skipped, ?_, ?_⟩
  · rw [left, List.cons_append, ← split]
    exact shape
  · rw [shape]
    exact skips.group opens

/-- No tokens that are balanced end before a group does. -/
theorem SkipsGroup.not_isBalancedFront
    (skips : SkipsGroup tokens skipped)
    (isFront : front <+: skipped)
    (shorter : front ≠ skipped) :
    ¬ IsBalancedFront tokens front := by
  intro balancedFront
  have fewer :=
    skips.before front isFront balancedFront.nonempty shorter
  have balanced := balancedFront.balanced
  omega

/--
A group is the shortest balanced front of the tokens, or all of the tokens if
they have none.
-/
theorem SkipsGroup.shortest_or_all
    (skips : SkipsGroup tokens skipped) :
    (IsBalancedFront tokens skipped ∧
        ∀ front,
          IsBalancedFront tokens front →
            skipped.length ≤ front.length) ∨
      (skipped = tokens ∧
        ∀ front, ¬ IsBalancedFront tokens front) := by
  obtain ⟨opening, others, begun, opens⟩ := skips.begins
  rcases skips.ended with balanced | ⟨all, fewer⟩
  · left
    refine ⟨⟨skips.isFront, ?_, balanced⟩, ?_⟩
    · rw [begun]
      exact List.cons_ne_nil opening others
    · intro front balancedFront
      refine Nat.le_of_not_lt fun shorter => ?_
      have isFront :=
        List.prefix_of_prefix_length_le balancedFront.isFront
          skips.isFront (Nat.le_of_lt shorter)
      refine skips.not_isBalancedFront isFront ?_ balancedFront
      rintro rfl
      exact Nat.lt_irrefl _ shorter
  · right
    refine ⟨all, ?_⟩
    intro front balancedFront
    have isFront := balancedFront.isFront
    rw [← all] at isFront
    by_cases whole : front = skipped
    · have balanced := balancedFront.balanced
      rw [whole] at balanced
      omega
    · exact skips.not_isBalancedFront isFront whole balancedFront

/--
Behind each token of a group, the counter has as many groups as are open.  The first
token closes none, and every other one has an open group to close.
-/
theorem SkipsGroup.foldl_openAfter
    (skips : SkipsGroup tokens skipped)
    (isFront : front <+: skipped) :
    front.foldl openAfter 0 + closings front = openings front := by
  rw [← Nat.zero_add (openings front)]
  apply foldl_openAfter_add_closings
  intro before token isBefore closes
  have inside := isBefore.trans isFront
  rw [Nat.zero_add]
  cases before with
  | nil =>
      obtain ⟨opening, others, begun, opens⟩ := skips.begins
      rw [begun] at inside
      obtain ⟨rfl, -⟩ := List.cons_prefix_cons.1 inside
      rw [opens] at closes
      contradiction
  | cons first before =>
      refine
        skips.before _ ((List.prefix_append _ _).trans inside)
          (List.cons_ne_nil first before) ?_
      intro whole
      have bounded := inside.length_le
      rw [← whole, List.length_append] at bounded
      exact Nat.not_succ_le_self _ bounded

/-! ## Places in a buffer -/

/-- Whether a cursor is where so many tokens of a buffer have been taken. -/
structure IsAt
    (buffer : TokenBuffer)
    (index : Nat)
    (cursor : Cursor) :
    Prop where
  index_le : index ≤ buffer.tokens.length
  rest : cursor.rest = buffer.tokens.drop index
  sourceEnd : cursor.sourceEnd = buffer.sourceEnd

/-- Tokens that are taken are counted. -/
theorem IsAt.of_taken
    {buffer : TokenBuffer}
    {index : Nat}
    {cursor after : Cursor}
    {taken : List Token}
    (place : cursor.IsAt buffer index)
    (split : cursor.rest = taken ++ after.rest)
    (sameEnd : after.sourceEnd = cursor.sourceEnd) :
    after.IsAt buffer (index + taken.length) := by
  have whole := congrArg List.length place.rest
  rw [split, List.length_append, List.length_drop] at whole
  have bounded := place.index_le
  constructor
  case index_le => omega
  case rest =>
    rw [← List.drop_drop, ← place.rest, split, List.drop_left]
  case sourceEnd => exact sameEnd.trans place.sourceEnd

/--
What is known of the tokens that are skipped between two places, if the first
is in front of a group.
-/
structure SkipsOneGroup
    (buffer : TokenBuffer)
    (index : Nat)
    (cursor : Cursor)
    (skipped : List Token)
    (after : Cursor) :
    Prop where
  isFront : skipped <+: cursor.rest
  place : after.IsAt buffer (index + skipped.length)
  /--
  The tokens are the shortest balanced front of those that are left.  If these
  have none, the place behind them is the end of the buffer.
  -/
  shortest :
    (IsBalancedFront cursor.rest skipped ∧
        ∀ front,
          IsBalancedFront cursor.rest front →
            skipped.length ≤ front.length) ∨
      (index + skipped.length = buffer.tokens.length ∧
        ∀ front, ¬ IsBalancedFront cursor.rest front)
  /-- Before their end they open more groups than they close. -/
  unclosed :
    ∀ front,
      front <+: skipped →
        front ≠ [] →
          front ≠ skipped →
            closings front < openings front
  /-- The counter of open groups is exact behind each of them. -/
  counted :
    ∀ front,
      front <+: skipped →
        front.foldl openAfter 0 + closings front = openings front
  depth : after.depth = cursor.depth
  isTooDeep : after.isTooDeep = cursor.isTooDeep
  diagnostics : after.diagnostics = cursor.diagnostics

/--
Where a group begins, exactly this group is skipped: the fewest tokens, but not
none, that have as many closing parentheses as opening ones, or everything up to
the end of the buffer if there are no such tokens.
-/
theorem skipGroup_skips_one_group
    {buffer : TokenBuffer}
    {index : Nat}
    {cursor : Cursor}
    (place : cursor.IsAt buffer index)
    (opens : cursor.current.kind = .openParen) :
    ∃ skipped,
      cursor.SkipsOneGroup buffer index skipped cursor.skipGroup := by
  obtain ⟨skipped, split, skips⟩ := exists_skipsGroup opens
  refine ⟨skipped, ?_⟩
  constructor
  case isFront => exact skips.isFront
  case place => exact place.of_taken split rfl
  case shortest =>
    rcases skips.shortest_or_all with shortest | ⟨all, unbalanced⟩
    · exact Or.inl shortest
    · right
      refine ⟨?_, unbalanced⟩
      rw [all, place.rest, List.length_drop]
      exact Nat.add_sub_cancel' place.index_le
  case unclosed => exact skips.before
  case counted => exact fun _ => skips.foldl_openAfter
  case depth => rfl
  case isTooDeep => rfl
  case diagnostics => rfl

/-- The place in front of the group in `1*((2)+3)-4`, inside 256 others. -/
def beforeGroup : Cursor :=
  { Cursor.start (.ofSource "1*((2)+3)-4") with
    rest := (TokenBuffer.ofSource "1*((2)+3)-4").tokens.drop 2
    depth := 256 }

theorem skipGroup_skips_one_group_sum :
    beforeGroup.IsAt (.ofSource "1*((2)+3)-4") 2 ∧
      beforeGroup.current.kind = .openParen ∧
      ∃ skipped,
        beforeGroup.SkipsOneGroup (.ofSource "1*((2)+3)-4") 2 skipped
          beforeGroup.skipGroup := by
  have place : beforeGroup.IsAt (.ofSource "1*((2)+3)-4") 2 :=
    ⟨by decide +kernel, rfl, rfl⟩
  have opens : beforeGroup.current.kind = .openParen := by
    decide +kernel
  exact ⟨place, opens, skipGroup_skips_one_group place opens⟩

end Cursor

end Grammar

end Abacus
