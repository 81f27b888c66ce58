import Abacus.Proofs.Grammar.Reading

/-!
# The nesting limit

An expression nests within a bound if no more groups than that are inside each
other and no chain of operators in it is taller.  A reading under a limit and
a reading without one agree as long as nothing goes past the limit:

* a limited reading that crosses no limit is the unlimited one, and what it
  reads nests within the limit;
* if what an unlimited reading reads nests within a limit, then the reading
  under that limit is the same.

So a limited reading crosses the limit exactly if the unlimited one reads
something that does not nest within it.
-/

namespace Abacus

/--
Whether an expression nests within a bound when it stands inside some groups
already.
-/
structure Expression.NestsWithin
    (bound depth : Nat)
    (expression : Expression) :
    Prop where
  groups : depth + expression.groupDepth ≤ bound
  chains :
    ∀ part ∈ expression.parts,
      part.nodeKind = .binary → part.height ≤ bound

namespace Expression

variable
    {bound depth : Nat}
    {left right inner : Expression}
    {literal opening operator closing : Token}

theorem nestsWithin_number_iff :
    (number literal).NestsWithin bound depth ↔ depth ≤ bound := by
  constructor
  · intro nests
    exact nests.groups
  · intro shallow
    refine ⟨shallow, ?_⟩
    intro part member joined
    rw [mem_parts_number] at member
    subst part
    contradiction

theorem nestsWithin_binary_iff :
    (binary left operator right).NestsWithin bound depth ↔
      left.NestsWithin bound depth ∧
        right.NestsWithin bound depth ∧
          max left.height right.height + 1 ≤ bound := by
  constructor
  · rintro ⟨groups, chains⟩
    simp only [groupDepth] at groups
    refine ⟨⟨by omega, ?_⟩, ⟨by omega, ?_⟩, ?_⟩
    · intro part member
      exact chains part (mem_parts_binary.2 (Or.inl member))
    · intro part member
      exact chains part (mem_parts_binary.2 (Or.inr (Or.inl member)))
    · exact chains _ (self_mem_parts _) rfl
  · rintro ⟨leftNests, rightNests, low⟩
    have leftGroups := leftNests.groups
    have rightGroups := rightNests.groups
    refine ⟨by simp only [groupDepth]; omega, ?_⟩
    intro part member joined
    rcases mem_parts_binary.1 member with member | member | rfl
    · exact leftNests.chains part member joined
    · exact rightNests.chains part member joined
    · exact low

theorem nestsWithin_parenthesized_iff :
    (parenthesized opening inner closing).NestsWithin bound depth ↔
      inner.NestsWithin bound (depth + 1) := by
  constructor
  · rintro ⟨groups, chains⟩
    simp only [groupDepth] at groups
    refine ⟨by omega, ?_⟩
    intro part member
    exact chains part (mem_parts_parenthesized.2 (Or.inl member))
  · rintro ⟨groups, chains⟩
    refine ⟨by simp only [groupDepth]; omega, ?_⟩
    intro part member joined
    rcases mem_parts_parenthesized.1 member with member | rfl
    · exact chains part member joined
    · contradiction

theorem NestsWithin.of_mem_parts
    {part whole : Expression}
    (nests : whole.NestsWithin bound depth)
    (member : part ∈ whole.parts) :
    part.NestsWithin bound depth where
  groups :=
    Nat.le_trans
      (Nat.add_le_add_left (groupDepth_le_of_mem_parts member) depth)
      nests.groups
  chains := fun inside insideMember =>
    nests.chains inside (parts_subset_of_mem_parts member insideMember)

/-- An expression that is no taller than a bound nests within it. -/
theorem nestsWithin_of_height_le
    {expression : Expression}
    (low : expression.height ≤ bound) :
    expression.NestsWithin bound 0 where
  groups := by
    have fewer := groupDepth_lt_height expression
    omega
  chains := fun _ member _ =>
    Nat.le_trans (height_le_of_mem_parts member) low

end Expression

namespace Grammar

theorem Limit.exceededBy?_some_eq_none_iff
    {bound level : Nat} :
    Limit.exceededBy? (some bound) level = none ↔
      level ≤ bound := by
  rw [Limit.exceededBy?_some]
  split <;> simp only [reduceCtorEq, false_iff, true_iff] <;> omega

variable {bound : Nat}

/-- A link without a limit is the limited one if its result nests. -/
theorem Parsed.link_eq_of_nestsWithin
    {depth : Nat}
    {left right : Parsed}
    {operator : Token}
    (leftMeasured : left.IsMeasured)
    (rightMeasured : right.IsMeasured)
    (nests :
      (link none left operator right).expression.NestsWithin bound
        depth) :
    right.expression.NestsWithin bound depth ∧
      link (some bound) left operator right =
        link none left operator right := by
  rcases Expression.nestsWithin_binary_iff.1 nests with
    ⟨_, rightNests, low⟩
  rw [← leftMeasured, ← rightMeasured] at low
  rw [link_of_exceededBy?_eq_none operator
    (Limit.exceededBy?_some_eq_none_iff.2 low)]
  exact ⟨rightNests, rfl⟩

/--
A reading under a limit is the unlimited reading if what the latter reads
nests within the limit.
-/
theorem limited_eq_of_nestsWithin (bound : Nat) :
    (∀ rank (cursor : Cursor),
      (read none rank cursor).expression.NestsWithin bound
          cursor.depth →
        read (some bound) rank cursor = read none rank cursor) ∧
      ∀ rank (left : Parsed),
        left.IsMeasured →
          (readChain none rank left).expression.NestsWithin bound
              left.cursor.depth →
            readChain (some bound) rank left =
              readChain none rank left := by
  apply reading_induction
  constructor
  case chain =>
    intro rank cursor first chain nests
    have followed := follows_read none rank.operand cursor
    rw [read_eq_readChain none rank cursor] at nests
    have firstNests :=
      nests.of_mem_parts (mem_parts_readChain none rank _)
    rw [read_eq_readChain (some bound) rank cursor,
      first firstNests, read_eq_readChain none rank cursor]
    rw [← followed.depth] at nests
    exact chain followed.measured nests
  case number =>
    intro cursor closed _
    rw [read_number _ closed, read_number _ closed]
  case skipped =>
    intro cursor other opens exceeded
    contradiction
  case group =>
    intro cursor opens within inner nests
    rw [read_group opens within] at nests ⊢
    have innerNests := Expression.nestsWithin_parenthesized_iff.1 nests
    have shallow := innerNests.groups
    rw [read_group opens
      (Limit.exceededBy?_some_eq_none_iff.2 (by omega)),
      inner innerNests]
  case link =>
    intro rank left joins right chain measured nests
    have followed :=
      follows_read none rank.operand left.cursor.advance
    have linkedMeasured :=
      measured.link followed.measured none left.cursor.current
    rw [readChain_link none joins] at nests ⊢
    have linkedNests :=
      nests.of_mem_parts (mem_parts_readChain none rank _)
    rcases
        Parsed.link_eq_of_nestsWithin measured followed.measured
          linkedNests with
      ⟨rightNests, linked⟩
    rw [readChain_link (some bound) joins, right rightNests, linked]
    refine chain linkedMeasured ?_
    rw [Parsed.depth_link, followed.depth]
    exact nests
  case stop =>
    intro rank left stops _ _
    rw [readChain_stop _ stops, readChain_stop _ stops]

theorem Cursor.crossings_cross_ne
    (cursor : Cursor)
    (bound : Nat)
    (token : Token) :
    (cursor.cross bound token).crossings ≠ cursor.crossings :=
  List.cons_ne_self token cursor.crossings

/-- A limited link that crosses no limit is the unlimited one, and it nests. -/
theorem Parsed.link_of_crossings_eq
    {depth : Nat}
    {left right : Parsed}
    {operator : Token}
    (leftMeasured : left.IsMeasured)
    (rightMeasured : right.IsMeasured)
    (leftNests : left.expression.NestsWithin bound depth)
    (rightNests : right.expression.NestsWithin bound depth)
    (same :
      (link (some bound) left operator right).cursor.crossings =
        right.cursor.crossings) :
    link none left operator right =
        link (some bound) left operator right ∧
      (link (some bound) left operator right).expression.NestsWithin
        bound depth := by
  cases exceeded :
      Limit.exceededBy? (some bound)
        (max left.height right.height + 1) with
  | some other =>
      rw [link_of_exceededBy?_eq_some operator exceeded] at same
      exact
        (Cursor.crossings_cross_ne right.cursor other operator
          same).elim
  | none =>
      have low := Limit.exceededBy?_some_eq_none_iff.1 exceeded
      rw [leftMeasured, rightMeasured] at low
      rw [link_of_exceededBy?_eq_none operator exceeded]
      exact
        ⟨rfl,
          Expression.nestsWithin_binary_iff.2
            ⟨leftNests, rightNests, low⟩⟩

/--
A limited reading that crosses no limit is the unlimited reading, and what it
reads nests within the limit.
-/
theorem unlimited_eq_of_crossings_eq (bound : Nat) :
    (∀ rank (cursor : Cursor),
      cursor.depth ≤ bound →
        (read (some bound) rank cursor).cursor.crossings =
            cursor.crossings →
          read none rank cursor = read (some bound) rank cursor ∧
            (read (some bound) rank cursor).expression.NestsWithin
              bound cursor.depth) ∧
      ∀ rank (left : Parsed),
        left.IsMeasured →
          left.expression.NestsWithin bound left.cursor.depth →
            (readChain (some bound) rank left).cursor.crossings =
                left.cursor.crossings →
              readChain none rank left =
                  readChain (some bound) rank left ∧
                (readChain (some bound) rank left).expression.NestsWithin
                  bound left.cursor.depth := by
  apply reading_induction
  constructor
  case chain =>
    intro rank cursor first chain shallow same
    have followed := follows_read (some bound) rank.operand cursor
    have chained :=
      follows_readChain (some bound) rank followed.measured
    rw [read_eq_readChain (some bound) rank cursor] at same
    rcases followed.precedes.crossings_eq chained.precedes same with
      ⟨firstSame, chainSame⟩
    rcases first shallow firstSame with ⟨firstEqual, firstNests⟩
    rw [← followed.depth] at firstNests
    rcases chain followed.measured firstNests chainSame with
      ⟨chainEqual, chainNests⟩
    rw [followed.depth] at chainNests
    rw [read_eq_readChain none rank cursor, firstEqual, chainEqual,
      read_eq_readChain (some bound) rank cursor]
    exact ⟨rfl, chainNests⟩
  case number =>
    intro cursor closed shallow _
    rw [read_number _ closed, read_number _ closed]
    exact ⟨rfl, Expression.nestsWithin_number_iff.2 shallow⟩
  case skipped =>
    intro cursor other opens exceeded _ same
    rw [read_skipped opens exceeded] at same
    exact
      (Cursor.crossings_cross_ne cursor other cursor.current
        same).elim
  case group =>
    intro cursor opens within inner _ same
    have deeper := Limit.exceededBy?_some_eq_none_iff.1 within
    rw [read_group opens within] at same ⊢
    have innerSame :
        (read (some bound) .term
            cursor.advance.enterGroup).cursor.crossings =
          cursor.advance.enterGroup.crossings :=
      (Parsed.crossings_enclose _ _).symm.trans same
    rcases inner deeper innerSame with ⟨innerEqual, innerNests⟩
    rw [read_group opens rfl, innerEqual]
    exact
      ⟨rfl, Expression.nestsWithin_parenthesized_iff.2 innerNests⟩
  case link =>
    intro rank left joins right chain measured nests same
    have followed :=
      follows_read (some bound) rank.operand left.cursor.advance
    have linkedMeasured :=
      measured.link followed.measured (some bound)
        left.cursor.current
    have chained :=
      follows_readChain (some bound) rank linkedMeasured
    rw [readChain_link (some bound) joins] at same ⊢
    obtain ⟨linkedSame, chainSame⟩ :=
      (followed.precedes.trans
        (Parsed.precedes_link _ _ _ _)).crossings_eq
          chained.precedes same
    obtain ⟨rightSame, linkSame⟩ :=
      followed.precedes.crossings_eq
        (Parsed.precedes_link _ _ _ _) linkedSame
    have shallow := nests.groups
    obtain ⟨rightEqual, rightNests⟩ :=
      right (Nat.le_trans (Nat.le_add_right _ _) shallow) rightSame
    have linkedDepth :
        (Parsed.link (some bound) left left.cursor.current
          (read (some bound) rank.operand
            left.cursor.advance)).cursor.depth =
          left.cursor.depth := by
      rw [Parsed.depth_link, followed.depth]
      rfl
    rcases
        Parsed.link_of_crossings_eq measured followed.measured nests
          rightNests linkSame with
      ⟨linkedEqual, linkedNests⟩
    rw [linkedDepth] at chain
    rw [readChain_link none joins, rightEqual, linkedEqual]
    exact chain linkedMeasured linkedNests chainSame
  case stop =>
    intro rank left stops _ nests _
    rw [readChain_stop _ stops, readChain_stop _ stops]
    exact ⟨rfl, nests⟩

end Grammar

end Abacus
