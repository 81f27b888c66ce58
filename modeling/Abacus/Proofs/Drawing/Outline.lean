import Abacus.Drawing.Outline

/-!
# Outlines in pre-order

The pre-order of an outline, with its depths, is all there is to know about the
outline.  What is below a label ends in front of the first label that is not
deeper, so there is only one way to put the parts together again.
-/

namespace Abacus.Outline

variable {α β γ : Type}

/-! ## Induction -/

/-- What holds of an outline follows from what holds of its parts in order. -/
theorem induction
    {whole : Outline α → Prop}
    {list : List (Outline α) → Prop}
    (entry :
      ∀ label parts, list parts → whole (.entry label parts))
    (nil : list [])
    (cons :
      ∀ part others,
        whole part → list others → list (part :: others)) :
    (∀ outline, whole outline) ∧ ∀ parts, list parts :=
  ⟨@Outline.rec α whole list entry nil cons,
    @Outline.rec_1 α whole list entry nil cons⟩

theorem map_map_outline
    (relabel : β → γ)
    (first : α → β) :
    (∀ outline : Outline α,
      (outline.map first).map relabel =
        outline.map fun label => relabel (first label)) ∧
      ∀ parts : List (Outline α),
        mapParts relabel (mapParts first parts) =
          mapParts (fun label => relabel (first label)) parts := by
  apply induction
  case entry =>
    intro label parts below
    rw [map, map, map, below]
  case nil => rfl
  case cons =>
    intro part others first following
    rw [mapParts, mapParts, mapParts, first, following]

/-- Other labels can be put in place of other labels at once. -/
theorem map_map
    (relabel : β → γ)
    (first : α → β)
    (outline : Outline α) :
    (outline.map first).map relabel =
      outline.map fun label => relabel (first label) :=
  (map_map_outline relabel first).1 outline

theorem eq_of_map_eq
    {relabel : α → β}
    (injective : Function.Injective relabel) :
    (∀ outline other : Outline α,
      outline.map relabel = other.map relabel → outline = other) ∧
      ∀ parts others : List (Outline α),
        mapParts relabel parts = mapParts relabel others →
          parts = others := by
  apply induction
  case entry =>
    intro label parts below other same
    cases other with
    | entry otherLabel others =>
        rw [map, map] at same
        obtain ⟨sameLabel, sameParts⟩ := Outline.entry.inj same
        obtain rfl := injective sameLabel
        obtain rfl := below others sameParts
        rfl
  case nil =>
    intro others same
    cases others with
    | nil => rfl
    | cons part others => cases same
  case cons =>
    intro part parts first following others same
    cases others with
    | nil => cases same
    | cons other others =>
        rw [mapParts, mapParts] at same
        obtain ⟨samePart, sameParts⟩ := List.cons.inj same
        obtain rfl := first other samePart
        obtain rfl := following others sameParts
        rfl

/-- Labels that tell what they stand for can be read back. -/
theorem map_injective
    {relabel : α → β}
    (injective : Function.Injective relabel) :
    Function.Injective (map relabel) :=
  fun outline other same =>
    (eq_of_map_eq injective).1 outline other same

/-- The pre-order of an outline with other labels has these labels. -/
theorem preorderFrom_map (relabel : α → β) :
    (∀ (outline : Outline α) (depth : Nat),
      (outline.map relabel).preorderFrom depth =
        (outline.preorderFrom depth).map (Prod.map id relabel)) ∧
      ∀ (parts : List (Outline α)) (depth : Nat),
        preorderOfParts depth (mapParts relabel parts) =
          (preorderOfParts depth parts).map
            (Prod.map id relabel) := by
  apply induction
  case entry =>
    intro label parts below depth
    rw [map, preorderFrom, preorderFrom, below, List.map_cons]
    rfl
  case nil =>
    intro depth
    rfl
  case cons =>
    intro part others first following depth
    rw [mapParts, preorderOfParts, preorderOfParts, first, following,
      List.map_append]

@[simp]
theorem preorder_map
    (relabel : α → β)
    (outline : Outline α) :
    (outline.map relabel).preorder =
      outline.preorder.map (Prod.map id relabel) :=
  (preorderFrom_map relabel).1 outline 0

/-- Nothing below a place is less deep than the place. -/
theorem le_of_mem_preorderFrom :
    (∀ (outline : Outline α) (depth : Nat),
      ∀ entry ∈ outline.preorderFrom depth, depth ≤ entry.1) ∧
      ∀ (parts : List (Outline α)) (depth : Nat),
        ∀ entry ∈ preorderOfParts depth parts, depth ≤ entry.1 := by
  apply induction
  case entry =>
    intro label parts below depth entry member
    rcases List.mem_cons.1 member with rfl | inside
    · exact Nat.le_refl depth
    · exact Nat.le_of_succ_le (below (depth + 1) entry inside)
  case nil =>
    intro depth entry member
    cases member
  case cons =>
    intro part others first following depth entry member
    rcases List.mem_append.1 member with inside | behind
    · exact first depth entry inside
    · exact following depth entry behind

/-! ## The outline of a pre-order -/

/-- Whether the first of some labels, if there is one, is less deep. -/
def StartsAbove (depth : Nat) (entries : List (Nat × α)) : Prop :=
  ∀ entry ∈ entries.head?, entry.1 < depth

theorem StartsAbove.mono
    {depth deeper : Nat}
    {entries : List (Nat × α)}
    (above : StartsAbove depth entries)
    (le : depth ≤ deeper) :
    StartsAbove deeper entries :=
  fun entry first => Nat.lt_of_lt_of_le (above entry first) le

/-- The label of the first part is no less deep than the parts. -/
theorem not_startsAbove_preorderOfParts
    (depth : Nat)
    (part : Outline α)
    (others : List (Outline α))
    (rest : List (Nat × α)) :
    ¬ StartsAbove depth
      (preorderOfParts depth (part :: others) ++ rest) := by
  intro above
  cases part with
  | entry label parts => exact Nat.lt_irrefl _ (above (depth, label) rfl)

/-- Behind a part there is nothing deeper than the part. -/
theorem startsAbove_preorderOfParts
    {depth : Nat}
    {rest : List (Nat × α)}
    (parts : List (Outline α))
    (above : StartsAbove depth rest) :
    StartsAbove (depth + 1) (preorderOfParts depth parts ++ rest) := by
  cases parts with
  | nil => exact above.mono (Nat.le_succ depth)
  | cons part others =>
      cases part with
      | entry label parts =>
          intro entry first
          obtain rfl := Option.some.inj first
          exact Nat.lt_succ_self depth

/--
Two outlines with the same pre-order are the same, also if more labels follow
that are not below them.
-/
theorem eq_of_preorderFrom_append_eq :
    (∀ (outline other : Outline α) (depth : Nat)
      (rest remainder : List (Nat × α)),
      StartsAbove (depth + 1) rest →
        StartsAbove (depth + 1) remainder →
          outline.preorderFrom depth ++ rest =
              other.preorderFrom depth ++ remainder →
            outline = other ∧ rest = remainder) ∧
      ∀ (parts others : List (Outline α)) (depth : Nat)
        (rest remainder : List (Nat × α)),
        StartsAbove depth rest →
          StartsAbove depth remainder →
            preorderOfParts depth parts ++ rest =
                preorderOfParts depth others ++ remainder →
              parts = others ∧ rest = remainder := by
  apply induction
  case entry =>
    intro label parts below other depth rest remainder restAbove
      remainderAbove same
    cases other with
    | entry otherLabel others =>
        rw [preorderFrom, preorderFrom, List.cons_append,
          List.cons_append] at same
        obtain ⟨sameLabel, behind⟩ := List.cons.inj same
        obtain ⟨rfl, rfl⟩ :=
          below others (depth + 1) rest remainder restAbove
            remainderAbove behind
        obtain rfl := congrArg Prod.snd sameLabel
        exact ⟨rfl, rfl⟩
  case nil =>
    intro others depth rest remainder restAbove remainderAbove same
    cases others with
    | nil => exact ⟨rfl, same⟩
    | cons part others =>
        rw [preorderOfParts, List.nil_append] at same
        rw [same] at restAbove
        exact
          (not_startsAbove_preorderOfParts depth part others remainder
            restAbove).elim
  case cons =>
    intro part parts first following others depth rest remainder
      restAbove remainderAbove same
    cases others with
    | nil =>
        have whole :
            preorderOfParts depth (part :: parts) ++ rest =
              remainder := same
        rw [← whole] at remainderAbove
        exact
          (not_startsAbove_preorderOfParts depth part parts rest
            remainderAbove).elim
    | cons other others =>
        rw [preorderOfParts, preorderOfParts, List.append_assoc,
          List.append_assoc] at same
        obtain ⟨rfl, behind⟩ :=
          first other depth _ _
            (startsAbove_preorderOfParts parts restAbove)
            (startsAbove_preorderOfParts others remainderAbove) same
        obtain ⟨rfl, rfl⟩ :=
          following others depth rest remainder restAbove
            remainderAbove behind
        exact ⟨rfl, rfl⟩

/-- An outline is determined by its pre-order. -/
theorem preorder_injective :
    Function.Injective (@preorder α) := by
  intro outline other same
  have above : StartsAbove 1 ([] : List (Nat × α)) := by simp [StartsAbove]
  refine
    (eq_of_preorderFrom_append_eq.1 outline other 0 [] [] above above
      ?_).1
  rw [List.append_nil, List.append_nil]
  exact same

end Abacus.Outline
