/-!
# Outlines

An outline is a labelled tree whose parts are in order, of any number at each
place.  It is listed in *pre-order*: a label first, and then what is below it,
part by part.
-/

namespace Abacus

/-- A label with an ordered list of outlines below it. -/
inductive Outline (α : Type) where
  | entry (label : α) (parts : List (Outline α))

namespace Outline

variable {α β : Type}

/-- The label at the top. -/
def label : Outline α → α
  | .entry label _ => label

/-- What is below the label at the top. -/
def parts : Outline α → List (Outline α)
  | .entry _ parts => parts

mutual

/-- Every label with its depth, in pre-order, for a top at some depth. -/
def preorderFrom (depth : Nat) : Outline α → List (Nat × α)
  | .entry label parts =>
      (depth, label) :: preorderOfParts (depth + 1) parts

/-- Every label of some parts with its depth, in pre-order. -/
def preorderOfParts (depth : Nat) : List (Outline α) → List (Nat × α)
  | [] => []
  | part :: others =>
      preorderFrom depth part ++ preorderOfParts depth others

end

/-- Every label with its depth, in pre-order.  The top is at depth zero. -/
def preorder (outline : Outline α) : List (Nat × α) :=
  outline.preorderFrom 0

mutual

/-- The same outline with other labels. -/
def map (relabel : α → β) : Outline α → Outline β
  | .entry label parts => .entry (relabel label) (mapParts relabel parts)

/-- The same parts with other labels. -/
def mapParts (relabel : α → β) : List (Outline α) → List (Outline β)
  | [] => []
  | part :: others => map relabel part :: mapParts relabel others

end

@[simp]
theorem mapParts_eq_map
    (relabel : α → β)
    (parts : List (Outline α)) :
    mapParts relabel parts = parts.map (map relabel) := by
  induction parts with
  | nil => rfl
  | cons part others hypothesis =>
      rw [mapParts, hypothesis, List.map_cons]

@[simp]
theorem preorderOfParts_eq_flatMap
    (depth : Nat)
    (parts : List (Outline α)) :
    preorderOfParts depth parts =
      parts.flatMap (preorderFrom depth) := by
  induction parts with
  | nil => rfl
  | cons part others hypothesis =>
      rw [preorderOfParts, hypothesis, List.flatMap_cons]

end Outline

end Abacus
