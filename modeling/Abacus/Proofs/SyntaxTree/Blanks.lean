import Abacus.Proofs.Token.Spread
import Mathlib.Control.Monad.Basic

/-!
# Blanks in a line

Blanks may be put into a line wherever no two digits meet.  The tree stays the
same, and so do its diagnostics and the value, but what is behind the blanks is
moved, and a diagnostic that quotes the line quotes the new one.

This holds of every line.  It may have faults, nest too deeply, or have blanks
in the same place already.
-/

namespace Abacus

namespace TokenBuffer

/-- A buffer has the tokens spread over its source, and their faults. -/
theorem ofSource_eq_of_spread
    {source : String}
    {tokens : List Token}
    (spread : Token.Spread 0 source.toList tokens) :
    ofSource source =
      { tokens := tokens.filter fun token => token.kind.isSignificant
        sourceEnd := source.utf8ByteSize
        diagnostics :=
          tokens.filterMap fun token => token.lexicalFault? source } := by
  have tiling := tiling_ofSource source
  have blanksAreFaultless (token : Token) :
      (if token.isVisible = true then token.lexicalFault? source
        else none) =
        token.lexicalFault? source := by
    unfold Token.isVisible Token.lexicalFault?
    cases token.kind <;> rfl
  have blanksAreDropped (token : Token) :
      (token.kind.isSignificant && token.isVisible) =
        token.kind.isSignificant := by
    unfold Token.isVisible
    cases token.kind <;> rfl
  rw [ofSource_eq_of_tiling tiling, spread.unique tiling.spread,
    List.filter_filter, List.filterMap_filter]
  simp only [blanksAreFaultless, blanksAreDropped]

end TokenBuffer

/-- Where the places of a text are after blanks were put into it. -/
def Relocation.insertion (front gap back : String) : Relocation :=
  { source := front ++ gap ++ back
    move := fun offset =>
      if front.utf8ByteSize ≤ offset then
        offset + gap.utf8ByteSize
      else
        offset }

/-- Blanks move what is behind them in a buffer, and do nothing else. -/
theorem TokenBuffer.ofSource_insertion
    {front gap back : String}
    (blanks :
      ∀ character ∈ gap.toList, Text.isBlank character = true)
    (separated : Text.Separated front.toList back.toList) :
    ofSource (front ++ gap ++ back) =
      (Relocation.insertion front gap back).buffer
        (ofSource (front ++ back)) := by
  obtain ⟨all, tiling⟩ :=
    Token.exists_tiling 0 (front ++ back).toList
  have spread := tiling.spread
  have inserted :
      Token.Spread 0 (front ++ gap ++ back).toList
        ((all.filter Token.isVisible).map
          (Relocation.insertion front gap back).token) := by
    rw [String.toList_append, String.toList_append, List.append_assoc]
    rw [String.toList_append] at spread
    refine spread.insert blanks separated ?_ ?_
    · intro offset before
      rw [Nat.zero_add, String.ofList_toList] at before
      exact if_neg (Nat.not_le_of_lt before)
    · intro offset behind
      rw [Nat.zero_add, String.ofList_toList] at behind
      rw [String.ofList_toList]
      exact if_pos behind
  have sourceEnd :
      (front ++ gap ++ back).utf8ByteSize =
        (Relocation.insertion front gap back).move
          (front ++ back).utf8ByteSize := by
    simp only [Relocation.insertion, String.utf8ByteSize_append]
    rw [if_pos (Nat.le_add_right ..), Nat.add_right_comm]
  have faults :
      (fun token : Token =>
          ((Relocation.insertion front gap back).token
            token).lexicalFault? (front ++ gap ++ back)) =
        fun token =>
          (token.lexicalFault? (front ++ back)).map
            (Relocation.insertion front gap back).diagnostic :=
    funext fun token =>
      (Relocation.insertion front gap back).lexicalFault?_token
        (front ++ back) token
  rw [ofSource_eq_of_spread spread, ofSource_eq_of_spread inserted,
    Relocation.buffer]
  simp only [List.filter_map, List.filterMap_map, List.map_filterMap,
    Function.comp_def, faults, sourceEnd, Relocation.token_kind]

/-- Blanks in a line move its tree and its diagnostics. -/
theorem SyntaxTree.ofSource_insertion
    {front gap back : String}
    (blanks :
      ∀ character ∈ gap.toList, Text.isBlank character = true)
    (separated : Text.Separated front.toList back.toList) :
    ofSource (front ++ gap ++ back) =
      (Relocation.insertion front gap back).tree
        (ofSource (front ++ back)) := by
  unfold ofSource
  rw [TokenBuffer.ofSource_insertion blanks separated]
  exact Relocation.parseWithin_buffer _ _ _

/--
Blanks in a line move what is behind them in its tree and its diagnostics, and
nothing else is different.  So the line has the same value, or the same failure
at an operator that has been moved.
-/
theorem blanks_only_move_line
    {front gap back : String}
    (blanks :
      ∀ character ∈ gap.toList, Text.isBlank character = true)
    (separated : Text.Separated front.toList back.toList) :
    SyntaxTree.ofSource (front ++ gap ++ back) =
        (Relocation.insertion front gap back).tree
          (SyntaxTree.ofSource (front ++ back)) ∧
      calculate (front ++ gap ++ back) =
        (calculate (front ++ back)).mapError
          (Relocation.insertion front gap back).calculationError := by
  have moved := SyntaxTree.ofSource_insertion blanks separated
  refine ⟨moved, ?_⟩
  unfold calculate
  rw [moved]
  exact Relocation.calculate_tree _ _

/-- The failing division of `7-4/0`, behind two blanks of different widths. -/
theorem blanks_only_move_line_division :
    (∀ character ∈ " \u2003".toList,
        Text.isBlank character = true) ∧
      Text.Separated "7-4".toList "/0".toList ∧
      SyntaxTree.ofSource ("7-4" ++ " \u2003" ++ "/0") =
        (Relocation.insertion "7-4" " \u2003" "/0").tree
          (SyntaxTree.ofSource ("7-4" ++ "/0")) ∧
      calculate ("7-4" ++ " \u2003" ++ "/0") =
        .error (.value (.divisionByZero 7)) := by
  have blanks :
      ∀ character ∈ " \u2003".toList,
        Text.isBlank character = true :=
    List.all_eq_true.1 rfl
  have separated : Text.Separated "7-4".toList "/0".toList :=
    fun _ => by decide
  have fails :
      calculate ("7-4" ++ "/0") =
        .error (.value (.divisionByZero 3)) := by
    decide +kernel
  obtain ⟨moved, value⟩ := blanks_only_move_line blanks separated
  rw [fails] at value
  exact ⟨blanks, separated, moved, value⟩

end Abacus
