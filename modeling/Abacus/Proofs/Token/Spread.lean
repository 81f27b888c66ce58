import Abacus.Proofs.Relocation
import Abacus.Proofs.Token.Layout

/-!
# Tokens among blanks

Blanks are scanned into tokens of their own, which go no further.  What remains
are tokens that are spread over the text, with blanks between them.  How many
blanks there are decides where the tokens are and nothing else.

So blanks may be put anywhere into a text but between two digits.  All tokens in
front of that place stay where they are, and all behind it are moved by as many
bytes as were put in.
-/

namespace Abacus

/-- No two digits meet behind the end of a text if none do behind the text. -/
theorem Text.separated_of_append
    {front between back : List Char}
    (separated : Separated (front ++ between) back) :
    Separated between back := by
  intro meets
  apply separated
  by_cases empty : between = []
  · rw [empty] at meets
    contradiction
  · rw [endsInDigit_append front empty]
    exact meets

namespace Token

/--
Whether tokens are spread over a text that starts at a byte offset, each as long
as its kind allows, and with nothing but blanks between them.
-/
inductive Spread : Nat → List Char → List Token → Prop where
  | nil (position : Nat) : Spread position [] []
  | blank
      {position : Nat}
      {character : Char}
      {rest : List Char}
      {tokens : List Token}
      (isBlank : Text.isBlank character = true)
      (spread : Spread (position + character.utf8Size) rest tokens) :
      Spread position (character :: rest) tokens
  | token
      {position : Nat}
      {first : Char}
      {others rest : List Char}
      {tokens : List Token}
      (visible : Kind.ofChar first ≠ .whitespace)
      (run :
        ∀ character ∈ others,
          (Kind.ofChar first).continuesWith character = true)
      (stops :
        ∀ character ∈ rest.head?,
          (Kind.ofChar first).continuesWith character = false)
      (spread :
        Spread
          (position +
            (String.ofList (first :: others)).utf8ByteSize)
          rest tokens) :
      Spread position (first :: others ++ rest)
        (Token.scanned (Kind.ofChar first) position
          (String.ofList (first :: others)) :: tokens)

/-- Whether a token is anything but blanks. -/
def isVisible (token : Token) : Bool :=
  token.kind ≠ .whitespace

variable
    {position width : Nat}
    {text gap front back : List Char}
    {tokens others : List Token}

/-! ## Spread tokens and tilings -/

/-- Any blanks may stand in front of a text. -/
theorem Spread.skip
    (blanks : ∀ character ∈ gap, Text.isBlank character = true)
    (spread :
      Spread (position + (String.ofList gap).utf8ByteSize) text
        tokens) :
    Spread position (gap ++ text) tokens := by
  induction gap generalizing position with
  | nil => exact spread
  | cons character gap hypothesis =>
      rw [List.forall_mem_cons] at blanks
      rw [String.ofList_cons, String.utf8ByteSize_append,
        String.utf8ByteSize_singleton, ← Nat.add_assoc] at spread
      exact .blank blanks.1 (hypothesis blanks.2 spread)

/-- A token that starts with a blank is all blanks. -/
theorem isBlank_of_mem_run
    {first : Char}
    {run : List Char}
    (white : Kind.ofChar first = .whitespace)
    (continued :
      ∀ character ∈ run,
        (Kind.ofChar first).continuesWith character = true) :
    ∀ character ∈ first :: run, Text.isBlank character = true := by
  intro character member
  have same := ofChar_eq_of_mem continued character member
  exact Kind.ofChar_eq_whitespace_iff.1 (same.trans white)

/-- The tokens of a tiling other than blanks are spread over its text. -/
theorem Tiling.spread
    (tiling : Tiling position text tokens) :
    Spread position text (tokens.filter isVisible) := by
  induction tiling with
  | nil position => exact .nil position
  | @cons position first run rest tokens continued stops tiling
      hypothesis =>
      by_cases white : Kind.ofChar first = .whitespace
      · rw [List.filter_cons_of_neg (by simp [isVisible, white])]
        exact hypothesis.skip (isBlank_of_mem_run white continued)
      · rw [List.filter_cons_of_pos (by simp [isVisible, white])]
        exact .token white continued stops hypothesis

theorem Spread.eq_nil
    (spread : Spread position [] tokens) :
    tokens = [] := by
  generalize shape : ([] : List Char) = text at spread
  cases spread with
  | nil => rfl
  | blank isBlank spread => contradiction
  | token visible run stops spread => contradiction

/-- There is only one way to spread tokens over a text. -/
theorem Spread.unique
    (spread : Spread position text tokens)
    (other : Spread position text others) :
    tokens = others := by
  induction spread generalizing others with
  | nil position => exact other.eq_nil.symm
  | @blank position character rest tokens isBlank spread hypothesis =>
      have white := Kind.ofChar_eq_whitespace_iff.2 isBlank
      generalize shape : character :: rest = whole at other
      cases other with
      | nil => contradiction
      | blank otherBlank otherSpread =>
          obtain ⟨rfl, rfl⟩ := List.cons.inj shape
          exact hypothesis otherSpread
      | token visible run stops otherSpread =>
          obtain ⟨rfl, -⟩ := List.cons.inj shape
          contradiction
  | @token position first run rest tokens visible continued stops
      spread hypothesis =>
      generalize shape : first :: run ++ rest = whole at other
      cases other with
      | nil => contradiction
      | blank otherBlank otherSpread =>
          obtain ⟨rfl, -⟩ := List.cons.inj shape
          exact
            (visible (Kind.ofChar_eq_whitespace_iff.2 otherBlank)).elim
      | @token _ head tail remainder _ otherVisible otherContinued
          otherStops otherSpread =>
          obtain ⟨rfl, same⟩ := List.cons.inj shape
          have sameRun : run = tail := by
            rw [← takeWhile_run continued stops,
              ← takeWhile_run otherContinued otherStops]
            exact congrArg _ same
          subst sameRun
          obtain rfl := List.append_cancel_left same
          rw [hypothesis otherSpread]

theorem exists_tiling
    (position : Nat)
    (text : List Char) :
    ∃ tokens, Tiling position text tokens :=
  ⟨_, Scanner.tiling_drain
    { source := "", position, rest := text, faults := [] }⟩

/-! ## Moving a text -/

variable {relocation : Relocation}

/-- A text is cut alike wherever it starts. -/
theorem Tiling.relocate
    (tiling : Tiling position text tokens)
    (moves :
      ∀ offset,
        position ≤ offset → relocation.move offset = offset + width) :
    Tiling (position + width) text (tokens.map relocation.token) := by
  induction tiling with
  | nil position => exact .nil _
  | cons run stops tiling hypothesis =>
      have behind :=
        hypothesis fun offset later =>
          moves offset (Nat.le_trans (Nat.le_add_right ..) later)
      rw [Nat.add_right_comm] at behind
      rw [List.map_cons, Relocation.token_scanned,
        moves _ (Nat.le_refl _)]
      exact .cons run stops behind

/-- Tokens are spread alike over a text wherever it starts. -/
theorem Spread.relocate
    (spread : Spread position text tokens)
    (moves :
      ∀ offset,
        position ≤ offset → relocation.move offset = offset + width) :
    Spread (position + width) text (tokens.map relocation.token) := by
  obtain ⟨all, tiling⟩ := exists_tiling position text
  have moved := (tiling.relocate moves).spread
  obtain rfl := spread.unique tiling.spread
  rw [List.filter_map] at moved
  exact moved

/-! ## Putting blanks into a text -/

/-- A place where no two digits meet is not inside a token. -/
theorem exists_between_of_separated
    {first head : Char}
    {run rest : List Char}
    (visible : Kind.ofChar first ≠ .whitespace)
    (continued :
      ∀ character ∈ run,
        (Kind.ofChar first).continuesWith character = true)
    (separated : Text.Separated (head :: front) back)
    (whole : first :: run ++ rest = head :: front ++ back) :
    ∃ between,
      head :: front = first :: run ++ between ∧
        rest = between ++ back := by
  obtain ⟨rfl, behind⟩ := List.cons.inj whole
  rcases List.append_eq_append_iff.1 behind with
    ⟨between, rfl, rfl⟩ | ⟨inside, rfl, rfl⟩
  · exact ⟨between, rfl, rfl⟩
  · by_cases empty : inside = []
    · subst empty
      exact ⟨[], by simp, rfl⟩
    · have isNumber : Kind.ofChar first = .number := by
        refine Classical.byContradiction fun notNumber => ?_
        have none :=
          Kind.eq_nil_of_run continued notNumber visible
        exact empty (List.append_eq_nil_iff.1 none).2
      have digits :
          ∀ character ∈ first :: (front ++ inside),
            character.isDigit = true := by
        intro character member
        have kind := ofChar_eq_of_mem continued character member
        exact Kind.ofChar_eq_number_iff.1 (kind.trans isNumber)
      have meets : Text.endsInDigit (first :: front) = true :=
        Text.endsInDigit_of_digits (List.cons_ne_nil _ _)
          fun character member =>
            digits character
              (List.mem_append_left inside member)
      have starts : Text.startsWithDigit (inside ++ rest) = true := by
        rw [Text.startsWithDigit_append empty]
        exact
          Text.startsWithDigit_of_digits empty
            fun character member =>
              digits character
                (List.mem_append_right (first :: front) member)
      rw [separated meets] at starts
      contradiction

/-- No token but blanks goes on with a blank. -/
theorem Kind.continuesWith_eq_false_of_isBlank
    {kind : Kind}
    {character : Char}
    (visible : kind ≠ .whitespace)
    (isBlank : Text.isBlank character = true) :
    kind.continuesWith character = false := by
  have white := Kind.ofChar_eq_whitespace_iff.2 isBlank
  rw [Bool.eq_false_iff]
  intro goesOn
  have same := Kind.ofChar_eq_of_continuesWith goesOn
  exact visible (same.symm.trans white)

/-- A token that stops in front of a text stops in front of blanks, too. -/
theorem stops_of_blanks
    {first : Char}
    {between : List Char}
    (visible : Kind.ofChar first ≠ .whitespace)
    (blanks : ∀ character ∈ gap, Text.isBlank character = true)
    (stops :
      ∀ character ∈ (between ++ back).head?,
        (Kind.ofChar first).continuesWith character = false) :
    ∀ character ∈ (between ++ (gap ++ back)).head?,
      (Kind.ofChar first).continuesWith character = false := by
  cases between with
  | cons next between => exact stops
  | nil =>
      cases gap with
      | nil => exact stops
      | cons blank gap =>
          intro character isFirst
          obtain rfl := Option.some.inj isFirst
          apply Kind.continuesWith_eq_false_of_isBlank visible
          exact blanks blank (List.mem_cons_self ..)

/-- Blanks at the start of a text move all of its tokens. -/
theorem Spread.insert_start
    (spread : Spread position text tokens)
    (blanks : ∀ character ∈ gap, Text.isBlank character = true)
    (moved :
      ∀ offset,
        position ≤ offset →
          relocation.move offset =
            offset + (String.ofList gap).utf8ByteSize) :
    Spread position (gap ++ text) (tokens.map relocation.token) :=
  (spread.relocate moved).skip blanks

/--
Blanks may be put into a text where no two digits meet.  The tokens in front of
that place are followed up to it, and those behind the blanks are moved by as many
bytes.
-/
theorem Spread.insert
    (spread : Spread position (front ++ back) tokens)
    (blanks : ∀ character ∈ gap, Text.isBlank character = true)
    (separated : Text.Separated front back)
    (kept :
      ∀ offset,
        offset < position + (String.ofList front).utf8ByteSize →
          relocation.move offset = offset)
    (moved :
      ∀ offset,
        position + (String.ofList front).utf8ByteSize ≤ offset →
          relocation.move offset =
            offset + (String.ofList gap).utf8ByteSize) :
    Spread position (front ++ (gap ++ back))
      (tokens.map relocation.token) := by
  generalize shape : front ++ back = text at spread
  induction spread generalizing front with
  | nil position =>
      obtain ⟨rfl, rfl⟩ := List.append_eq_nil_iff.1 shape
      exact (Spread.nil position).insert_start blanks moved
  | @blank position character rest tokens isBlank spread hypothesis =>
      cases front with
      | nil =>
          obtain rfl := shape
          exact (Spread.blank isBlank spread).insert_start blanks moved
      | cons head front =>
          obtain ⟨rfl, rfl⟩ := List.cons.inj shape
          rw [String.ofList_cons, String.utf8ByteSize_append,
            String.utf8ByteSize_singleton, ← Nat.add_assoc]
            at kept moved
          exact
            .blank isBlank
              (hypothesis
                (@Text.separated_of_append [head] _ _ separated)
                kept moved rfl)
  | @token position first run rest tokens visible continued stops
      spread hypothesis =>
      cases front with
      | nil =>
          obtain rfl := shape
          exact
            (Spread.token visible continued stops spread).insert_start
              blanks moved
      | cons head front =>
          obtain ⟨between, same, rfl⟩ :=
            exists_between_of_separated visible continued separated
              shape.symm
          rw [same] at separated kept moved ⊢
          have positive := utf8ByteSize_ofList_cons_pos first run
          rw [String.ofList_append, String.utf8ByteSize_append,
            ← Nat.add_assoc] at kept moved
          rw [List.append_assoc, List.map_cons,
            Relocation.token_scanned, kept position (by omega)]
          exact
            .token visible continued
              (stops_of_blanks visible blanks stops)
              (hypothesis (Text.separated_of_append separated) kept moved
                rfl)

end Token

end Abacus
