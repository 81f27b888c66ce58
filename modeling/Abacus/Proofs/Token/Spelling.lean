import Abacus.Proofs.Token.Tiling

/-!
# Spelling

A text is well spelled if all its characters are blanks, digits, operators and
parentheses, and every run of digits that is as long as possible denotes a
word.  This is said of the characters alone and knows nothing of tokens.

Where no digit meets another a text can be cut, and it is well spelled if both
pieces are.  Tokens never end between two digits, so a text is well spelled if
its tokens are, and a token is well spelled if it has no fault.
-/

namespace Abacus

namespace Text

/-- Whether a character may stand in a line. -/
def InAlphabet (character : Char) : Prop :=
  character.isDigit = true ∨
    isBlank character = true ∨
      character ∈ ['+', '-', '*', '/', '(', ')']

def startsWithDigit (text : List Char) : Bool :=
  text.head?.any Char.isDigit

def endsInDigit (text : List Char) : Bool :=
  text.getLast?.any Char.isDigit

/-- Whether some digits of a text have no further digit on either side. -/
structure IsDigitRun (text run : List Char) : Prop where
  nonempty : run ≠ []
  digits : ∀ character ∈ run, character.isDigit = true
  maximal :
    ∃ before after,
      text = before ++ run ++ after ∧
        endsInDigit before = false ∧
        startsWithDigit after = false

/-- Whether the characters and the numbers of a text are all permitted. -/
structure IsSpelled (text : List Char) : Prop where
  alphabet : ∀ character ∈ text, InAlphabet character
  numbers :
    ∀ run,
      IsDigitRun text run →
        (Literal.decimal run : Int) ≤ Word.greatest

/-- Whether no digit at the end of a text meets one at the start of another. -/
def Separated (front back : List Char) : Prop :=
  endsInDigit front = true → startsWithDigit back = false

variable {front back run : List Char}

/-! ## Runs of digits -/

theorem startsWithDigit_append
    (nonempty : front ≠ [])
    (back : List Char) :
    startsWithDigit (front ++ back) = startsWithDigit front := by
  rw [startsWithDigit, List.head?_append,
    List.head?_eq_some_head nonempty]
  simp [startsWithDigit, List.head?_eq_some_head nonempty]

theorem endsInDigit_append
    (front : List Char)
    (nonempty : back ≠ []) :
    endsInDigit (front ++ back) = endsInDigit back := by
  rw [endsInDigit, List.getLast?_append,
    List.getLast?_eq_some_getLast nonempty]
  simp [endsInDigit, List.getLast?_eq_some_getLast nonempty]

theorem startsWithDigit_of_digits
    (nonempty : run ≠ [])
    (digits : ∀ character ∈ run, character.isDigit = true) :
    startsWithDigit run = true := by
  rw [startsWithDigit, List.head?_eq_some_head nonempty]
  exact digits _ (List.head_mem nonempty)

theorem endsInDigit_of_digits
    (nonempty : run ≠ [])
    (digits : ∀ character ∈ run, character.isDigit = true) :
    endsInDigit run = true := by
  rw [endsInDigit, List.getLast?_eq_some_getLast nonempty]
  exact digits _ (List.getLast_mem nonempty)

theorem IsDigitRun.append_right
    (isRun : IsDigitRun front run)
    (separated : Separated front back) :
    IsDigitRun (front ++ back) run := by
  rcases isRun with ⟨nonempty, digits, before, after, rfl, starts, stops⟩
  refine
    ⟨nonempty, digits, before, after ++ back, by simp, starts, ?_⟩
  by_cases atEnd : after = []
  · subst after
    refine separated ?_
    rw [List.append_nil, endsInDigit_append before nonempty]
    exact endsInDigit_of_digits nonempty digits
  · rw [startsWithDigit_append atEnd]
    exact stops

theorem IsDigitRun.append_left
    (isRun : IsDigitRun back run)
    (separated : Separated front back) :
    IsDigitRun (front ++ back) run := by
  rcases isRun with ⟨nonempty, digits, before, after, rfl, starts, stops⟩
  refine
    ⟨nonempty, digits, front ++ before, after, by simp, ?_, stops⟩
  by_cases atStart : before = []
  · subst before
    rw [List.append_nil, Bool.eq_false_iff]
    intro meets
    have apart := separated meets
    rw [List.nil_append, startsWithDigit_append nonempty,
      startsWithDigit_of_digits nonempty digits] at apart
    contradiction
  · rw [endsInDigit_append front atStart]
    exact starts

/--
A run of digits does not go across a place where no two digits meet.  It starts in
the second text, or it ends in the first, or there would be digits on both sides of
the place.
-/
theorem IsDigitRun.of_append
    (isRun : IsDigitRun (front ++ back) run)
    (separated : Separated front back) :
    IsDigitRun front run ∨ IsDigitRun back run := by
  rcases isRun with ⟨nonempty, digits, before, after, split, starts, stops⟩
  rw [List.append_assoc] at split
  rcases List.append_eq_append_iff.1 split with
    ⟨between, rfl, rfl⟩ | ⟨inside, rfl, shape⟩
  · refine
      Or.inr ⟨nonempty, digits, between, after, by simp, ?_, stops⟩
    by_cases atStart : between = []
    · rw [atStart]
      rfl
    · rwa [endsInDigit_append front atStart] at starts
  · rcases List.append_eq_append_iff.1 shape with
      ⟨between, rfl, rfl⟩ | ⟨beyond, rfl, rfl⟩
    · refine
        Or.inl ⟨nonempty, digits, before, between, by simp, starts, ?_⟩
      by_cases atEnd : between = []
      · rw [atEnd]
        rfl
      · rwa [startsWithDigit_append atEnd] at stops
    · by_cases atStart : inside = []
      · subst inside
        exact
          Or.inr ⟨nonempty, digits, [], after, by simp, rfl, stops⟩
      by_cases atEnd : beyond = []
      · subst beyond
        rw [List.append_nil] at nonempty digits ⊢
        exact
          Or.inl ⟨nonempty, digits, before, [], by simp, starts, rfl⟩
      have meets : endsInDigit (before ++ inside) = true := by
        rw [endsInDigit_append before atStart]
        exact
          endsInDigit_of_digits atStart fun character member =>
            digits character (List.mem_append_left beyond member)
      have apart := separated meets
      rw [startsWithDigit_append atEnd,
        startsWithDigit_of_digits atEnd fun character member =>
          digits character (List.mem_append_right inside member)]
        at apart
      contradiction

/-- Cutting a text where no two digits meet leaves its runs of digits whole. -/
theorem isDigitRun_append_iff
    (separated : Separated front back) :
    IsDigitRun (front ++ back) run ↔
      IsDigitRun front run ∨ IsDigitRun back run := by
  constructor
  · intro isRun
    exact isRun.of_append separated
  · rintro (isRun | isRun)
    · exact isRun.append_right separated
    · exact isRun.append_left separated

theorem isSpelled_append_iff
    (separated : Separated front back) :
    IsSpelled (front ++ back) ↔ IsSpelled front ∧ IsSpelled back := by
  constructor
  · rintro ⟨alphabet, numbers⟩
    refine ⟨⟨?_, ?_⟩, ⟨?_, ?_⟩⟩
    · intro character member
      exact alphabet character (List.mem_append_left back member)
    · intro run isRun
      exact numbers run (isRun.append_right separated)
    · intro character member
      exact alphabet character (List.mem_append_right front member)
    · intro run isRun
      exact numbers run (isRun.append_left separated)
  · rintro ⟨frontSpelled, backSpelled⟩
    refine ⟨?_, ?_⟩
    · intro character member
      rcases List.mem_append.1 member with member | member
      · exact frontSpelled.alphabet character member
      · exact backSpelled.alphabet character member
    · intro run isRun
      rcases (isDigitRun_append_iff separated).1 isRun with
        isRun | isRun
      · exact frontSpelled.numbers run isRun
      · exact backSpelled.numbers run isRun

theorem isSpelled_nil : IsSpelled [] := by
  refine ⟨by simp, ?_⟩
  rintro run ⟨nonempty, _, before, after, split, _, _⟩
  have empty : run = [] := by simp_all
  contradiction

/-- The only run in a text of digits is the text. -/
theorem isDigitRun_iff_of_digits
    {text : List Char}
    (nonempty : text ≠ [])
    (digits : ∀ character ∈ text, character.isDigit = true) :
    IsDigitRun text run ↔ run = text := by
  constructor
  · rintro ⟨_, _, before, after, rfl, starts, stops⟩
    have atStart : before = [] := by
      refine Classical.byContradiction fun atStart => ?_
      rw [endsInDigit_of_digits atStart fun character member =>
        digits character (by simp [member])] at starts
      contradiction
    have atEnd : after = [] := by
      refine Classical.byContradiction fun atEnd => ?_
      rw [startsWithDigit_of_digits atEnd fun character member =>
        digits character (by simp [member])] at stops
      contradiction
    simp [atStart, atEnd]
  · rintro rfl
    exact ⟨nonempty, digits, [], [], by simp, rfl, rfl⟩

theorem not_isDigitRun_of_no_digits
    {text : List Char}
    (noDigits : ∀ character ∈ text, character.isDigit = false) :
    ¬ IsDigitRun text run := by
  rintro ⟨nonempty, digits, before, after, rfl, _, _⟩
  have digit := digits _ (List.head_mem nonempty)
  rw [noDigits _ (by simp)] at digit
  contradiction

/-- A number is well spelled if it is small enough. -/
theorem isSpelled_iff_of_digits
    {text : List Char}
    (nonempty : text ≠ [])
    (digits : ∀ character ∈ text, character.isDigit = true) :
    IsSpelled text ↔ (Literal.decimal text : Int) ≤ Word.greatest := by
  constructor
  · intro spelled
    exact
      spelled.numbers text
        ((isDigitRun_iff_of_digits nonempty digits).2 rfl)
  · intro small
    refine ⟨fun character member => Or.inl (digits character member), ?_⟩
    intro run isRun
    rw [(isDigitRun_iff_of_digits nonempty digits).1 isRun]
    exact small

theorem isSpelled_iff_of_no_digits
    {text : List Char}
    (noDigits : ∀ character ∈ text, character.isDigit = false) :
    IsSpelled text ↔ ∀ character ∈ text, InAlphabet character := by
  constructor
  · intro spelled
    exact spelled.alphabet
  · intro alphabet
    refine ⟨alphabet, ?_⟩
    intro run isRun
    exact (not_isDigitRun_of_no_digits noDigits isRun).elim

end Text

/-! ## Tokens -/

namespace Token

theorem Kind.ofChar_eq_number_iff
    {character : Char} :
    Kind.ofChar character = .number ↔ character.isDigit = true := by
  unfold Kind.ofChar
  repeat' split
  all_goals simp_all

theorem Kind.ofChar_ne_invalid_iff
    {character : Char} :
    Kind.ofChar character ≠ .invalid ↔ Text.InAlphabet character := by
  unfold Kind.ofChar Text.InAlphabet
  repeat' split
  all_goals simp_all

/-- A character that goes on with a token could start one of the same kind. -/
theorem Kind.ofChar_eq_of_continuesWith
    {kind : Kind}
    {character : Char}
    (continues : kind.continuesWith character = true) :
    Kind.ofChar character = kind := by
  cases kind with
  | number => exact Kind.ofChar_eq_number_iff.2 continues
  | whitespace =>
      have digit : character.isDigit = false := by
        rw [Bool.eq_false_iff]
        intro digit
        rw [continuesWith, Text.isBlank_eq_false_of_isDigit digit]
          at continues
        contradiction
      rw [continuesWith] at continues
      simp [Kind.ofChar, digit, continues]
  | _ => contradiction

theorem Kind.ofChar_eq_whitespace_iff
    {character : Char} :
    Kind.ofChar character = .whitespace ↔
      Text.isBlank character = true := by
  constructor
  · unfold Kind.ofChar
    repeat' split
    all_goals simp_all
  · intro blank
    exact Kind.ofChar_eq_of_continuesWith blank

/-- Only numbers and stretches of blanks go on behind their first character. -/
theorem Kind.eq_nil_of_run
    {kind : Kind}
    {run : List Char}
    (continued :
      ∀ character ∈ run, kind.continuesWith character = true)
    (notNumber : kind ≠ .number)
    (notWhitespace : kind ≠ .whitespace) :
    run = [] := by
  cases run with
  | nil => rfl
  | cons first others =>
      have goesOn := continued first (List.mem_cons_self ..)
      revert goesOn
      cases kind <;> simp_all [continuesWith]

variable
    {first : Char}
    {others : List Char}
    {position : Nat}
    {source : String}

/-- All characters of a token could start a token of its kind. -/
theorem ofChar_eq_of_mem
    (run :
      ∀ character ∈ others,
        (Kind.ofChar first).continuesWith character = true) :
    ∀ character ∈ first :: others,
      Kind.ofChar character = .ofChar first := by
  intro character member
  rcases List.mem_cons.1 member with rfl | member
  · rfl
  · exact Kind.ofChar_eq_of_continuesWith (run character member)

theorem lexicalFault?_scanned_number_eq_none_iff
    {text : String} :
    (scanned .number position text).lexicalFault? source = none ↔
      (Literal.decimal text.toList : Int) ≤ Word.greatest := by
  rw [← Int.not_lt, ← Literal.ofInt?_decimal_eq_none_iff,
    ← Literal.value?_eq]
  unfold lexicalFault?
  simp only [scanned, number]
  cases Literal.value? text <;> simp

theorem lexicalFault?_scanned_eq_none
    {kind : Kind}
    (notNumber : kind ≠ .number)
    (valid : kind ≠ .invalid)
    (text : String) :
    (scanned kind position text).lexicalFault? source = none := by
  cases kind <;> first | rfl | contradiction

theorem lexicalFault?_scanned_invalid_ne_none
    {text : String}
    (nonempty : text.toList ≠ []) :
    (scanned .invalid position text).lexicalFault? source ≠ none := by
  simp [lexicalFault?, scanned, plain, List.head?_eq_some_head nonempty]

/-- A token has no fault exactly if its text is well spelled. -/
theorem lexicalFault?_eq_none_iff_isSpelled
    (run :
      ∀ character ∈ others,
        (Kind.ofChar first).continuesWith character = true) :
    (scanned (Kind.ofChar first) position
        (String.ofList (first :: others))).lexicalFault? source =
        none ↔
      Text.IsSpelled (first :: others) := by
  have same := ofChar_eq_of_mem run
  by_cases isNumber : Kind.ofChar first = .number
  · have digits :
        ∀ character ∈ first :: others, character.isDigit = true := by
      intro character member
      rw [← Kind.ofChar_eq_number_iff, same character member]
      exact isNumber
    rw [isNumber, lexicalFault?_scanned_number_eq_none_iff,
      String.toList_ofList,
      Text.isSpelled_iff_of_digits (List.cons_ne_nil _ _) digits]
  · have noDigits :
        ∀ character ∈ first :: others, character.isDigit = false := by
      intro character member
      rw [Bool.eq_false_iff, ne_eq, ← Kind.ofChar_eq_number_iff,
        same character member]
      exact isNumber
    rw [Text.isSpelled_iff_of_no_digits noDigits]
    constructor
    · intro faultless character member
      rw [← Kind.ofChar_ne_invalid_iff, same character member]
      intro invalid
      rw [invalid] at faultless
      exact
        lexicalFault?_scanned_invalid_ne_none (by simp) faultless
    · intro alphabet
      have valid :=
        Kind.ofChar_ne_invalid_iff.2
          (alphabet first (List.mem_cons_self ..))
      exact lexicalFault?_scanned_eq_none isNumber valid _

/-- Tokens do not end between two digits. -/
theorem separated_of_stops
    {rest : List Char}
    (run :
      ∀ character ∈ others,
        (Kind.ofChar first).continuesWith character = true)
    (stops :
      ∀ character ∈ rest.head?,
        (Kind.ofChar first).continuesWith character = false) :
    Text.Separated (first :: others) rest := by
  intro meets
  have last := List.getLast?_eq_some_getLast (List.cons_ne_nil first others)
  have isNumber : Kind.ofChar first = .number := by
    rw [← ofChar_eq_of_mem run _ (List.getLast_mem (List.cons_ne_nil _ _)),
      Kind.ofChar_eq_number_iff]
    rwa [Text.endsInDigit, last] at meets
  rw [isNumber] at stops
  unfold Text.startsWithDigit
  cases start : rest.head? with
  | none => rfl
  | some character => exact stops character start

/-- The tokens of a tiling are faultless exactly if its text is well spelled. -/
theorem Tiling.lexicalFault?_eq_none_iff
    {text : List Char}
    {tokens : List Token}
    (tiling : Tiling position text tokens)
    (source : String) :
    (∀ token ∈ tokens, token.lexicalFault? source = none) ↔
      Text.IsSpelled text := by
  induction tiling with
  | nil position => simp [Text.isSpelled_nil]
  | cons run stops tiling hypothesis =>
      rw [Text.isSpelled_append_iff (separated_of_stops run stops),
        List.forall_mem_cons, hypothesis,
        lexicalFault?_eq_none_iff_isSpelled run]

end Token

/-- A source has no lexical faults exactly if it is well spelled. -/
theorem TokenBuffer.diagnostics_eq_nil_iff (source : String) :
    (ofSource source).diagnostics = [] ↔
      Text.IsSpelled source.toList := by
  rw [diagnostics_ofSource, List.filterMap_eq_nil_iff]
  exact (tiling_ofSource source).lexicalFault?_eq_none_iff source

end Abacus
