import Abacus.Proofs.Token.Layout
import Mathlib.Data.List.Chain

/-!
# Maximal munch

The scanner is asked for one token after another.  It answers with the pieces
of the source from left to right, and with the end of file from then on.

What these pieces are can be said without a scanner.  Put together they are the
source, each of them is where the ones before it end, its characters are of one
class, and two numbers or two stretches of blanks never meet.  Only one list of
pieces is like that, so a piece is always as long as its class allows.
-/

namespace Abacus

/-! ## Calls -/

namespace Scanner

/-- The tokens of so many calls for the next one, and the scanner after them. -/
def nextTokens : Nat → Scanner → List Token × Scanner
  | 0, scanner => ([], scanner)
  | count + 1, scanner =>
      let others := nextTokens count scanner.next.2
      (scanner.next.1 :: others.1, others.2)

variable {scanner : Scanner}

@[simp]
theorem source_next (scanner : Scanner) :
    scanner.next.2.source = scanner.source := by
  unfold next
  split <;> rfl

@[simp]
theorem source_nextTokens
    (count : Nat)
    (scanner : Scanner) :
    (scanner.nextTokens count).2.source = scanner.source := by
  induction count generalizing scanner with
  | zero => rfl
  | succ count hypothesis =>
      exact (hypothesis scanner.next.2).trans (source_next scanner)

/-- At the end of the source every call gives the end of file. -/
theorem nextTokens_of_rest_eq_nil
    (finished : scanner.rest = [])
    (count : Nat) :
    scanner.nextTokens count =
      (List.replicate count scanner.endOfFile, scanner) := by
  induction count with
  | zero => rfl
  | succ count hypothesis =>
      rw [nextTokens, next_of_rest_eq_nil finished, hypothesis]
      rfl

/-- The calls give the tokens of the source, and the end of file behind them. -/
theorem nextTokens_eq_take_append
    (count : Nat)
    (scanner : Scanner) :
    (scanner.nextTokens count).1 =
      scanner.drain.1.take count ++
        List.replicate (count - scanner.drain.1.length)
          scanner.endOfFile := by
  induction count generalizing scanner with
  | zero => simp [nextTokens]
  | succ count hypothesis =>
      by_cases finished : scanner.rest = []
      · rw [nextTokens_of_rest_eq_nil finished,
          drain_of_rest_eq_nil finished]
        simp
      · have sameEnd :
            scanner.next.2.endOfFile = scanner.endOfFile := by
          simp [endOfFile]
        rw [drain_of_rest_ne_nil finished, nextTokens, hypothesis,
          sameEnd]
        simp

/-- Some calls take as many tokens from those that are still to come. -/
theorem drain_nextTokens
    (count : Nat)
    (scanner : Scanner) :
    (scanner.nextTokens count).2.drain.1 =
      scanner.drain.1.drop count := by
  induction count generalizing scanner with
  | zero => rfl
  | succ count hypothesis =>
      by_cases finished : scanner.rest = []
      · rw [nextTokens_of_rest_eq_nil finished,
          drain_of_rest_eq_nil finished]
        rfl
      · rw [drain_of_rest_ne_nil finished]
        exact hypothesis scanner.next.2

/-- Only at the end of the source are no more tokens to come. -/
theorem rest_eq_nil_of_drain_eq_nil
    (exhausted : scanner.drain.1 = []) :
    scanner.rest = [] := by
  refine Classical.byContradiction fun unfinished => ?_
  rw [drain_of_rest_ne_nil unfinished] at exhausted
  contradiction

/-- After the last token, a call changes nothing any more. -/
theorem next_nextTokens
    {count : Nat}
    (enough : scanner.drain.1.length ≤ count) :
    (scanner.nextTokens count).2.next =
      (scanner.endOfFile, (scanner.nextTokens count).2) := by
  have exhausted :
      (scanner.nextTokens count).2.drain.1 = [] := by
    rw [drain_nextTokens]
    exact List.drop_eq_nil_of_le enough
  have sameEnd :
      (scanner.nextTokens count).2.endOfFile = scanner.endOfFile := by
    simp [endOfFile]
  rw [next_of_rest_eq_nil (rest_eq_nil_of_drain_eq_nil exhausted),
    sameEnd]

end Scanner

/-! ## Pieces of a text -/

namespace Token

/--
Whether the text of a token is of the class that its kind stands for.  Only
numbers and stretches of blanks may be longer than one character.
-/
inductive IsClassified (token : Token) : Prop where
  | number
      (isNumber : token.kind = .number)
      (digits :
        ∀ character ∈ token.text.toList, character.isDigit = true)
  | whitespace
      (isWhitespace : token.kind = .whitespace)
      (blanks :
        ∀ character ∈ token.text.toList,
          Text.isBlank character = true)
  | symbol
      {character : Char}
      (found : token.kind.symbol? = some character)
      (spelled : token.text = String.singleton character)
  | invalid
      {character : Char}
      (isInvalid : token.kind = .invalid)
      (foreign : ¬ Text.InAlphabet character)
      (spelled : token.text = String.singleton character)

/-- Whether two tokens may stand side by side without being one. -/
def StandApart (former latter : Token) : Prop :=
  former.kind = latter.kind →
    former.kind ≠ .number ∧ former.kind ≠ .whitespace

/--
Whether some tokens are the pieces of a text which starts at a byte offset, cut
so that no two of them could be one.
-/
structure IsMaximalMunch
    (start : Nat)
    (text : String)
    (tokens : List Token) :
    Prop where
  nonempty : ∀ token ∈ tokens, token.text ≠ ""
  whole : texts tokens = text
  placed :
    ∀ before token after,
      tokens = before ++ token :: after →
        token.position = start + (texts before).utf8ByteSize
  classified : ∀ token ∈ tokens, token.IsClassified
  apart : tokens.IsChain StandApart

/-- A token without its value. -/
def unvalued (token : Token) : Token :=
  plain token.kind token.position token.text

/-- The token that is scanned where a token is, from the same text. -/
def rescanned (token : Token) : Token :=
  scanned token.kind token.position token.text

@[simp]
theorem unvalued_rescanned (token : Token) :
    token.rescanned.unvalued = token.unvalued := by
  simp [rescanned, unvalued]

variable
    {start : Nat}
    {text : String}
    {token : Token}
    {tokens others : List Token}

/-! ## Classes of characters -/

/-- A kind other than these two has a single character or is never scanned. -/
theorem Kind.cases_ofChar
    (first : Char) :
    Kind.ofChar first = .number ∨
      Kind.ofChar first = .whitespace ∨
        Kind.ofChar first = .invalid ∨
          (Kind.ofChar first).symbol? = some first := by
  unfold Kind.ofChar
  repeat' split
  all_goals simp_all [Kind.symbol?]

/-- What is scanned at a character is of the class of its kind. -/
theorem isClassified_scanned
    {first : Char}
    {run : List Char}
    (continued :
      ∀ character ∈ run,
        (Kind.ofChar first).continuesWith character = true) :
    (scanned (Kind.ofChar first) start
      (String.ofList (first :: run))).IsClassified := by
  have same := ofChar_eq_of_mem continued
  rcases Kind.cases_ofChar first with
    isNumber | isWhitespace | isInvalid | found
  · refine .number ((scanned_kind ..).trans isNumber) ?_
    rw [scanned_text, String.toList_ofList]
    intro character member
    exact
      Kind.ofChar_eq_number_iff.1
        ((same character member).trans isNumber)
  · refine .whitespace ((scanned_kind ..).trans isWhitespace) ?_
    rw [scanned_text, String.toList_ofList]
    intro character member
    exact
      Kind.ofChar_eq_whitespace_iff.1
        ((same character member).trans isWhitespace)
  · have alone : run = [] :=
      Kind.eq_nil_of_run continued (by simp [isInvalid])
        (by simp [isInvalid])
    have foreign : ¬ Text.InAlphabet first :=
      fun known => Kind.ofChar_ne_invalid_iff.2 known isInvalid
    refine .invalid ((scanned_kind ..).trans isInvalid) foreign ?_
    rw [scanned_text, alone]
    rfl
  · have alone : run = [] :=
      Kind.eq_nil_of_run continued
        (fun isNumber => by simp [isNumber, Kind.symbol?] at found)
        (fun isBlank => by simp [isBlank, Kind.symbol?] at found)
    rw [← scanned_kind (Kind.ofChar first) start
      (String.ofList (first :: run))] at found
    refine .symbol found ?_
    rw [scanned_text, alone]
    rfl

/-- A classified token is as the scanner would cut it, but for its value. -/
theorem IsClassified.exists_run
    (classified : token.IsClassified)
    (nonempty : token.text ≠ "") :
    ∃ first run,
      token.text = String.ofList (first :: run) ∧
        Kind.ofChar first = token.kind ∧
          ∀ character ∈ run,
            token.kind.continuesWith character = true := by
  have characters : token.text.toList ≠ [] := by
    intro empty
    exact nonempty (String.toList_inj.1 empty)
  rcases List.exists_cons_of_ne_nil characters with
    ⟨first, run, shape⟩
  have text : token.text = String.ofList (first :: run) := by
    rw [← shape, String.ofList_toList]
  cases classified with
  | number isNumber digits =>
      rw [shape] at digits
      rw [isNumber]
      refine ⟨first, run, text, ?_, ?_⟩
      · exact
          Kind.ofChar_eq_number_iff.2
            (digits first (List.mem_cons_self ..))
      · intro character member
        exact digits character (List.mem_cons_of_mem first member)
  | whitespace isWhitespace blanks =>
      rw [shape] at blanks
      rw [isWhitespace]
      refine ⟨first, run, text, ?_, ?_⟩
      · exact
          Kind.ofChar_eq_whitespace_iff.2
            (blanks first (List.mem_cons_self ..))
      · intro character member
        exact blanks character (List.mem_cons_of_mem first member)
  | @symbol character found spelled =>
      exact
        ⟨character, [], spelled, Kind.ofChar_of_symbol? found,
          List.forall_mem_nil _⟩
  | @invalid character isInvalid foreign spelled =>
      have kind : Kind.ofChar character = .invalid :=
        Classical.not_not.1 (mt Kind.ofChar_ne_invalid_iff.1 foreign)
      exact
        ⟨character, [], spelled, kind.trans isInvalid.symm,
          List.forall_mem_nil _⟩

/-! ## Pieces behind each other -/

/-- The first piece and the pieces behind it, which are pieces as well. -/
theorem isMaximalMunch_cons_iff :
    IsMaximalMunch start text (token :: tokens) ↔
      token.text ≠ "" ∧
        token.position = start ∧
          token.IsClassified ∧
            (∀ next ∈ tokens.head?, token.StandApart next) ∧
              text = token.text ++ texts tokens ∧
                IsMaximalMunch (start + token.text.utf8ByteSize)
                  (texts tokens) tokens := by
  constructor
  · rintro ⟨nonempty, rfl, placed, classified, apart⟩
    rw [List.forall_mem_cons] at nonempty classified
    rw [List.isChain_cons] at apart
    have atStart := placed [] token tokens rfl
    refine
      ⟨nonempty.1, atStart, classified.1, apart.1, texts_cons ..,
        ⟨nonempty.2, rfl, ?_, classified.2, apart.2⟩⟩
    rintro before inside after rfl
    have behind := placed (token :: before) inside after rfl
    rw [texts_cons, String.utf8ByteSize_append, ← Nat.add_assoc]
      at behind
    exact behind
  · rintro ⟨nonempty, atStart, classified, first, rfl, munch⟩
    refine ⟨?_, texts_cons .., ?_, ?_, ?_⟩
    · exact List.forall_mem_cons.2 ⟨nonempty, munch.nonempty⟩
    · intro before inside after split
      cases before with
      | nil =>
          obtain ⟨rfl, rfl⟩ := List.cons.inj split
          exact atStart
      | cons head before =>
          obtain ⟨rfl, rfl⟩ := List.cons.inj split
          have behind := munch.placed before inside after rfl
          rw [behind, texts_cons, String.utf8ByteSize_append,
            Nat.add_assoc]
    · exact List.forall_mem_cons.2 ⟨classified, munch.classified⟩
    · exact List.isChain_cons.2 ⟨first, munch.apart⟩

/-- Tokens stand apart if the former does not go on with the latter. -/
theorem standApart_iff
    {former latter : Token}
    {first : Char}
    (starts : Kind.ofChar first = latter.kind) :
    former.StandApart latter ↔
      former.kind.continuesWith first = false := by
  constructor
  · intro apart
    rw [Bool.eq_false_iff]
    intro goesOn
    have same := Kind.ofChar_eq_of_continuesWith goesOn
    obtain ⟨notNumber, notWhitespace⟩ :=
      apart (same.symm.trans starts)
    have none :=
      Kind.eq_nil_of_run
        (List.forall_mem_singleton.2 goesOn) notNumber notWhitespace
    contradiction
  · intro stops same
    rw [← same] at starts
    constructor
    · intro isNumber
      rw [isNumber] at starts stops
      have digit := Kind.ofChar_eq_number_iff.1 starts
      rw [Kind.continuesWith, digit] at stops
      contradiction
    · intro isWhitespace
      rw [isWhitespace] at starts stops
      have blank := Kind.ofChar_eq_whitespace_iff.1 starts
      rw [Kind.continuesWith, blank] at stops
      contradiction

/-! ## Pieces and tilings -/

variable
    {characters : List Char}
    {character : Char}
    {next : Token}

/-- The first token of a tiling is of the kind of the first character. -/
theorem Tiling.ofChar_of_mem_head?
    (tiling : Tiling start characters tokens)
    (first : next ∈ tokens.head?) :
    ∃ character ∈ characters.head?,
      Kind.ofChar character = next.kind := by
  cases tiling with
  | nil => contradiction
  | cons run stops tiling =>
      obtain rfl := Option.some.inj first
      exact ⟨_, rfl, (scanned_kind ..).symm⟩

/-- The tokens of a tiling are pieces cut by maximal munch. -/
theorem Tiling.isMaximalMunch
    (tiling : Tiling start characters tokens) :
    IsMaximalMunch start (String.ofList characters) tokens := by
  induction tiling with
  | nil start =>
      exact
        { nonempty := List.forall_mem_nil _
          whole := rfl
          placed := by simp
          classified := List.forall_mem_nil _
          apart := .nil }
  | @cons start first run rest tokens continued stops tiling
      hypothesis =>
      have nonempty := utf8ByteSize_ofList_cons_pos first run
      have remainder : texts tokens = String.ofList rest :=
        hypothesis.whole
      refine
        isMaximalMunch_cons_iff.2
          ⟨?_, scanned_position .., isClassified_scanned continued,
            ?_, ?_, ?_⟩
      · rw [scanned_text]
        intro empty
        rw [empty] at nonempty
        contradiction
      · intro next isNext
        obtain ⟨character, isFirst, starts⟩ :=
          tiling.ofChar_of_mem_head? isNext
        apply (standApart_iff starts).2
        rw [scanned_kind]
        exact stops character isFirst
      · rw [scanned_text, remainder, String.ofList_append]
      · rw [scanned_text, remainder]
        exact hypothesis

/-- The first piece of a text is of the kind of the first character. -/
theorem IsMaximalMunch.ofChar_of_mem_head?
    (munch : IsMaximalMunch start text tokens)
    (first : character ∈ text.toList.head?) :
    ∃ next ∈ tokens.head?, Kind.ofChar character = next.kind := by
  cases tokens with
  | nil =>
      obtain rfl := munch.whole
      contradiction
  | cons token tokens =>
      obtain ⟨nonempty, -, classified, -, rfl, -⟩ :=
        isMaximalMunch_cons_iff.1 munch
      obtain ⟨head, run, shape, kind, -⟩ :=
        classified.exists_run nonempty
      rw [shape, String.toList_append, String.toList_ofList] at first
      obtain rfl := Option.some.inj first
      exact ⟨token, rfl, kind⟩

/-- Pieces cut by maximal munch tile their text, but for their values. -/
theorem IsMaximalMunch.tiling
    (munch : IsMaximalMunch start text tokens) :
    Tiling start text.toList (tokens.map rescanned) := by
  induction tokens generalizing start text with
  | nil =>
      obtain rfl := munch.whole
      exact .nil start
  | cons token tokens hypothesis =>
      obtain ⟨nonempty, atStart, classified, apart, rfl, others⟩ :=
        isMaximalMunch_cons_iff.1 munch
      obtain ⟨first, run, shape, kind, continued⟩ :=
        classified.exists_run nonempty
      have tiling := hypothesis others
      have stops :
          ∀ character ∈ (texts tokens).toList.head?,
            (Kind.ofChar first).continuesWith character = false := by
        intro character isFirst
        obtain ⟨next, isNext, starts⟩ :=
          others.ofChar_of_mem_head? isFirst
        rw [kind]
        exact (standApart_iff starts).1 (apart next isNext)
      rw [← kind] at continued
      rw [shape] at tiling
      have whole := Tiling.cons continued stops tiling
      rw [List.map_cons, rescanned, String.toList_append, shape,
        String.toList_ofList, ← kind, atStart]
      exact whole

/-- Only one list of pieces is cut from a text by maximal munch. -/
theorem IsMaximalMunch.unique
    (munch : IsMaximalMunch start text tokens)
    (other : IsMaximalMunch start text others) :
    others.map unvalued = tokens.map unvalued := by
  have same : others.map rescanned = tokens.map rescanned :=
    other.tiling.unique munch.tiling
  have forgets : unvalued ∘ rescanned = unvalued :=
    funext unvalued_rescanned
  have mapped := congrArg (List.map unvalued) same
  rw [List.map_map, List.map_map, forgets] at mapped
  exact mapped

/-- A text has no more tokens than characters. -/
theorem Tiling.length_le
    (tiling : Tiling start characters tokens) :
    tokens.length ≤ characters.length := by
  induction tiling with
  | nil => exact Nat.le_refl 0
  | cons run stops tiling hypothesis =>
      simp only [List.length_cons, List.length_append,
        List.cons_append]
      omega

end Token

/--
However often the scanner is asked, it gives the pieces of the source that are
cut by maximal munch, which are no more than there are characters, and behind
them the end of file, which changes nothing.  No other pieces are cut like that.
-/
theorem Scanner.nextTokens_maximalMunch (source : String) :
    ∃ tokens : List Token,
      Token.IsMaximalMunch 0 source tokens ∧
        tokens.length ≤ source.length ∧
        (∀ count,
          ((start source).nextTokens count).1 =
              tokens.take count ++
                List.replicate (count - tokens.length)
                  (Token.endOfFile source.utf8ByteSize) ∧
            (((start source).nextTokens count).1.takeWhile fun token =>
                token.kind ≠ .endOfFile) =
              tokens.take count) ∧
        (∀ count,
          tokens.length ≤ count →
            ((start source).nextTokens count).2.next =
              (Token.endOfFile source.utf8ByteSize,
                ((start source).nextTokens count).2)) ∧
        ∀ others,
          Token.IsMaximalMunch 0 source others →
            others.map Token.unvalued =
              tokens.map Token.unvalued := by
  have tiling := TokenBuffer.tiling_ofSource source
  have munch := tiling.isMaximalMunch
  rw [String.ofList_toList] at munch
  refine
    ⟨(start source).drain.1, munch, ?_, ?_, ?_, fun _ => munch.unique⟩
  · rw [← String.length_toList]
    exact tiling.length_le
  · intro count
    have calls := nextTokens_eq_take_append count (start source)
    refine ⟨calls, ?_⟩
    rw [calls, List.takeWhile_append_of_pos]
    · cases count - (start source).drain.1.length <;>
        simp [endOfFile, List.replicate_succ]
    · intro token member
      have found :=
        tiling.kind_ne_endOfFile (List.mem_of_mem_take member)
      exact decide_eq_true found
  · intro count enough
    exact next_nextTokens enough

end Abacus
