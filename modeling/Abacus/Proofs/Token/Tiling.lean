import Abacus.Token.Buffer

/-!
# Tilings

A tiling cuts a text into tokens that stand one behind the other.  The first
character of a token gives its kind, the token goes on as long as the next
character continues that kind, and the next token starts where it ends.

The scanner's tokens tile the source, and its diagnostics are the faults of
these tokens by themselves.  What is known of a token in a tiling is thus known
of every token that is scanned, without another look at the scanner.
-/

namespace Abacus

/-- Tokens that cut up a text which starts at a byte offset. -/
inductive Token.Tiling : Nat → List Char → List Token → Prop where
  | nil (position : Nat) : Tiling position [] []
  | cons
      {position : Nat}
      {first : Char}
      {others rest : List Char}
      {tokens : List Token}
      (run :
        ∀ character ∈ others,
          (Kind.ofChar first).continuesWith character = true)
      (stops :
        ∀ character ∈ rest.head?,
          (Kind.ofChar first).continuesWith character = false)
      (tiling :
        Tiling
          (position +
            (String.ofList (first :: others)).utf8ByteSize)
          rest tokens) :
      Tiling position (first :: others ++ rest)
        (Token.scanned (Kind.ofChar first) position
          (String.ofList (first :: others)) :: tokens)

namespace Token

@[simp]
theorem scanned_kind
    (kind : Kind)
    (position : Nat)
    (text : String) :
    (scanned kind position text).kind = kind := by
  cases kind <;> rfl

@[simp]
theorem scanned_position
    (kind : Kind)
    (position : Nat)
    (text : String) :
    (scanned kind position text).position = position := by
  cases kind <;> rfl

@[simp]
theorem scanned_text
    (kind : Kind)
    (position : Nat)
    (text : String) :
    (scanned kind position text).text = text := by
  cases kind <;> rfl

theorem Kind.ofChar_ne_endOfFile (character : Char) :
    Kind.ofChar character ≠ .endOfFile := by
  unfold Kind.ofChar
  repeat' split
  all_goals decide

/-- Where a token of a tiling stands in the text. -/
theorem Tiling.exists_of_mem
    {position : Nat}
    {text : List Char}
    {tokens : List Token}
    {token : Token}
    (tiling : Tiling position text tokens)
    (member : token ∈ tokens) :
    ∃ before first others after,
      text = before ++ first :: others ++ after ∧
        (∀ character ∈ others,
          (Kind.ofChar first).continuesWith character = true) ∧
        token =
          scanned (Kind.ofChar first)
            (position + (String.ofList before).utf8ByteSize)
            (String.ofList (first :: others)) := by
  induction tiling with
  | nil position => contradiction
  | @cons position first others rest tokens run stops tiling
      hypothesis =>
      rcases List.mem_cons.1 member with rfl | member
      · exact ⟨[], first, others, rest, rfl, run, rfl⟩
      · rcases hypothesis member with
          ⟨before, head, tail, after, shape, continues, rfl⟩
        refine
          ⟨first :: others ++ before, head, tail, after, ?_,
            continues, ?_⟩
        · simp [shape]
        · rw [String.ofList_append, String.utf8ByteSize_append,
            Nat.add_assoc]

/-- The end of file is no piece of a text. -/
theorem Tiling.kind_ne_endOfFile
    {position : Nat}
    {text : List Char}
    {tokens : List Token}
    {token : Token}
    (tiling : Tiling position text tokens)
    (member : token ∈ tokens) :
    token.kind ≠ .endOfFile := by
  rcases tiling.exists_of_mem member with
    ⟨before, first, others, after, -, -, rfl⟩
  rw [scanned_kind]
  exact Kind.ofChar_ne_endOfFile first

theorem isLexical_of_lexicalFault?
    {source : String}
    {token : Token}
    {fault : Diagnostic}
    (found : token.lexicalFault? source = some fault) :
    fault.isLexical = true := by
  unfold lexicalFault? at found
  split at found
  · cases found
    rfl
  · rcases Option.map_eq_some_iff.1 found with ⟨character, -, rfl⟩
    rfl
  · contradiction

end Token

namespace Scanner

/-- Induction on the tokens that a scanner still has before it. -/
theorem drain_induction
    {motive : Scanner → Prop}
    (finished :
      ∀ scanner : Scanner, scanner.rest = [] → motive scanner)
    (unfinished :
      ∀ scanner : Scanner,
        scanner.rest ≠ [] →
          motive scanner.next.2 → motive scanner)
    (scanner : Scanner) :
    motive scanner := by
  by_cases empty : scanner.rest = []
  · exact finished scanner empty
  · exact
      unfinished scanner empty
        (drain_induction finished unfinished scanner.next.2)
termination_by scanner.rest.length
decreasing_by
  exact length_rest_next_lt empty

@[simp]
theorem source_past
    (scanner : Scanner)
    (token : Token)
    (rest : List Char) :
    (scanner.past token rest).source = scanner.source := rfl

@[simp]
theorem position_past
    (scanner : Scanner)
    (token : Token)
    (rest : List Char) :
    (scanner.past token rest).position =
      scanner.position + token.text.utf8ByteSize := rfl

@[simp]
theorem rest_past
    (scanner : Scanner)
    (token : Token)
    (rest : List Char) :
    (scanner.past token rest).rest = rest := rfl

/-- The next token is as long as its kind allows. -/
theorem exists_next_eq
    {scanner : Scanner}
    (nonempty : scanner.rest ≠ []) :
    ∃ first others rest,
      scanner.rest = first :: others ++ rest ∧
        (∀ character ∈ others,
          (Token.Kind.ofChar first).continuesWith character =
            true) ∧
        (∀ character ∈ rest.head?,
          (Token.Kind.ofChar first).continuesWith character =
            false) ∧
        scanner.next =
          (Token.scanned (.ofChar first) scanner.position
              (String.ofList (first :: others)),
            scanner.past
              (Token.scanned (.ofChar first) scanner.position
                (String.ofList (first :: others)))
              rest) := by
  match shape : scanner.rest with
  | [] => contradiction
  | first :: others =>
      refine
        ⟨first,
          others.takeWhile (Token.Kind.ofChar first).continuesWith,
          others.dropWhile (Token.Kind.ofChar first).continuesWith,
          ?_, ?_, ?_, ?_⟩
      · rw [List.cons_append, List.takeWhile_append_dropWhile]
      · exact List.all_eq_true.1 List.all_takeWhile
      · intro character member
        have stopped :=
          List.head?_dropWhile_not
            (Token.Kind.ofChar first).continuesWith others
        rw [member] at stopped
        exact stopped
      · simp only [next, shape]

/-- The tokens that are scanned tile the text that is still to be scanned. -/
theorem tiling_drain (scanner : Scanner) :
    Token.Tiling scanner.position scanner.rest scanner.drain.1 := by
  induction scanner using drain_induction with
  | finished scanner empty =>
      rw [drain_of_rest_eq_nil empty, empty]
      exact .nil _
  | unfinished scanner nonempty hypothesis =>
      rcases exists_next_eq nonempty with
        ⟨first, others, rest, shape, run, stops, next⟩
      rw [drain_of_rest_ne_nil nonempty, shape]
      rw [next, position_past, Token.scanned_text, rest_past]
        at hypothesis
      rw [next]
      exact .cons run stops hypothesis

/-- The faults of a scanned text are those of its tokens by themselves. -/
theorem diagnostics_drain (scanner : Scanner) :
    scanner.drain.2.diagnostics =
      scanner.diagnostics ++
        scanner.drain.1.filterMap fun token =>
          token.lexicalFault? scanner.source := by
  induction scanner using drain_induction with
  | finished scanner empty =>
      rw [drain_of_rest_eq_nil empty]
      simp
  | unfinished scanner nonempty hypothesis =>
      rcases exists_next_eq nonempty with
        ⟨first, others, rest, shape, run, stops, next⟩
      rw [drain_of_rest_ne_nil nonempty]
      rw [next, source_past, diagnostics_past] at hypothesis
      rw [next, hypothesis, List.filterMap_cons, List.append_assoc]
      cases Token.lexicalFault? scanner.source _ <;> rfl

end Scanner

namespace TokenBuffer

/-- The scanned tokens of a source tile it from its start to its end. -/
theorem tiling_ofSource (source : String) :
    Token.Tiling 0 source.toList (Scanner.start source).drain.1 :=
  Scanner.tiling_drain (.start source)

theorem diagnostics_ofSource (source : String) :
    (ofSource source).diagnostics =
      (Scanner.start source).drain.1.filterMap fun token =>
        token.lexicalFault? source :=
  Scanner.diagnostics_drain (.start source)

/-- The diagnostics of a buffer are all lexical. -/
theorem isLexical_of_mem_diagnostics
    {source : String}
    {fault : Diagnostic}
    (member : fault ∈ (ofSource source).diagnostics) :
    fault.isLexical = true := by
  rw [diagnostics_ofSource, List.mem_filterMap] at member
  rcases member with ⟨token, -, found⟩
  exact Token.isLexical_of_lexicalFault? found

theorem mem_drain_of_mem_tokens
    {source : String}
    {token : Token}
    (member : token ∈ (ofSource source).tokens) :
    token ∈ (Scanner.start source).drain.1 :=
  (List.mem_filter.1 member).1

/-- No token of a buffer is the end of file. -/
theorem kind_ne_endOfFile
    {source : String}
    {token : Token}
    (member : token ∈ (ofSource source).tokens) :
    token.kind ≠ .endOfFile :=
  (tiling_ofSource source).kind_ne_endOfFile
    (mem_drain_of_mem_tokens member)

end TokenBuffer

end Abacus
