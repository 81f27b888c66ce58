import Abacus.Proofs.Token.Position
import Abacus.Proofs.Token.Spelling

/-!
# Tokens laid out

A text can be cut into tokens in one way only.  So to know which tokens are
scanned from a text it is enough to have tokens that tile it, wherever these
come from.

Tokens can be laid out to form a text.  Operators and parentheses keep apart
whatever stands on their two sides: a token that stops before one of them stops
there in any text, and none goes on with what comes behind them.
-/

namespace Abacus

namespace Token

/-! ## Tilings are unique -/

variable
    {position : Nat}
    {text front back : List Char}
    {tokens others : List Token}
    {token : Token}

/-- A run of characters that stops is found by taking as many as possible. -/
theorem takeWhile_run
    {continues : Char → Bool}
    {run rest : List Char}
    (continued :
      ∀ character ∈ run, continues character = true)
    (stops :
      ∀ character ∈ rest.head?, continues character = false) :
    (run ++ rest).takeWhile continues = run := by
  rw [List.takeWhile_append_of_pos continued]
  have none : rest.takeWhile continues = [] := by
    cases rest with
    | nil => rfl
    | cons first others =>
        rw [List.takeWhile_cons_of_neg]
        rw [stops first rfl]
        exact Bool.false_ne_true
  rw [none, List.append_nil]

theorem Tiling.eq_nil
    (tiling : Tiling position [] tokens) :
    tokens = [] := by
  generalize shape : ([] : List Char) = text at tiling
  cases tiling with
  | nil => rfl
  | cons run stops tiling => contradiction

/-- There is only one way to cut a text into tokens. -/
theorem Tiling.unique
    (tiling : Tiling position text tokens)
    (other : Tiling position text others) :
    tokens = others := by
  induction tiling generalizing others with
  | nil position => exact other.eq_nil.symm
  | @cons position first run rest tokens continued stops tiling
      hypothesis =>
      generalize shape : first :: run ++ rest = whole at other
      cases other with
      | nil => contradiction
      | @cons _ head tail remainder _ otherContinued otherStops
          otherTiling =>
          obtain ⟨rfl, same⟩ := List.cons.inj shape
          have sameRun : run = tail := by
            rw [← takeWhile_run continued stops,
              ← takeWhile_run otherContinued otherStops]
            exact congrArg _ same
          subst sameRun
          obtain rfl := List.append_cancel_left same
          rw [hypothesis otherTiling]

/-! ## Spelling -/

/--
Whether a token spells its kind: a number has digits and the word that they
denote, an operator or a parenthesis its character.
-/
inductive IsSpelled (token : Token) : Prop where
  | number
      {word : Int32}
      (isNumber : token.kind = .number)
      (nonempty : token.text.toList ≠ [])
      (digits :
        ∀ character ∈ token.text.toList, character.isDigit = true)
      (valued : token.value = some word)
      (denotes : word.toInt = Literal.decimal token.text.toList)
  | symbol
      {character : Char}
      (found : token.kind.symbol? = some character)
      (spelled : token.text = String.singleton character)

/-- A token at another position. -/
def movedTo (position : Nat) (token : Token) : Token :=
  { token with position }

/-- A token at another position, which keeps its value if it is a number. -/
def strippedAt (position : Nat) (token : Token) : Token :=
  { token with
    position
    value := if token.kind = .number then token.value else none }

@[simp]
theorem strippedAt_kind
    (position : Nat)
    (token : Token) :
    (token.strippedAt position).kind = token.kind := rfl

theorem strippedAt_eq_movedTo
    (unvalued : token.kind ≠ .number → token.value = none) :
    token.strippedAt position = token.movedTo position := by
  unfold strippedAt movedTo
  split
  · rfl
  · rename_i notNumber
    rw [unvalued notNumber]

theorem Kind.ofChar_of_symbol?
    {kind : Kind}
    {symbol : Char}
    (found : kind.symbol? = some symbol) :
    Kind.ofChar symbol = kind := by
  revert found
  cases kind <;> simp only [symbol?] <;> rintro ⟨⟩ <;> rfl

/-- No token goes on with an operator or a parenthesis. -/
theorem Kind.continuesWith_symbol
    {kind : Kind}
    {symbol : Char}
    (found : kind.symbol? = some symbol)
    (other : Kind) :
    other.continuesWith symbol = false := by
  revert found
  cases kind <;> simp only [symbol?] <;> rintro ⟨⟩ <;>
    cases other <;> decide

/-- An operator or a parenthesis goes on with nothing. -/
theorem Kind.continuesWith_of_symbol?
    {kind : Kind}
    {symbol : Char}
    (found : kind.symbol? = some symbol)
    (character : Char) :
    kind.continuesWith character = false := by
  revert found
  cases kind <;> simp [symbol?, continuesWith]

namespace IsSpelled

/-- A number of one digit is well spelled. -/
theorem digit
    {text : String}
    {word : Int32}
    (character : Char)
    (spelled : text = String.singleton character)
    (isDigit : character.isDigit = true)
    (denotes : word.toInt = Literal.digitValue character) :
    (Token.number position text (some word)).IsSpelled := by
  have shape : text.toList = [character] := by
    rw [spelled, String.toList_singleton]
  refine .number rfl ?_ ?_ rfl ?_
  · rw [Token.number, shape]
    exact List.cons_ne_nil _ _
  · rw [Token.number, shape]
    intro other member
    rw [List.mem_singleton.1 member]
    exact isDigit
  · rw [denotes, Token.number, shape]
    simp [Literal.decimal, Literal.extend]

/-- A well spelled token is the one that is scanned from its text. -/
theorem strippedAt_eq
    (spelled : token.IsSpelled)
    (position : Nat) :
    token.strippedAt position =
      Token.scanned token.kind position token.text := by
  cases spelled with
  | number isNumber nonempty digits valued denotes =>
      have value := Word.ofInt?_eq_some_iff.2 denotes
      rw [strippedAt, if_pos isNumber, valued, isNumber,
        Token.scanned, Token.number, Literal.value?_eq, value]
  | symbol found spelled =>
      unfold strippedAt
      revert found
      cases token.kind <;> simp [Kind.symbol?, Token.scanned, plain]

/-- The text of a well spelled token is a single token. -/
theorem exists_run (spelled : token.IsSpelled) :
    ∃ first others,
      token.text = String.ofList (first :: others) ∧
        Kind.ofChar first = token.kind ∧
          ∀ character ∈ others,
            token.kind.continuesWith character = true := by
  cases spelled with
  | number isNumber nonempty digits valued denotes =>
      rcases List.exists_cons_of_ne_nil nonempty with
        ⟨first, others, shape⟩
      rw [shape] at digits
      refine ⟨first, others, ?_, ?_, ?_⟩
      · rw [← shape, String.ofList_toList]
      · rw [isNumber, Kind.ofChar_eq_number_iff]
        exact digits first (List.mem_cons_self ..)
      · intro character member
        rw [isNumber]
        exact digits character (List.mem_cons_of_mem _ member)
  | @symbol character found spelled =>
      refine ⟨character, [], spelled, ?_, ?_⟩
      · exact Kind.ofChar_of_symbol? found
      · intro other member
        contradiction

/-- Only numbers have no character of their own. -/
theorem exists_symbol
    (spelled : token.IsSpelled)
    (notNumber : token.kind ≠ .number) :
    ∃ symbol, token.kind.symbol? = some symbol := by
  cases spelled with
  | number isNumber nonempty digits valued denotes =>
      exact (notNumber isNumber).elim
  | @symbol character found spelled => exact ⟨character, found⟩

theorem isSignificant
    (spelled : token.IsSpelled) :
    token.kind.isSignificant = true := by
  cases spelled with
  | number isNumber nonempty digits valued denotes =>
      rw [isNumber]
      rfl
  | symbol found spelled =>
      revert found
      cases token.kind <;> simp [Kind.symbol?, Kind.isSignificant]

theorem lexicalFault?_strippedAt
    (spelled : token.IsSpelled)
    (position : Nat)
    (source : String) :
    (token.strippedAt position).lexicalFault? source = none := by
  rw [spelled.strippedAt_eq]
  cases spelled with
  | @number word isNumber nonempty digits valued denotes =>
      have small := word.toInt_lt
      rw [isNumber, lexicalFault?_scanned_number_eq_none_iff,
        ← denotes]
      exact Int.le_of_lt_add_one small
  | symbol found spelled =>
      apply lexicalFault?_scanned_eq_none
      all_goals
        intro same
        rw [same] at found
        contradiction

end IsSpelled

/-! ## Laying out -/

@[simp]
theorem texts_nil : texts [] = "" := rfl

@[simp]
theorem texts_cons
    (token : Token)
    (tokens : List Token) :
    texts (token :: tokens) = token.text ++ texts tokens :=
  String.join_cons

@[simp]
theorem texts_append
    (front back : List Token) :
    texts (front ++ back) = texts front ++ texts back := by
  induction front with
  | nil => simp
  | cons token tokens hypothesis => simp [hypothesis, String.append_assoc]

/-- A well spelled token by itself tiles its text. -/
theorem IsSpelled.tiling
    (spelled : token.IsSpelled)
    (position : Nat) :
    Tiling position token.text.toList [token.strippedAt position] := by
  rcases spelled.exists_run with ⟨first, others, text, kind, run⟩
  rw [← kind] at run
  have alone :
      Tiling position (first :: others ++ [])
        [scanned (Kind.ofChar first) position
          (String.ofList (first :: others))] :=
    .cons run (by simp) (.nil _)
  rw [spelled.strippedAt_eq, ← kind, text, String.toList_ofList]
  rwa [List.append_nil] at alone

/-- Tilings may be put together where no token would go on. -/
theorem Tiling.append
    (tiling : Tiling position front tokens)
    (stops :
      ∀ kind : Kind,
        ∀ character ∈ back.head?,
          kind.continuesWith character = false)
    (continued :
      Tiling (position + (String.ofList front).utf8ByteSize)
        back others) :
    Tiling position (front ++ back) (tokens ++ others) := by
  induction tiling with
  | nil position => exact continued
  | @cons position first run rest tokens running ended tiling
      hypothesis =>
      rw [String.ofList_append, String.utf8ByteSize_append,
        ← Nat.add_assoc] at continued
      rw [List.append_assoc, List.cons_append]
      refine .cons running ?_ (hypothesis continued)
      cases rest with
      | nil => exact stops _
      | cons next rest => exact ended

variable
    {before after : String}
    {symbol : Char}

/-- An operator or a parenthesis may stand before any token. -/
theorem Tiling.symbol_cons
    (found : token.kind.symbol? = some symbol)
    (spelled : token.IsSpelled)
    (continued :
      Tiling (position + token.text.utf8ByteSize) after.toList tokens) :
    Tiling position (token.text ++ after).toList
      (token.strippedAt position :: tokens) := by
  rcases spelled.exists_run with ⟨first, others, shape, kind, run⟩
  rw [shape] at continued
  rw [spelled.strippedAt_eq, ← kind, shape, String.toList_append,
    String.toList_ofList]
  rw [← kind] at found run
  refine .cons run ?_ continued
  intro character member
  exact Kind.continuesWith_of_symbol? found character

/-- An operator or a parenthesis may stand between any tokens. -/
theorem Tiling.join
    (found : token.kind.symbol? = some symbol)
    (spelled : token.IsSpelled)
    (tiling : Tiling position before.toList tokens)
    (continued :
      Tiling
        (position + before.utf8ByteSize + token.text.utf8ByteSize)
        after.toList others) :
    Tiling position (before ++ (token.text ++ after)).toList
      (tokens ++
        token.strippedAt (position + before.utf8ByteSize) ::
          others) := by
  rw [String.toList_append]
  refine tiling.append ?_ ?_
  · intro kind character member
    rcases spelled.exists_run with ⟨first, others, shape, same, -⟩
    rw [shape, String.toList_append, String.toList_ofList] at member
    obtain rfl := Option.some.inj member
    rw [← same] at found
    rw [Kind.eq_of_symbol?_ofChar found]
    exact Kind.continuesWith_symbol found kind
  · rw [String.ofList_toList]
    exact symbol_cons found spelled continued

/-- A run of the same operator or parenthesis is as many tokens. -/
theorem Tiling.replicate
    {kind : Kind}
    {count : Nat}
    {rest : List Char}
    (found : kind.symbol? = some symbol)
    (tiling : Tiling (position + count) rest tokens) :
    Tiling position
      (List.replicate count symbol ++ rest)
      ((List.range' position count).map
          (fun place => .plain kind place (String.singleton symbol)) ++
        tokens) := by
  induction count generalizing position with
  | zero => exact tiling
  | succ count hypothesis =>
      have spelled :
          (plain kind position (String.singleton symbol)).IsSpelled :=
        .symbol found rfl
      have stays :
          (plain kind position (String.singleton symbol)).strippedAt
              position =
            plain kind position (String.singleton symbol) :=
        strippedAt_eq_movedTo fun _ => rfl
      have size : (String.singleton symbol).utf8ByteSize = 1 :=
        String.utf8ByteSize_singleton.trans
          (Kind.utf8Size_of_symbol? found)
      rw [← Nat.succ_add_eq_add_succ, Nat.succ_eq_add_one] at tiling
      have others := hypothesis tiling
      rw [← @String.toList_ofList (List.replicate count symbol ++ rest)]
        at others
      have whole :=
        Tiling.symbol_cons found spelled (by rw [plain, size]; exact others)
      rw [stays, String.toList_append, String.toList_ofList] at whole
      simpa [List.replicate_succ, List.range'_succ, plain] using whole

end Token

/--
A buffer has the significant ones of the tokens that tile its source, and the
faults of all of them.
-/
theorem TokenBuffer.ofSource_eq_of_tiling
    {source : String}
    {tokens : List Token}
    (tiling : Token.Tiling 0 source.toList tokens) :
    ofSource source =
      { tokens := tokens.filter fun token => token.kind.isSignificant
        sourceEnd := source.utf8ByteSize
        diagnostics :=
          tokens.filterMap fun token => token.lexicalFault? source } := by
  have scanned := (tiling_ofSource source).unique tiling
  have silent :
      (ofSource source).diagnostics =
        tokens.filterMap fun token => token.lexicalFault? source := by
    rw [diagnostics_ofSource, scanned]
  have kept :
      (ofSource source).tokens =
        tokens.filter fun token => token.kind.isSignificant := by
    rw [← scanned]
    rfl
  rw [← silent, ← kept]
  rfl

end Abacus
