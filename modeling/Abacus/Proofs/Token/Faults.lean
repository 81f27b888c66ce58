import Abacus.Proofs.Token.Munch
import Mathlib.Data.List.Forall2

/-!
# Faults of scanned tokens

Two kinds of token are faulty by themselves: a character that starts no token,
and a number whose digits denote more than the greatest word.  Both can be told
from the kind and the text of a token, without its value and without a scanner.

The scanner notes such a token when it gives it, and notes nothing else.  So
after any number of calls its diagnostics are the faulty ones among the tokens
that were given, one by one and in their order.
-/

namespace Abacus

namespace Token

/--
Whether a token is faulty by itself: it is a character that starts no token, or
its digits denote more than the greatest word.
-/
def IsFaulty (token : Token) : Prop :=
  token.kind = .invalid ∨
    token.kind = .number ∧
      Word.greatest < Literal.decimal token.text.toList

instance (token : Token) : Decidable token.IsFaulty :=
  inferInstanceAs (Decidable (_ ∨ _))

/-- Whether a diagnostic is the one for a faulty token of a source. -/
inductive IsReportedBy (source : String) (token : Token) :
    Diagnostic → Prop where
  | invalidCharacter
      {character : Char}
      (isInvalid : token.kind = .invalid)
      (spelled : token.text = String.singleton character) :
      IsReportedBy source token
        (.invalidCharacter character token.position)
  | invalidNumber
      (isNumber : token.kind = .number)
      (tooGreat : Word.greatest < Literal.decimal token.text.toList) :
      IsReportedBy source token
        (.invalidNumber source token.position)

/-- Whether the value of a number is what its digits denote. -/
def IsValued (token : Token) : Prop :=
  token.kind = .number →
    token.value = Word.ofInt? (Literal.decimal token.text.toList)

variable
    {start : Nat}
    {source : String}
    {text : List Char}
    {token : Token}
    {tokens : List Token}
    {fault : Diagnostic}

/-! ## Values -/

/-- A number has the value that its digits denote, and no other. -/
theorem IsValued.value_eq_some_iff
    (valued : token.IsValued)
    (isNumber : token.kind = .number)
    (word : Int32) :
    token.value = some word ↔
      word.toInt = Literal.decimal token.text.toList := by
  rw [valued isNumber]
  exact Word.ofInt?_eq_some_iff

/-- A number lacks a value exactly if its digits denote too much. -/
theorem IsValued.value_eq_none_iff
    (valued : token.IsValued)
    (isNumber : token.kind = .number) :
    token.value = none ↔
      Word.greatest < Literal.decimal token.text.toList := by
  rw [valued isNumber]
  exact Literal.ofInt?_decimal_eq_none_iff

theorem Tiling.isValued
    (tiling : Tiling start text tokens)
    (member : token ∈ tokens) :
    token.IsValued := by
  rcases tiling.exists_of_mem member with
    ⟨before, first, others, after, -, -, rfl⟩
  intro isNumber
  rw [scanned_kind] at isNumber
  rw [isNumber, scanned_text]
  exact Literal.value?_eq _

/-! ## Faults of single tokens -/

theorem position_of_lexicalFault?
    (found : token.lexicalFault? source = some fault) :
    fault.position = token.position := by
  unfold lexicalFault? at found
  split at found
  · obtain rfl := Option.some.inj found
    rfl
  · rcases Option.map_eq_some_iff.1 found with ⟨character, -, rfl⟩
    rfl
  · contradiction

/-- Exactly the faulty tokens have a fault, which is the one for the token. -/
theorem lexicalFault?_cases
    (classified : token.IsClassified)
    (valued : token.IsValued)
    (source : String) :
    (¬ token.IsFaulty ∧ token.lexicalFault? source = none) ∨
      ∃ fault,
        token.lexicalFault? source = some fault ∧
          token.IsFaulty ∧ token.IsReportedBy source fault := by
  cases classified with
  | number isNumber digits =>
      have absent := valued.value_eq_none_iff isNumber
      cases value : token.value with
      | none =>
          have tooGreat := absent.1 value
          refine
            Or.inr
              ⟨_, ?_, Or.inr ⟨isNumber, tooGreat⟩,
                .invalidNumber isNumber tooGreat⟩
          simp [lexicalFault?, isNumber, value]
      | some word =>
          have small :
              ¬ Word.greatest < Literal.decimal token.text.toList := by
            intro tooGreat
            rw [absent.2 tooGreat] at value
            contradiction
          refine Or.inl ⟨?_, ?_⟩
          · simp [IsFaulty, isNumber, small]
          · simp [lexicalFault?, isNumber, value]
  | whitespace isWhitespace blanks =>
      refine Or.inl ⟨?_, ?_⟩
      · simp [IsFaulty, isWhitespace]
      · simp [lexicalFault?, isWhitespace]
  | symbol found spelled =>
      refine Or.inl ⟨?_, ?_⟩
      · rintro (isInvalid | ⟨isNumber, -⟩)
        · simp [isInvalid, Kind.symbol?] at found
        · simp [isNumber, Kind.symbol?] at found
      · revert found
        unfold lexicalFault?
        cases token.kind <;> simp [Kind.symbol?]
  | @invalid character isInvalid foreign spelled =>
      refine
        Or.inr
          ⟨_, ?_, Or.inl isInvalid,
            .invalidCharacter isInvalid spelled⟩
      simp [lexicalFault?, isInvalid, spelled]

/-- The faults of some tokens are those of the faulty ones, one by one. -/
theorem forall₂_filterMap_lexicalFault?
    (each :
      ∀ token ∈ tokens,
        (¬ token.IsFaulty ∧ token.lexicalFault? source = none) ∨
          ∃ fault,
            token.lexicalFault? source = some fault ∧
              token.IsFaulty ∧ token.IsReportedBy source fault) :
    List.Forall₂ (IsReportedBy source)
      (tokens.filter fun token => token.IsFaulty)
      (tokens.filterMap fun token => token.lexicalFault? source) := by
  induction tokens with
  | nil => exact .nil
  | cons token tokens hypothesis =>
      rcases List.forall_mem_cons.1 each with ⟨first, others⟩
      rcases first with
        ⟨faultless, none⟩ | ⟨fault, some, faulty, reported⟩
      · rw [List.filter_cons_of_neg (by simp [faultless]),
          List.filterMap_cons_none none]
        exact hypothesis others
      · rw [List.filter_cons_of_pos (by simp [faulty]),
          List.filterMap_cons_some some]
        exact .cons reported (hypothesis others)

/-- Tokens with rising positions have faults with rising positions. -/
theorem pairwise_filterMap_lexicalFault?
    (ordered :
      tokens.Pairwise
        fun earlier later => earlier.position < later.position)
    (source : String) :
    (tokens.filterMap fun token =>
        token.lexicalFault? source).Pairwise
      fun earlier later => earlier.position < later.position := by
  refine ordered.filterMap _ ?_
  intro earlier later before fault found behind foundBehind
  rw [position_of_lexicalFault? found,
    position_of_lexicalFault? foundBehind]
  exact before

end Token

/-! ## Diagnostics of a scanner -/

namespace Scanner

variable {scanner : Scanner}

/-- A call notes the fault of the token that it gives. -/
theorem diagnostics_next (scanner : Scanner) :
    scanner.next.2.diagnostics =
      scanner.diagnostics ++
        (scanner.next.1.lexicalFault? scanner.source).toList := by
  by_cases finished : scanner.rest = []
  · rw [next_of_rest_eq_nil finished]
    exact (List.append_nil _).symm
  · rcases exists_next_eq finished with
      ⟨first, others, rest, -, -, -, next⟩
    rw [next]
    exact diagnostics_past ..

/-- Some calls note the faults of the tokens that they give. -/
theorem diagnostics_nextTokens
    (count : Nat)
    (scanner : Scanner) :
    (scanner.nextTokens count).2.diagnostics =
      scanner.diagnostics ++
        (scanner.nextTokens count).1.filterMap fun token =>
          token.lexicalFault? scanner.source := by
  induction count generalizing scanner with
  | zero => exact (List.append_nil _).symm
  | succ count hypothesis =>
      have behind := hypothesis scanner.next.2
      rw [source_next, diagnostics_next] at behind
      rw [nextTokens, List.filterMap_cons]
      refine behind.trans ?_
      cases scanner.next.1.lexicalFault? scanner.source <;> simp

/-- The ends of file that are given are no faults. -/
theorem filterMap_lexicalFault?_nextTokens
    (count : Nat)
    (scanner : Scanner)
    (source : String) :
    ((scanner.nextTokens count).1.filterMap fun token =>
        token.lexicalFault? source) =
      (scanner.drain.1.take count).filterMap fun token =>
        token.lexicalFault? source := by
  have silent :
      scanner.endOfFile.lexicalFault? source = none := rfl
  rw [nextTokens_eq_take_append, List.filterMap_append]
  simp [silent]

/-- As many calls as there are tokens find all the faults. -/
theorem diagnostics_nextTokens_of_length_le
    {count : Nat}
    (enough : scanner.drain.1.length ≤ count) :
    (scanner.nextTokens count).2.diagnostics =
      scanner.drain.2.diagnostics := by
  rw [diagnostics_nextTokens, filterMap_lexicalFault?_nextTokens,
    List.take_of_length_le enough, diagnostics_drain]

/-- What a call gives is a token of the source, or else the end of file. -/
theorem mem_drain_or_eq_endOfFile
    {count : Nat}
    {token : Token}
    (given : token ∈ (scanner.nextTokens count).1) :
    token ∈ scanner.drain.1 ∨
      scanner.drain.1.length < count ∧ token = scanner.endOfFile := by
  rw [nextTokens_eq_take_append, List.mem_append] at given
  rcases given with member | member
  · exact Or.inl (List.mem_of_mem_take member)
  · obtain ⟨positive, rfl⟩ := List.mem_replicate.1 member
    exact Or.inr ⟨by omega, rfl⟩

end Scanner

end Abacus
