import Abacus.Proofs.Token.Tiling

/-!
# Positions

The position of a scanned token is the byte offset of its first character in
the source.  Tokens have characters of their own, so the positions rise from
each token to the next.  Operators and parentheses are single characters of one
byte each, so the byte at the position of such a token is the token itself.
-/

namespace Abacus

/-- Whether the byte of a text at an offset is that of a one-byte character. -/
def Text.HasByte
    (text : String)
    (position : Nat)
    (character : Char) :
    Prop :=
  character.utf8Size = 1 ∧
    text.toByteArray[position]? = some character.val.toUInt8

/-- The character that the tokens of a kind consist of, if there is only one. -/
def Token.Kind.symbol? : Token.Kind → Option Char
  | .plus => some '+'
  | .minus => some '-'
  | .star => some '*'
  | .slash => some '/'
  | .openParen => some '('
  | .closeParen => some ')'
  | _ => none

namespace Text

theorem HasByte.lt_utf8ByteSize
    {text : String}
    {position : Nat}
    {character : Char}
    (found : HasByte text position character) :
    position < text.utf8ByteSize := by
  refine Classical.byContradiction fun outside => ?_
  have nothing : text.toByteArray[position]? = none :=
    getElem?_neg text.toByteArray position outside
  rw [found.2] at nothing
  contradiction

theorem getElem?_append_byte
    (before after : ByteArray)
    (byte : UInt8) :
    (before ++ ([byte].toByteArray ++ after))[before.size]? =
      some byte := by
  have inside :
      before.size < (before ++ ([byte].toByteArray ++ after)).size := by
    simp only [ByteArray.size_append, List.size_toByteArray,
      List.length_singleton]
    omega
  have right :=
    @ByteArray.getElem_append_right before.size before
      ([byte].toByteArray ++ after) inside (Nat.le_refl _)
  rw [getElem?_pos (before ++ ([byte].toByteArray ++ after)) _ inside,
    right]
  simp

/-- A character of one byte is found behind the bytes of those before it. -/
theorem hasByte_of_toList_eq
    {text : String}
    {before after : List Char}
    {character : Char}
    (split : text.toList = before ++ character :: after)
    (narrow : character.utf8Size = 1) :
    HasByte text (String.ofList before).utf8ByteSize character := by
  refine ⟨narrow, ?_⟩
  have bytes :
      text.toByteArray =
        before.utf8Encode ++
          ([character.val.toUInt8].toByteArray ++ after.utf8Encode) := by
    rw [← String.utf8Encode_toList, split, List.utf8Encode_append,
      List.utf8Encode_cons, List.utf8Encode_singleton,
      String.utf8EncodeChar_eq_singleton narrow]
  rw [← String.size_toByteArray, String.toByteArray_ofList, bytes]
  exact getElem?_append_byte _ _ _

end Text

namespace Token

theorem Kind.utf8Size_of_symbol?
    {kind : Kind}
    {symbol : Char}
    (found : kind.symbol? = some symbol) :
    symbol.utf8Size = 1 := by
  revert found
  cases kind <;> simp only [symbol?] <;> rintro ⟨⟩ <;> rfl

/-- Tokens of one-character kinds start with the character of their kind. -/
theorem Kind.eq_of_symbol?_ofChar
    {symbol first : Char}
    (found : (ofChar first).symbol? = some symbol) :
    first = symbol := by
  revert found
  unfold ofChar
  repeat' split
  all_goals simp_all [symbol?]

/-- The byte at the position of a one-character token is that character. -/
theorem Tiling.hasByte_position
    {source : String}
    {tokens : List Token}
    {token : Token}
    {symbol : Char}
    (tiling : Tiling 0 source.toList tokens)
    (member : token ∈ tokens)
    (found : token.kind.symbol? = some symbol) :
    Text.HasByte source token.position symbol := by
  rcases tiling.exists_of_mem member with
    ⟨before, first, others, after, split, -, rfl⟩
  rw [scanned_kind] at found
  rcases Kind.eq_of_symbol?_ofChar found with rfl
  rw [List.append_assoc, List.cons_append] at split
  rw [scanned_position, Nat.zero_add]
  exact
    Text.hasByte_of_toList_eq split (Kind.utf8Size_of_symbol? found)

end Token

/-! ## Order -/

namespace Token

theorem utf8ByteSize_ofList_cons_pos
    (first : Char)
    (others : List Char) :
    0 < (String.ofList (first :: others)).utf8ByteSize := by
  rw [Nat.pos_iff_ne_zero, ne_eq, String.utf8ByteSize_eq_zero_iff,
    ← String.toList_inj, String.toList_ofList]
  exact List.cons_ne_nil first others

variable
    {position : Nat}
    {text : List Char}
    {tokens : List Token}
    {token : Token}

/-- A token of a tiling starts inside the text. -/
theorem Tiling.position_bounds
    (tiling : Tiling position text tokens)
    (member : token ∈ tokens) :
    position ≤ token.position ∧
      token.position <
        position + (String.ofList text).utf8ByteSize := by
  rcases tiling.exists_of_mem member with
    ⟨before, first, others, after, rfl, -, rfl⟩
  have positive := utf8ByteSize_ofList_cons_pos first others
  rw [scanned_position, String.ofList_append,
    String.utf8ByteSize_append, String.ofList_append,
    String.utf8ByteSize_append]
  omega

/-- Each token of a tiling starts behind the one before it. -/
theorem Tiling.pairwise_position
    (tiling : Tiling position text tokens) :
    tokens.Pairwise
      fun earlier later => earlier.position < later.position := by
  induction tiling with
  | nil position => exact .nil
  | @cons position first others rest tokens run stops tiling
      hypothesis =>
      refine List.pairwise_cons.2 ⟨?_, hypothesis⟩
      intro later member
      have behind := (tiling.position_bounds member).1
      have positive := utf8ByteSize_ofList_cons_pos first others
      rw [scanned_position]
      omega

/-- No token of a tiling is missing. -/
theorem Tiling.isMissing_eq_false
    (tiling : Tiling position text tokens)
    (member : token ∈ tokens) :
    token.isMissing = false := by
  rcases tiling.exists_of_mem member with
    ⟨before, first, others, after, -, -, rfl⟩
  have positive := utf8ByteSize_ofList_cons_pos first others
  rw [isMissing, scanned_text, Bool.eq_false_iff, ne_eq,
    String.isEmpty_iff, ← String.utf8ByteSize_eq_zero_iff]
  omega

end Token

namespace TokenBuffer

variable
    {source : String}
    {token : Token}

theorem position_lt_sourceEnd
    (member : token ∈ (ofSource source).tokens) :
    token.position < (ofSource source).sourceEnd := by
  have bounds :=
    (tiling_ofSource source).position_bounds
      (mem_drain_of_mem_tokens member)
  rw [Nat.zero_add, String.ofList_toList] at bounds
  exact bounds.2

theorem pairwise_position (source : String) :
    (ofSource source).tokens.Pairwise
      fun earlier later => earlier.position < later.position :=
  (tiling_ofSource source).pairwise_position.filter _

theorem isMissing_eq_false
    (member : token ∈ (ofSource source).tokens) :
    token.isMissing = false :=
  (tiling_ofSource source).isMissing_eq_false
    (mem_drain_of_mem_tokens member)

end TokenBuffer

/-! ## Bytes -/

/-- The operators and parentheses of a buffer are where their positions say. -/
theorem TokenBuffer.hasByte_position
    {source : String}
    {token : Token}
    {symbol : Char}
    (member : token ∈ (ofSource source).tokens)
    (found : token.kind.symbol? = some symbol) :
    Text.HasByte source token.position symbol :=
  (tiling_ofSource source).hasByte_position
    (mem_drain_of_mem_tokens member) found

end Abacus
