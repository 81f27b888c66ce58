import Abacus.Proofs.Drawing.Lines
import Abacus.Proofs.Relocation
import Abacus.Proofs.Token.Layout
import Mathlib.Data.List.Nodup

/-!
# Drawings of syntax trees

The label of a node tells its kind and, for a token, its value.  Neither the
names of kinds nor values have blanks in them, so both can be read back.  With
the outline, which can be read back from its drawing, this is all of a tree but
where its tokens are and how they are written.
-/

namespace Abacus

/-! ## Values -/

/-- A number is denoted by its digits. -/
theorem Literal.decimal_repr (number : Nat) :
    decimal number.repr.toList = number := by
  rw [Nat.toList_repr]
  exact Nat.ofDigitChars_ten_toDigits

namespace Word

variable {number other : Nat}

theorem isDigit_of_mem_repr
    {character : Char}
    (member : character ∈ number.repr.toList) :
    character.isDigit = true := by
  rw [Nat.toList_repr] at member
  exact Nat.isDigit_of_mem_toDigits (by decide) (by decide) member

theorem eq_of_repr_eq
    (same : number.repr = other.repr) :
    number = other := by
  rw [← Literal.decimal_repr number, same, Literal.decimal_repr]

/-- What is written with digits alone has no sign. -/
theorem repr_ne_signed
    (number other : Nat) :
    number.repr ≠ "-" ++ other.repr := by
  intro same
  have sign : '-' ∈ number.repr.toList := by
    rw [same, String.toList_append]
    exact List.mem_append_left _ (List.mem_singleton_self _)
  have digit := isDigit_of_mem_repr sign
  contradiction

theorem toString_injective :
    Function.Injective fun word : Int32 => toString word := by
  intro word other same
  apply Int32.toInt_inj.1
  change word.toInt.repr = other.toInt.repr at same
  generalize word.toInt = first at same ⊢
  generalize other.toInt = second at same ⊢
  cases first with
  | ofNat first =>
      cases second with
      | ofNat second => exact congrArg Int.ofNat (eq_of_repr_eq same)
      | negSucc second => exact (repr_ne_signed _ _ same).elim
  | negSucc first =>
      cases second with
      | ofNat second => exact (repr_ne_signed _ _ same.symm).elim
      | negSucc second =>
          have digits := (String.append_right_inj "-").1 same
          exact congrArg Int.negSucc (Nat.succ.inj (eq_of_repr_eq digits))

theorem isPrintable_of_isDigit
    {character : Char}
    (digit : character.isDigit = true) :
    Drawing.isPrintable character = true := by
  rw [Char.isDigit, Bool.and_eq_true, decide_eq_true_eq,
    decide_eq_true_eq] at digit
  have low : '0'.toNat ≤ character.toNat :=
    UInt32.le_iff_toNat_le.1 digit.1
  have high : character.toNat ≤ '9'.toNat :=
    UInt32.le_iff_toNat_le.1 digit.2
  rw [Drawing.isPrintable, Bool.and_eq_true, Nat.ble_eq, Nat.ble_eq]
  exact ⟨Nat.le_trans (by decide) low, Nat.le_trans high (by decide)⟩

/-- A word is written with digits, and a sign if it is negative. -/
theorem isPlain_toString (word : Int32) :
    Drawing.IsPlain (toString word) := by
  have digits (number : Nat) : Drawing.IsPlain number.repr := by
    rw [Drawing.IsPlain, List.all_eq_true]
    intro character member
    exact isPrintable_of_isDigit (isDigit_of_mem_repr member)
  change Drawing.IsPlain word.toInt.repr
  rw [Int.repr_eq_if]
  split
  · exact digits _
  · exact .append rfl (digits _)

end Word

/-! ## Labels -/

namespace Node

/-- All kinds of node. -/
def Kind.all : List Node.Kind :=
  Token.Kind.all.map .token ++ Kind.expressions

theorem Kind.mem_all (kind : Node.Kind) : kind ∈ Kind.all := by
  cases kind with
  | token kind =>
      exact
        List.mem_append_left _
          (List.mem_map_of_mem (Token.Kind.mem_all kind))
  | number => decide
  | binary => decide
  | parenthesized => decide

theorem Kind.name_injective : Function.Injective Kind.name := by
  have distinct : (Kind.all.map Kind.name).Nodup := by decide
  intro kind other same
  exact
    List.inj_on_of_nodup_map distinct kind.mem_all other.mem_all same

theorem Kind.isPlain_name (kind : Node.Kind) :
    Drawing.IsPlain kind.name := by
  have plain :
      (Kind.all.all fun kind =>
        kind.name.toList.all Drawing.isPrintable) = true := by
    decide
  exact List.all_eq_true.1 plain kind kind.mem_all

theorem Kind.blank_not_mem_name (kind : Node.Kind) :
    ' ' ∉ kind.name.toList := by
  have plain : ∀ kind ∈ Kind.all, ' ' ∉ kind.name.toList := by decide
  exact plain kind kind.mem_all

/-- What a drawing tells about a node. -/
structure Content where
  /-- What the node is. -/
  kind : Node.Kind
  /-- The value of a token. -/
  value : Option Int32
deriving DecidableEq

/-- What a drawing tells about a node. -/
def content : Node → Content
  | .token leaf => { kind := .token leaf.kind, value := leaf.value }
  | .expression whole => { kind := whole.nodeKind, value := none }

namespace Content

/-- How a value is written behind a kind. -/
def valueText : Option Int32 → String
  | some value => " " ++ toString value
  | none => ""

/-- How a content is written. -/
def label (content : Content) : String :=
  content.kind.name ++ valueText content.value

theorem valueText_injective : Function.Injective valueText := by
  intro value other same
  cases value with
  | none =>
      cases other with
      | none => rfl
      | some other => simp [valueText] at same
  | some value =>
      cases other with
      | none => simp [valueText] at same
      | some other =>
          have words := (String.append_right_inj " ").1 same
          exact congrArg some (Word.toString_injective words)

/-- What stands behind a kind starts with a blank. -/
theorem head?_valueText
    (value : Option Int32) :
    ∀ character ∈ (valueText value).toList.head?, character = ' ' := by
  intro character first
  cases value with
  | none => simp [valueText] at first
  | some value => simpa [valueText, eq_comm] using first

/-- The kind and the value can be read from what is written of them. -/
theorem label_injective : Function.Injective label := by
  have name (content : Content) :
      content.label.toList.takeWhile (· ≠ ' ') =
        content.kind.name.toList := by
    rw [label, String.toList_append]
    apply Token.takeWhile_run
    · intro character member
      rw [decide_eq_true_eq]
      rintro rfl
      exact content.kind.blank_not_mem_name member
    · intro character first
      rw [head?_valueText content.value character first]
      rfl
  rintro ⟨kind, value⟩ ⟨other, otherValue⟩ same
  obtain rfl : kind = other := by
    apply Kind.name_injective
    apply String.toList_inj.1
    rw [← name ⟨kind, value⟩, same, name]
  obtain rfl :=
    valueText_injective ((String.append_right_inj kind.name).1 same)
  rfl

end Content

theorem label_eq (node : Node) : node.label = node.content.label := by
  cases node with
  | token leaf =>
      obtain ⟨kind, position, text, value⟩ := leaf
      cases value with
      | none => exact (String.append_empty).symm
      | some value => exact String.append_assoc ..
  | expression whole => exact (String.append_empty).symm

theorem isPlain_label (node : Node) : Drawing.IsPlain node.label := by
  have value (value : Option Int32) :
      Drawing.IsPlain (Content.valueText value) := by
    cases value with
    | none => rfl
    | some value => exact .append rfl (Word.isPlain_toString value)
  rw [label_eq]
  exact .append node.content.kind.isPlain_name (value _)

theorem isPlain_of_mem_preorder
    (node : Node) :
    ∀ entry ∈ (node.outline.map label).preorder,
      Drawing.IsPlain entry.2 := by
  rw [Outline.preorder_map, List.forall_mem_map]
  exact fun entry _ => isPlain_label entry.2

end Node

/-! ## Trees without positions and texts -/

/-- A token of which only the kind and the value are left. -/
def Token.erased (token : Token) : Token :=
  { token with position := 0, text := "" }

/-- A node of whose tokens only the kinds and values are left. -/
def Node.erased (node : Node) : Node :=
  node.mapTokens Token.erased

namespace Node

/-- What a drawing tells about a node and everything below it. -/
def contents (node : Node) : Outline Content :=
  node.outline.map content

/-- At the top of the contents there is the content of the node. -/
theorem content_eq_of_contents_eq
    {node other : Node}
    (same : node.contents = other.contents) :
    node.content = other.content := by
  have top (node : Node) : node.contents.label = node.content := by
    rw [contents, outline_eq]
    rfl
  rw [← top node, same, top other]

theorem content_erased (node : Node) :
    node.erased.content = node.content := by
  match node with
  | .token leaf => rfl
  | .expression (.number literal) => rfl
  | .expression (.binary left operator right) => rfl
  | .expression (.parenthesized opening inner closing) => rfl

theorem contents_erased (node : Node) :
    node.erased.contents = node.contents := by
  unfold contents erased
  rw [outline_mapTokens, Outline.map_map]
  exact congrArg node.outline.map (funext content_erased)

end Node

theorem Token.erased_eq_of_content_eq
    {token other : Token}
    (same : (Node.token token).content = (Node.token other).content) :
    token.erased = other.erased := by
  obtain ⟨sameKind, sameValue⟩ := Node.Content.mk.inj same
  unfold Token.erased
  rw [Node.Kind.token.inj sameKind, sameValue]

theorem Expression.nodeKind_eq_of_contents_eq
    {expression other : Expression}
    (same :
      expression.outline.map Node.content =
        other.outline.map Node.content) :
    expression.nodeKind = other.nodeKind :=
  congrArg Node.Content.kind
    (@Node.content_eq_of_contents_eq (.expression expression)
      (.expression other) same)

/-- Two expressions are told apart by the contents of their nodes. -/
theorem Expression.erased_eq_of_contents_eq
    {expression other : Expression}
    (same :
      expression.outline.map Node.content =
        other.outline.map Node.content) :
    expression.mapTokens Token.erased =
      other.mapTokens Token.erased := by
  have kinds := nodeKind_eq_of_contents_eq same
  induction expression generalizing other with
  | number literal =>
      cases other with
      | number otherLiteral =>
          simp only [outline, Outline.map, Outline.mapParts,
            Outline.entry.injEq, List.cons.injEq, and_true] at same
          rw [mapTokens, mapTokens,
            Token.erased_eq_of_content_eq same.2]
      | binary left operator right => cases kinds
      | parenthesized opening inner closing => cases kinds
  | binary left operator right leftSame rightSame =>
      cases other with
      | number otherLiteral => cases kinds
      | binary otherLeft otherOperator otherRight =>
          simp only [outline, Outline.map, Outline.mapParts,
            Outline.entry.injEq, List.cons.injEq, and_true] at same
          obtain ⟨-, sameLeft, sameOperator, sameRight⟩ := same
          rw [mapTokens, mapTokens,
            leftSame sameLeft (nodeKind_eq_of_contents_eq sameLeft),
            Token.erased_eq_of_content_eq sameOperator,
            rightSame sameRight (nodeKind_eq_of_contents_eq sameRight)]
      | parenthesized opening inner closing => cases kinds
  | parenthesized opening inner closing innerSame =>
      cases other with
      | number otherLiteral => cases kinds
      | binary left operator right => cases kinds
      | parenthesized otherOpening otherInner otherClosing =>
          simp only [outline, Outline.map, Outline.mapParts,
            Outline.entry.injEq, List.cons.injEq, and_true] at same
          obtain ⟨-, sameOpening, sameInner, sameClosing⟩ := same
          rw [mapTokens, mapTokens,
            Token.erased_eq_of_content_eq sameOpening,
            innerSame sameInner (nodeKind_eq_of_contents_eq sameInner),
            Token.erased_eq_of_content_eq sameClosing]

namespace Node

variable {node other : Node}

theorem erased_eq_of_contents_eq
    (same : node.contents = other.contents) :
    node.erased = other.erased := by
  have sameContent := content_eq_of_contents_eq same
  cases node with
  | token leaf =>
      cases other with
      | token otherLeaf =>
          exact
            congrArg token (Token.erased_eq_of_content_eq sameContent)
      | expression whole => cases whole <;> cases sameContent
  | expression whole =>
      cases other with
      | token leaf => cases whole <;> cases sameContent
      | expression otherWhole =>
          exact
            congrArg expression
              (Expression.erased_eq_of_contents_eq same)

/-- Trees with the same contents are the same but for positions and texts. -/
theorem contents_eq_iff :
    node.contents = other.contents ↔ node.erased = other.erased := by
  constructor
  · exact erased_eq_of_contents_eq
  · intro same
    rw [← contents_erased node, same, contents_erased other]

/-- Trees with the same drawing have the same contents, and the other way. -/
theorem render_eq_iff_contents_eq :
    node.render = other.render ↔ node.contents = other.contents := by
  have labels (node : Node) :
      node.outline.map label = node.contents.map Content.label := by
    rw [contents, Outline.map_map]
    exact congrArg node.outline.map (funext label_eq)
  constructor
  · intro same
    have outlines :=
      Drawing.eq_of_render_eq node.isPlain_of_mem_preorder
        other.isPlain_of_mem_preorder same
    rw [labels, labels] at outlines
    exact Outline.map_injective Content.label_injective outlines
  · intro same
    unfold render
    rw [labels, labels, same]

/--
A drawing loses the positions and texts of tokens, and nothing else.  Two trees
have one drawing exactly if they are the same without these: if they have the
same shape, and the same kinds and values everywhere in it.
-/
theorem render_eq_iff_erased_eq
    (node other : Node) :
    (node.render = other.render ↔ node.erased = other.erased) ∧
      (node.erased = other.erased ↔ node.contents = other.contents) :=
  ⟨render_eq_iff_contents_eq.trans contents_eq_iff,
    contents_eq_iff.symm⟩

end Node

end Abacus
