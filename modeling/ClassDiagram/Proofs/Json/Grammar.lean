import ClassDiagram.Proofs.Json.ReadBack

set_option autoImplicit false

/-!
Which texts are JSON, by the grammar of RFC 8259 and without regard to any reader.
-/
namespace ClassDiagram.Json

/-- Any number of spaces, tabs, line feeds and carriage returns. -/
def IsBlank (s : List Char) : Prop := ∀ c ∈ s, isSpace c = true

def IsHex (c : Char) : Prop := c.isDigit = true ∨ 'a' ≤ c ∧ c ≤ 'f' ∨ 'A' ≤ c ∧ c ≤ 'F'

inductive IsChars : List Char → Prop
  | nil : IsChars []
  | plain {c : Char} {rest : List Char} (noQuote : c ≠ '"') (noSlash : c ≠ '\\')
      (noControl : 0x20 ≤ c.toNat) : IsChars rest → IsChars (c :: rest)
  | short {letter : Char} {rest : List Char}
      (known : letter ∈ ['"', '\\', '/', 'b', 'f', 'n', 'r', 't']) :
      IsChars rest → IsChars ('\\' :: letter :: rest)
  | unicode {first second third fourth : Char} {rest : List Char} (first_ok : IsHex first)
      (second_ok : IsHex second) (third_ok : IsHex third) (fourth_ok : IsHex fourth) :
      IsChars rest → IsChars ('\\' :: 'u' :: first :: second :: third :: fourth :: rest)

inductive IsString : List Char → Prop
  | quoted {s : List Char} (chars : IsChars s) : IsString ('"' :: (s ++ ['"']))

def IsDigits (s : List Char) : Prop := s ≠ [] ∧ ∀ c ∈ s, c.isDigit = true

/-- Digits, the first of them no zero unless it stands alone. -/
def IsInt (s : List Char) : Prop := IsDigits s ∧ (s = ['0'] ∨ s.head? ≠ some '0')

inductive IsFraction : List Char → Prop
  | none : IsFraction []
  | point {digits : List Char} (digits_ok : IsDigits digits) : IsFraction ('.' :: digits)

inductive IsPower : List Char → Prop
  | none : IsPower []
  | ten {mark : Char} {sign digits : List Char} (mark_ok : mark = 'e' ∨ mark = 'E')
      (sign_ok : sign = [] ∨ sign = ['+'] ∨ sign = ['-']) (digits_ok : IsDigits digits) :
      IsPower (mark :: (sign ++ digits))

inductive IsNumeral : List Char → Prop
  | parts {sign whole fraction power : List Char} (sign_ok : sign = [] ∨ sign = ['-'])
      (whole_ok : IsInt whole) (fraction_ok : IsFraction fraction) (power_ok : IsPower power) :
      IsNumeral (sign ++ (whole ++ (fraction ++ power)))

mutual

inductive IsValue : List Char → Prop
  | null : IsValue "null".toList
  | yes : IsValue "true".toList
  | no : IsValue "false".toList
  | number {s : List Char} (numeral : IsNumeral s) : IsValue s
  | string {s : List Char} (quoted : IsString s) : IsValue s
  | emptyList {blank : List Char} (blank_ok : IsBlank blank) : IsValue ('[' :: (blank ++ [']']))
  | list {items : List Char} (items_ok : IsItems items) : IsValue ('[' :: (items ++ [']']))
  | emptyObject {blank : List Char} (blank_ok : IsBlank blank) :
      IsValue ('{' :: (blank ++ ['}']))
  | object {members : List Char} (members_ok : IsMembers members) :
      IsValue ('{' :: (members ++ ['}']))

inductive IsItems : List Char → Prop
  | last {before value after : List Char} (before_ok : IsBlank before) (value_ok : IsValue value)
      (after_ok : IsBlank after) : IsItems (before ++ (value ++ after))
  | more {before value after rest : List Char} (before_ok : IsBlank before)
      (value_ok : IsValue value) (after_ok : IsBlank after) (rest_ok : IsItems rest) :
      IsItems (before ++ (value ++ (after ++ ',' :: rest)))

inductive IsMember : List Char → Prop
  | named {before name gap space value : List Char} (before_ok : IsBlank before)
      (name_ok : IsString name) (gap_ok : IsBlank gap) (space_ok : IsBlank space)
      (value_ok : IsValue value) :
      IsMember (before ++ (name ++ (gap ++ ':' :: (space ++ value))))

inductive IsMembers : List Char → Prop
  | last {member after : List Char} (member_ok : IsMember member) (after_ok : IsBlank after) :
      IsMembers (member ++ after)
  | more {member after rest : List Char} (member_ok : IsMember member) (after_ok : IsBlank after)
      (rest_ok : IsMembers rest) : IsMembers (member ++ (after ++ ',' :: rest))

end

inductive IsText : List Char → Prop
  | around {before value after : List Char} (before_ok : IsBlank before) (value_ok : IsValue value)
      (after_ok : IsBlank after) : IsText (before ++ (value ++ after))

theorem isHex_digitChar (digit : Nat) (small : digit < 16) : IsHex (Nat.digitChar digit) := by
  have all : ∀ digit < 16, (Nat.digitChar digit).isDigit = true ∨
      'a' ≤ Nat.digitChar digit ∧ Nat.digitChar digit ≤ 'f' ∨
      'A' ≤ Nat.digitChar digit ∧ Nat.digitChar digit ≤ 'F' := by decide
  exact all digit small

theorem isChars_writeChar (c : Char) {rest : List Char} (rest_ok : IsChars rest) :
    IsChars (writeChar c ++ rest) := by
  unfold writeChar
  iterate 7
    split
    · exact .short (by decide) rest_ok
  split
  · next control =>
      have zero : IsHex '0' := .inl rfl
      exact .unicode zero zero (isHex_digitChar _ (by omega)) (isHex_digitChar _ (by omega)) rest_ok
  · next noQuote noSlash _ _ _ _ _ noControl =>
      exact .plain noQuote noSlash (Nat.le_of_not_lt noControl) rest_ok

theorem isString_writeText (value : String) : IsString (writeText value) := by
  have chars (characters : List Char) : IsChars (characters.flatMap writeChar) := by
    induction characters with
    | nil => exact .nil
    | cons c characters ih =>
        rw [List.flatMap_cons]
        exact isChars_writeChar c ih
  exact .quoted (chars value.toList)

theorem isDigits_toDigits (value : Nat) : IsDigits (Nat.toDigits 10 value) :=
  ⟨Nat.toDigits_ne_nil, fun _ mem => Decimal.isDigit_of_mem_toDigits mem⟩

theorem isNumeral_toDigits (value : Nat) : IsNumeral (Nat.toDigits 10 value) := by
  have whole : IsInt (Nat.toDigits 10 value) :=
    ⟨isDigits_toDigits value, Decimal.front_toDigits value⟩
  simpa only [List.nil_append, List.append_nil] using IsNumeral.parts (.inl rfl) whole .none .none

theorem isPower_powerText (power : Option Int) : IsPower (Decimal.Numeral.powerText power) := by
  cases power with
  | none => exact .none
  | some power =>
      have digits := isDigits_toDigits power.natAbs
      rcases Int.lt_or_le power 0 with negative | positive
      · rw [Decimal.Numeral.powerText, if_pos negative]
        exact .ten (.inl rfl) (.inr (.inr rfl)) digits
      · rw [Decimal.Numeral.powerText, if_neg (Int.not_lt.2 positive)]
        exact .ten (.inl rfl) (.inr (.inl rfl)) digits

theorem isNumeral_text {numeral : Decimal.Numeral} (sound : numeral.Sound) (negative : Bool) :
    IsNumeral (Double.signText negative ++ numeral.text) := by
  refine .parts ?_ ⟨⟨sound.nonempty, sound.digits⟩, sound.front⟩ ?_ (isPower_powerText _)
  · cases negative with
    | true => exact .inr rfl
    | false => exact .inl rfl
  · unfold Decimal.Numeral.fractionText
    split
    · exact .none
    · next digits => exact .point ⟨digits, sound.fraction⟩

theorem isValue_double {value : Double} (normal : value.IsNormal) :
    IsValue (value.write numberLayout) := by
  cases value with
  | finite negative significand power =>
      obtain ⟨numeral, sound, text, -⟩ := Double.exists_numeral numberLayout negative normal
      rw [text]
      exact .number (isNumeral_text sound negative)
  | infinite negative => exact normal.elim
  | nan => exact normal.elim

section Values

variable (layout : Layout)

theorem isBlank_nil : IsBlank [] := nofun

theorem isBlank_lineStart (depth : Nat) : IsBlank (layout.lineStart depth) := by
  cases layout with
  | compact => exact isBlank_nil
  | indented =>
      intro c mem
      rcases List.mem_cons.1 mem with rfl | mem
      · rfl
      · rw [List.eq_of_mem_replicate mem]
        rfl

theorem isMember_write (depth : Nat) (name : String) {value : List Char} (value_ok : IsValue value) :
    IsMember (layout.lineStart depth ++ (writeText name ++ (layout.colon ++ value))) := by
  have before := isBlank_lineStart layout depth
  have quoted := isString_writeText name
  cases layout with
  | compact => exact .named before quoted isBlank_nil isBlank_nil value_ok
  | indented =>
      have space : IsBlank [' '] := fun c mem => by rw [List.mem_singleton.1 mem]; rfl
      exact .named before quoted isBlank_nil space value_ok

mutual

theorem isValue_write (depth : Nat) (value : Json) (finite : value.Finite) :
    IsValue (write layout depth value) := by
  match value with
  | .null =>
      rw [write]
      exact .null
  | .bool true =>
      rw [write]
      exact .yes
  | .bool false =>
      rw [write]
      exact .no
  | .whole value =>
      rw [write]
      exact .number (isNumeral_toDigits value)
  | .double value =>
      rw [write]
      exact isValue_double finite
  | .text content =>
      rw [write]
      exact .string (isString_writeText content)
  | .list [] =>
      rw [write]
      exact .emptyList isBlank_nil
  | .list (item :: items) =>
      obtain ⟨first, others⟩ := finite
      have inside := isItems_write (depth + 1) (isValue_write (depth + 1) item first) items others
        (isBlank_lineStart layout depth)
      simpa only [write, List.cons_append, List.append_assoc] using IsValue.list inside
  | .object [] =>
      rw [write]
      exact .emptyObject isBlank_nil
  | .object ((name, value) :: members) =>
      obtain ⟨first, others⟩ := finite
      have member := isMember_write layout (depth + 1) name (isValue_write (depth + 1) value first)
      have inside := isMembers_write (depth + 1) member members others
        (isBlank_lineStart layout depth)
      simpa only [write, List.cons_append, List.append_assoc] using IsValue.object inside

theorem isItems_write (depth : Nat) {first : List Char} (first_ok : IsValue first)
    (items : List Json) (finite : FiniteItems items) {blank : List Char}
    (blank_ok : IsBlank blank) :
    IsItems (layout.lineStart depth ++ (first ++ (writeItems layout depth items ++ blank))) := by
  have before := isBlank_lineStart layout depth
  match items with
  | [] =>
      rw [writeItems]
      exact .last before first_ok blank_ok
  | item :: items =>
      obtain ⟨second, others⟩ := finite
      have rest := isItems_write depth (isValue_write depth item second) items others blank_ok
      rw [writeItems]
      simpa only [List.cons_append, List.append_assoc, List.nil_append] using
        IsItems.more before first_ok isBlank_nil rest

theorem isMembers_write (depth : Nat) {first : List Char} (first_ok : IsMember first)
    (members : List (String × Json)) (finite : FiniteMembers members) {blank : List Char}
    (blank_ok : IsBlank blank) :
    IsMembers (first ++ (writeMembers layout depth members ++ blank)) := by
  match members with
  | [] =>
      rw [writeMembers]
      exact .last first_ok blank_ok
  | (name, value) :: members =>
      obtain ⟨second, others⟩ := finite
      have member := isMember_write layout depth name (isValue_write depth value second)
      have rest := isMembers_write depth member members others blank_ok
      rw [writeMembers]
      simpa only [List.cons_append, List.append_assoc, List.nil_append] using
        IsMembers.more first_ok isBlank_nil rest

end

end Values

/-- In either layout the text of a value is JSON. -/
theorem isText_render (layout : Layout) {value : Json} (finite : value.Finite) :
    IsText (value.render layout).toList := by
  rw [render, String.toList_ofList]
  simpa only [List.nil_append, List.append_nil] using
    IsText.around isBlank_nil (isValue_write layout 0 value finite) isBlank_nil

end ClassDiagram.Json
