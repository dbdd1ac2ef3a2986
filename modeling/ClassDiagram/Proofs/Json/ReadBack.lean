import ClassDiagram.Json.Writer
import ClassDiagram.Proofs.Json.Reader
import ClassDiagram.Proofs.Number.ReadBack

set_option autoImplicit false

namespace ClassDiagram.Json

/-! ### Strings -/

theorem hexDigit?_digitChar (digit : Nat) (small : digit < 16) :
    hexDigit? (Nat.digitChar digit) = some digit := by
  have all : ∀ digit < 16, hexDigit? (Nat.digitChar digit) = some digit := by decide
  exact all digit small

/-- A control character is read back from its number. -/
theorem unicode?_control {c : Char} (control : c.toNat < 0x20) (rest : List Char) :
    unicode? ('0' :: '0' :: Nat.digitChar (c.toNat / 16) :: Nat.digitChar (c.toNat % 16) :: rest) =
      some (c, rest) := by
  have zero : hexDigit? '0' = some 0 := by decide
  have high := hexDigit?_digitChar (c.toNat / 16) (by omega)
  have low := hexDigit?_digitChar (c.toNat % 16) (by omega)
  have whole : ((0 * 16 + 0) * 16 + c.toNat / 16) * 16 + c.toNat % 16 = c.toNat := by omega
  have noHigh : isHighSurrogate c.toNat = false := by
    simp only [isHighSurrogate, Bool.and_eq_false_iff, decide_eq_false_iff_not]
    omega
  have noLow : isLowSurrogate c.toNat = false := by
    simp only [isLowSurrogate, Bool.and_eq_false_iff, decide_eq_false_iff_not]
    omega
  simp only [unicode?, codeUnit?, zero, high, low, whole, noHigh, noLow, Bool.false_eq_true,
    ↓reduceIte, Char.ofNat_toNat]

/-- Every character is read back from the way in which it stands in a string. -/
theorem character?_writeChar (c : Char) (rest : List Char) :
    character? (writeChar c ++ rest) = some (c, rest) := by
  unfold writeChar
  iterate 7
    split
    · next same =>
        rw [same]
        rfl
  split
  · next control => exact unicode?_control control rest
  · next noQuote noSlash _ _ _ _ _ noControl =>
      simp only [List.singleton_append, character?, noQuote, noSlash, noControl, ↓reduceIte,
        or_self]

theorem string?_flatMap (characters rest : List Char) :
    string? (characters.flatMap writeChar ++ '"' :: rest) = some (characters, rest) := by
  induction characters with
  | nil => exact string?_quote rest
  | cons c characters ih =>
      rw [List.flatMap_cons, List.append_assoc,
        string?_of_character? (character?_writeChar c _), ih]
      rfl

theorem tokens_writeText (value : String) (rest : List Char) :
    tokens (writeText value ++ rest) = (tokens rest).map fun more => .text value :: more := by
  have found : token? (writeText value ++ rest) = some (.text value, rest) := by
    rw [writeText, List.append_assoc, List.cons_append]
    show (string? (value.toList.flatMap writeChar ++ '"' :: rest)).map _ = _
    rw [string?_flatMap, Option.map_some, String.ofList_toList]
  exact tokens_of_token? (by decide) found

/-! ### Words -/

def Breaks (rest : List Char) : Prop := ∀ c ∈ rest.head?, isWordChar c = false

theorem isSpace_of_isWordChar {c : Char} (inWord : isWordChar c = true) : isSpace c = false := by
  cases space : isSpace c with
  | false => rfl
  | true => rcases eq_of_isSpace space with rfl | rfl | rfl | rfl <;> cases inWord

theorem token?_of_isWordChar {c : Char} (inWord : isWordChar c = true) (rest : List Char) :
    token? (c :: rest) = (scalar? ((c :: rest).takeWhile isWordChar)).map fun value =>
      (.scalar value, (c :: rest).dropWhile isWordChar) := by
  have noMark : mark? c = none := by
    unfold mark?
    split <;> first | rfl | cases inWord
  have noQuote : c ≠ '"' := by
    rintro rfl
    cases inWord
  simp only [token?, noMark, noQuote, ↓reduceIte]

/-- The text is one word, and it stands for the value. -/
structure IsWordOf (value : Json) (word : List Char) : Prop where
  chars : ∀ c ∈ word, isWordChar c = true
  meant : scalar? word = some value

/-- A word that stands for a value is one token. -/
theorem IsWordOf.tokens_append {value : Json} {word rest : List Char} (isWord : IsWordOf value word)
    (breaks : Breaks rest) :
    tokens (word ++ rest) = (tokens rest).map fun more => .scalar value :: more := by
  obtain ⟨chars, meant⟩ := isWord
  cases word with
  | nil =>
      rw [scalar?_nil] at meant
      cases meant
  | cons c word =>
      have first : isWordChar c = true := chars c List.mem_cons_self
      have found : token? (c :: (word ++ rest)) = some (.scalar value, rest) := by
        rw [token?_of_isWordChar first, ← List.cons_append, Text.takeWhile_run chars breaks,
          Text.dropWhile_run chars breaks, meant]
        rfl
      exact tokens_of_token? (isSpace_of_isWordChar first) found

/-! ### Numbers -/

theorem isWordChar_of_isDigit {c : Char} (digit : c.isDigit = true) : isWordChar c = true := by
  simp [isWordChar, Char.isAlphanum, digit]

theorem isDigit_of_isWhole {row : List Char} (whole : isWhole row = true) {c : Char}
    (mem : c ∈ row) : c.isDigit = true := by
  unfold isWhole at whole
  split at whole
  · cases mem
  · rw [List.mem_singleton.1 mem]
    rfl
  · rw [Bool.and_eq_true] at whole
    exact List.all_eq_true.1 whole.2 c mem

theorem isWhole_of_front {row : List Char} (digits : ∀ c ∈ row, c.isDigit = true)
    (nonempty : row ≠ []) (front : row = ['0'] ∨ row.head? ≠ some '0') : isWhole row = true := by
  unfold isWhole
  split
  · exact absurd rfl nonempty
  · rfl
  · next first rest notZero =>
      rcases front with zero | front
      · cases zero
        exact absurd rfl (notZero rfl)
      · have other : first ≠ '0' := fun same => front (by rw [same]; rfl)
        simp only [Bool.and_eq_true, bne_iff_ne, ne_eq, other, not_false_eq_true, true_and]
        exact List.all_eq_true.2 digits

/-- Nothing that begins with a digit or a sign is the name of a value. -/
theorem scalar?_number {first : Char} {rest : List Char}
    (front : first.isDigit = true ∨ first = '-') :
    scalar? (first :: rest) =
      if isWhole (first :: rest) then some (.whole (Decimal.ofDigits (first :: rest)))
      else if isNumber (first :: rest) then
        ((Double.ofText? (first :: rest)).filter Double.isFinite).map .double
      else none := by
  have other (letter : Char) (more : List Char) (noDigit : letter.isDigit = false)
      (noSign : letter ≠ '-') : first :: rest ≠ letter :: more := by
    intro same
    cases same
    rcases front with digit | sign
    · rw [noDigit] at digit
      cases digit
    · exact noSign sign
  have null : first :: rest ≠ "null".toList := other 'n' ['u', 'l', 'l'] rfl (by decide)
  have yes : first :: rest ≠ "true".toList := other 't' ['r', 'u', 'e'] rfl (by decide)
  have no : first :: rest ≠ "false".toList := other 'f' ['a', 'l', 's', 'e'] rfl (by decide)
  rw [scalar?, if_neg null, if_neg yes, if_neg no]

theorem isWordOf_toDigits (value : Nat) : IsWordOf (.whole value) (Nat.toDigits 10 value) := by
  have digits : ∀ c ∈ Nat.toDigits 10 value, c.isDigit = true :=
    fun c mem => Decimal.isDigit_of_mem_toDigits mem
  have whole := isWhole_of_front digits Nat.toDigits_ne_nil (Decimal.front_toDigits value)
  obtain ⟨first, rest, shape⟩ :=
    List.exists_cons_of_ne_nil (Nat.toDigits_ne_nil (n := value) (b := 10))
  have number := Decimal.ofDigits_toDigits value
  refine ⟨fun c mem => isWordChar_of_isDigit (digits c mem), ?_⟩
  rw [shape] at digits whole number ⊢
  rw [scalar?_number (.inl (digits first List.mem_cons_self)), if_pos whole, number]

section Numeral

open Decimal (Numeral)

variable {numeral : Numeral}

theorem isUnsigned_text (sound : numeral.Sound) : isUnsigned numeral.text = true := by
  have whole := isWhole_of_front sound.digits sound.nonempty sound.front
  have point : isPointSound
      (Numeral.fractionText numeral.fraction ++ Numeral.powerText numeral.power) = true := by
    cases fraction : numeral.fraction with
    | nil => cases numeral.power <;> rfl
    | cons digit more =>
        have isDigit : digit.isDigit = true := sound.fraction digit (by simp [fraction])
        simpa [Numeral.fractionText, isPointSound] using isDigit
  rw [isUnsigned, sound.takeWhile_text, sound.dropWhile_text,
    Numeral.cutFraction_tail sound.fraction, Numeral.exponent?_powerText, whole, point]
  rfl

theorem isNumber_text (sound : numeral.Sound) (negative : Bool) :
    isNumber (Double.signText negative ++ numeral.text) = true := by
  have unsigned := isUnsigned_text sound
  cases negative with
  | true => exact unsigned
  | false =>
      obtain ⟨first, rest, shape, digit⟩ := sound.exists_digit
      rw [shape] at unsigned ⊢
      show isNumber (first :: rest) = true
      unfold isNumber
      split
      · next same =>
          cases same
          cases digit
      · exact unsigned

/-- A numeral has a point or a power of ten in it. -/
theorem isWhole_text (sound : numeral.Sound) (negative : Bool) :
    isWhole (Double.signText negative ++ numeral.text) = false := by
  have mark : ∃ c ∈ numeral.text, c.isDigit = false := by
    rcases sound.broken with fraction | power
    · exact ⟨'.', by simp [Numeral.text, Numeral.fractionText, fraction], rfl⟩
    · obtain ⟨exponent, given⟩ := Option.isSome_iff_exists.1 power
      exact ⟨'e', by simp [Numeral.text, Numeral.powerText, given], rfl⟩
  obtain ⟨c, mem, noDigit⟩ := mark
  cases whole : isWhole (Double.signText negative ++ numeral.text) with
  | false => rfl
  | true =>
      rw [isDigit_of_isWhole whole (List.mem_append_right _ mem)] at noDigit
      cases noDigit

theorem isWordChar_text (sound : numeral.Sound) (negative : Bool) {c : Char}
    (mem : c ∈ Double.signText negative ++ numeral.text) : isWordChar c = true := by
  rcases List.mem_append.1 mem with sign | mem
  · cases negative with
    | true =>
        rw [List.mem_singleton.1 sign]
        rfl
    | false => cases sign
  rcases List.mem_append.1 mem with whole | tail
  · exact isWordChar_of_isDigit (sound.digits c whole)
  rcases List.mem_append.1 tail with fraction | power
  · unfold Numeral.fractionText at fraction
    split at fraction
    · cases fraction
    · rcases List.mem_cons.1 fraction with rfl | digit
      · rfl
      · exact isWordChar_of_isDigit (sound.fraction c digit)
  · unfold Numeral.powerText at power
    split at power
    · cases power
    · rcases List.mem_cons.1 power with rfl | power
      · rfl
      rcases List.mem_cons.1 power with rfl | digit
      · split <;> rfl
      · exact isWordChar_of_isDigit (Decimal.isDigit_of_mem_toDigits digit)

theorem scalar?_text (sound : numeral.Sound) (negative : Bool) :
    scalar? (Double.signText negative ++ numeral.text) =
      ((Double.ofText? (Double.signText negative ++ numeral.text)).filter Double.isFinite).map
        .double := by
  have number := isNumber_text sound negative
  have broken := isWhole_text sound negative
  obtain ⟨first, rest, shape, front⟩ : ∃ first rest,
      Double.signText negative ++ numeral.text = first :: rest ∧
        (first.isDigit = true ∨ first = '-') := by
    cases negative with
    | true => exact ⟨'-', numeral.text, rfl, .inr rfl⟩
    | false =>
        obtain ⟨first, rest, shape, digit⟩ := sound.exists_digit
        exact ⟨first, rest, shape, .inl digit⟩
  rw [shape] at number broken ⊢
  rw [scalar?_number front, broken, number]
  rfl

end Numeral

/-- A finite double is written in one word, and the word stands for it. -/
theorem isWordOf_double {value : Double} (normal : value.IsNormal) :
    IsWordOf (.double value) (value.write numberLayout) := by
  cases value with
  | finite negative significand power =>
      have read := Double.ofText?_write numberLayout normal
      obtain ⟨numeral, sound, text, -⟩ := Double.exists_numeral numberLayout negative normal
      rw [text] at read ⊢
      refine ⟨fun c mem => isWordChar_text sound negative mem, ?_⟩
      rw [scalar?_text sound, read]
      rfl
  | infinite negative => exact normal.elim
  | nan => exact normal.elim

/-! ### Values -/

mutual

/-- Whether every double in the value is finite and in normal form. -/
def Finite : Json → Prop
  | .double value => value.IsNormal
  | .list items => FiniteItems items
  | .object members => FiniteMembers members
  | _ => True

def FiniteItems : List Json → Prop
  | [] => True
  | item :: rest => Finite item ∧ FiniteItems rest

def FiniteMembers : List (String × Json) → Prop
  | [] => True
  | member :: rest => Finite member.2 ∧ FiniteMembers rest

end

def isScalar : Json → Bool
  | .text _ | .list _ | .object _ => false
  | _ => true

theorem isWordOf_write {value : Json} (scalar : value.isScalar = true) (finite : value.Finite)
    (layout : Layout) (depth : Nat) : IsWordOf value (write layout depth value) := by
  cases value with
  | null =>
      rw [write]
      exact ⟨List.all_eq_true.1 rfl, rfl⟩
  | bool truth =>
      cases truth with
      | true =>
          rw [write]
          exact ⟨List.all_eq_true.1 rfl, rfl⟩
      | false =>
          rw [write]
          exact ⟨List.all_eq_true.1 rfl, rfl⟩
  | whole value =>
      rw [write]
      exact isWordOf_toDigits value
  | double value =>
      rw [write]
      exact isWordOf_double finite
  | text value => cases scalar
  | list items => cases scalar
  | object members => cases scalar

mutual

def tokensOf : Json → List Token
  | .text value => [.text value]
  | .list [] => [.openList, .closeList]
  | .list (item :: rest) => .openList :: (tokensOf item ++ (tokensOfItems rest ++ [.closeList]))
  | .object [] => [.openObject, .closeObject]
  | .object ((name, value) :: rest) =>
      .openObject :: .text name :: .colon ::
        (tokensOf value ++ (tokensOfMembers rest ++ [.closeObject]))
  | value => [.scalar value]

def tokensOfItems : List Json → List Token
  | [] => []
  | item :: rest => .comma :: (tokensOf item ++ tokensOfItems rest)

def tokensOfMembers : List (String × Json) → List Token
  | [] => []
  | (name, value) :: rest =>
      .comma :: .text name :: .colon :: (tokensOf value ++ tokensOfMembers rest)

end

/-! ### From text to tokens -/

section Tokens

variable (layout : Layout)

theorem breaks_of_cons {c : Char} (noWord : isWordChar c = false) (rest : List Char) :
    Breaks (c :: rest) := by
  intro d first
  cases first
  exact noWord

theorem breaks_lineStart (depth : Nat) {c : Char} (noWord : isWordChar c = false)
    (rest : List Char) : Breaks (layout.lineStart depth ++ c :: rest) := by
  cases layout with
  | compact => exact breaks_of_cons noWord rest
  | indented => exact breaks_of_cons rfl _

theorem breaks_items (items : List Json) (depth : Nat) {rest : List Char} (breaks : Breaks rest) :
    Breaks (writeItems layout depth items ++ rest) := by
  cases items with
  | nil => simpa [writeItems] using breaks
  | cons item items =>
      rw [writeItems, List.cons_append]
      exact breaks_of_cons rfl _

theorem breaks_members (members : List (String × Json)) (depth : Nat) {rest : List Char}
    (breaks : Breaks rest) : Breaks (writeMembers layout depth members ++ rest) := by
  cases members with
  | nil => simpa [writeMembers] using breaks
  | cons member members =>
      rw [writeMembers, List.cons_append]
      exact breaks_of_cons rfl _

theorem tokens_lineStart (depth : Nat) (rest : List Char) :
    tokens (layout.lineStart depth ++ rest) = tokens rest := by
  have spaces (count : Nat) : tokens (List.replicate count ' ' ++ rest) = tokens rest := by
    induction count with
    | zero => rfl
    | succ count ih => rw [List.replicate_succ, List.cons_append, tokens_space rfl, ih]
  cases layout with
  | compact => rfl
  | indented => rw [Layout.lineStart, List.cons_append, tokens_space rfl, spaces]

theorem tokens_colon (rest : List Char) :
    tokens (layout.colon ++ rest) = (tokens rest).map fun more => .colon :: more := by
  cases layout with
  | compact => exact tokens_mark ':' .colon rfl rest
  | indented =>
      show tokens (':' :: ' ' :: rest) = _
      rw [tokens_mark ':' .colon rfl, tokens_space rfl]

mutual

theorem tokens_write (depth : Nat) (value : Json) (finite : value.Finite) {rest : List Char}
    (breaks : Breaks rest) :
    tokens (write layout depth value ++ rest) =
      (tokens rest).map fun more => tokensOf value ++ more := by
  match value with
  | .null => exact (isWordOf_write rfl finite layout depth).tokens_append breaks
  | .bool _ => exact (isWordOf_write rfl finite layout depth).tokens_append breaks
  | .whole _ => exact (isWordOf_write rfl finite layout depth).tokens_append breaks
  | .double _ => exact (isWordOf_write rfl finite layout depth).tokens_append breaks
  | .text content =>
      rw [write]
      exact tokens_writeText content rest
  | .list [] =>
      rw [write, tokensOf]
      show tokens ('[' :: ']' :: rest) = _
      rw [tokens_mark '[' .openList rfl, tokens_mark ']' .closeList rfl, Option.map_map]
      rfl
  | .list (item :: items) =>
      obtain ⟨first, others⟩ := finite
      have closing : Breaks (layout.lineStart depth ++ ']' :: rest) :=
        breaks_lineStart layout depth rfl rest
      have after := breaks_items layout items (depth + 1) closing
      simp only [write, List.cons_append, List.append_assoc, List.nil_append]
      rw [tokens_mark '[' .openList rfl, tokens_lineStart,
        tokens_write (depth + 1) item first after, tokens_writeItems _ items others closing,
        tokens_lineStart, tokens_mark ']' .closeList rfl]
      simp only [tokensOf, Option.map_map, Function.comp_def, List.cons_append, List.append_assoc,
        List.nil_append]
  | .object [] =>
      rw [write, tokensOf]
      show tokens ('{' :: '}' :: rest) = _
      rw [tokens_mark '{' .openObject rfl, tokens_mark '}' .closeObject rfl, Option.map_map]
      rfl
  | .object ((name, value) :: members) =>
      obtain ⟨first, others⟩ := finite
      have closing : Breaks (layout.lineStart depth ++ '}' :: rest) :=
        breaks_lineStart layout depth rfl rest
      have after := breaks_members layout members (depth + 1) closing
      simp only [write, List.cons_append, List.append_assoc, List.nil_append]
      rw [tokens_mark '{' .openObject rfl, tokens_lineStart, tokens_writeText, tokens_colon,
        tokens_write (depth + 1) value first after, tokens_writeMembers _ members others closing,
        tokens_lineStart, tokens_mark '}' .closeObject rfl]
      simp only [tokensOf, Option.map_map, Function.comp_def, List.cons_append, List.append_assoc,
        List.nil_append]

theorem tokens_writeItems (depth : Nat) (items : List Json) (finite : FiniteItems items)
    {rest : List Char} (breaks : Breaks rest) :
    tokens (writeItems layout depth items ++ rest) =
      (tokens rest).map fun more => tokensOfItems items ++ more := by
  match items with
  | [] => simp [writeItems, tokensOfItems]
  | item :: items =>
      obtain ⟨first, others⟩ := finite
      have after := breaks_items layout items depth breaks
      simp only [writeItems, List.cons_append, List.append_assoc]
      rw [tokens_mark ',' .comma rfl, tokens_lineStart, tokens_write _ item first after,
        tokens_writeItems _ items others breaks]
      simp only [tokensOfItems, Option.map_map, Function.comp_def, List.cons_append,
        List.append_assoc]

theorem tokens_writeMembers (depth : Nat) (members : List (String × Json))
    (finite : FiniteMembers members) {rest : List Char} (breaks : Breaks rest) :
    tokens (writeMembers layout depth members ++ rest) =
      (tokens rest).map fun more => tokensOfMembers members ++ more := by
  match members with
  | [] => simp [writeMembers, tokensOfMembers]
  | (name, value) :: members =>
      obtain ⟨first, others⟩ := finite
      have after := breaks_members layout members depth breaks
      simp only [writeMembers, List.cons_append, List.append_assoc]
      rw [tokens_mark ',' .comma rfl, tokens_lineStart, tokens_writeText, tokens_colon,
        tokens_write _ value first after, tokens_writeMembers _ members others breaks]
      simp only [tokensOfMembers, Option.map_map, Function.comp_def, List.cons_append,
        List.append_assoc]

end

end Tokens

/-! ### From tokens to the value -/

theorem tokensOf_eq_cons (item : Json) (rest : List Token) :
    ∃ token more, tokensOf item ++ rest = token :: more ∧ token ≠ .closeList := by
  cases item with
  | list items => cases items <;> exact ⟨.openList, _, rfl, nofun⟩
  | object members => cases members <;> exact ⟨.openObject, _, rfl, nofun⟩
  | text content => exact ⟨.text content, _, rfl, nofun⟩
  | null => exact ⟨.scalar .null, _, rfl, nofun⟩
  | bool truth => exact ⟨.scalar (.bool truth), _, rfl, nofun⟩
  | whole value => exact ⟨.scalar (.whole value), _, rfl, nofun⟩
  | double value => exact ⟨.scalar (.double value), _, rfl, nofun⟩

/-- No value begins like the end of a list, so an item is not taken for it. -/
theorem value_openList (stack : List Frame) (item : Json) (rest : List Token) :
    value stack (.openList :: (tokensOf item ++ rest)) =
      value (.list [] :: stack) (tokensOf item ++ rest) := by
  obtain ⟨token, more, shape, other⟩ := tokensOf_eq_cons item rest
  rw [shape]
  cases token with
  | closeList => exact absurd rfl other
  | _ => rfl

mutual

theorem value_tokensOf (item : Json) (stack : List Frame) (rest : List Token) :
    value stack (tokensOf item ++ rest) = close stack item rest := by
  match item with
  | .null => rfl
  | .bool _ => rfl
  | .whole _ => rfl
  | .double _ => rfl
  | .text _ => rfl
  | .list [] => rfl
  | .list (item :: items) =>
      rw [tokensOf, List.cons_append, List.append_assoc, value_openList, value_tokensOf item,
        List.append_assoc]
      exact close_tokensOfItems items [] stack item rest
  | .object [] => rfl
  | .object ((name, item) :: members) =>
      rw [tokensOf]
      simp only [List.cons_append, List.append_assoc]
      rw [value, value_tokensOf item]
      exact close_tokensOfMembers members [] stack name item rest

theorem close_tokensOfItems (items before : List Json) (below : List Frame) (read : Json)
    (rest : List Token) :
    close (.list before :: below) read (tokensOfItems items ++ (.closeList :: rest)) =
      close below (.list (before.reverse ++ read :: items)) rest := by
  match items with
  | [] =>
      show close below (.list (read :: before).reverse) rest = _
      rw [List.reverse_cons]
  | item :: items =>
      rw [tokensOfItems, List.cons_append, List.append_assoc]
      show value (.list (read :: before) :: below) _ = _
      rw [value_tokensOf item, close_tokensOfItems items, List.reverse_cons, List.append_assoc]
      rfl

theorem close_tokensOfMembers (members before : List (String × Json)) (below : List Frame)
    (name : String) (read : Json) (rest : List Token) :
    close (.object before name :: below) read (tokensOfMembers members ++ (.closeObject :: rest)) =
      close below (.object (before.reverse ++ (name, read) :: members)) rest := by
  match members with
  | [] =>
      show close below (.object ((name, read) :: before).reverse) rest = _
      rw [List.reverse_cons]
  | (next, item) :: members =>
      rw [tokensOfMembers]
      simp only [List.cons_append, List.append_assoc]
      show value (.object ((name, read) :: before) next :: below) _ = _
      rw [value_tokensOf item, close_tokensOfMembers members, List.reverse_cons,
        List.append_assoc]
      rfl

end

/-- In either layout a value is read back from its text. -/
theorem ofText?_render (layout : Layout) {value : Json} (finite : value.Finite) :
    ofText? (value.render layout) = some value := by
  have noRest : Breaks [] := fun _ none => nomatch none
  have read := tokens_write layout 0 value finite noRest
  rw [List.append_nil, tokens_nil, Option.map_some] at read
  rw [ofText?, render, String.toList_ofList, read]
  exact value_tokensOf value [] []

end ClassDiagram.Json
