import ClassDiagram.Json.Value

set_option autoImplicit false

/-!
A strict reader of JSON text. Nothing is let through that RFC 8259 does not allow: no comma at the
end, no zero in front, no bare control character, no half of a surrogate pair.
-/
namespace ClassDiagram.Json

def isSpace (c : Char) : Bool := c == ' ' || c == '\t' || c == '\n' || c == '\r'

theorem eq_of_isSpace {c : Char} (space : isSpace c = true) :
    c = ' ' ∨ c = '\t' ∨ c = '\n' ∨ c = '\r' := by
  simpa only [isSpace, Bool.or_eq_true, beq_iff_eq, or_assoc] using space

inductive Token where
  | openList
  | closeList
  | openObject
  | closeObject
  | comma
  | colon
  | text (value : String)
  | scalar (value : Json)

def hexDigit? (c : Char) : Option Nat :=
  if c.isDigit then some (c.toNat - '0'.toNat)
  else if 'a' ≤ c ∧ c ≤ 'f' then some (c.toNat - 'a'.toNat + 10)
  else if 'A' ≤ c ∧ c ≤ 'F' then some (c.toNat - 'A'.toNat + 10)
  else none

/-- The number that four hexadecimal digits stand for, and what follows them. -/
def codeUnit? : List Char → Option (Nat × List Char)
  | a :: b :: c :: d :: rest =>
      match hexDigit? a, hexDigit? b, hexDigit? c, hexDigit? d with
      | some a, some b, some c, some d => some (((a * 16 + b) * 16 + c) * 16 + d, rest)
      | _, _, _, _ => none
  | _ => none

def isHighSurrogate (unit : Nat) : Bool := 0xD800 ≤ unit && unit ≤ 0xDBFF

def isLowSurrogate (unit : Nat) : Bool := 0xDC00 ≤ unit && unit ≤ 0xDFFF

def surrogatePair (high low : Nat) : Char :=
  Char.ofNat (0x10000 + (high - 0xD800) * 0x400 + (low - 0xDC00))

/-- The character that code units at the start of `s` stand for, and what follows them. A first
half has to be followed by the second. -/
def unicode? (s : List Char) : Option (Char × List Char) :=
  match codeUnit? s with
  | none => none
  | some (unit, rest) =>
      if isHighSurrogate unit then
        match rest with
        | '\\' :: 'u' :: more =>
            match codeUnit? more with
            | none => none
            | some (low, rest) =>
                if isLowSurrogate low then some (surrogatePair unit low, rest) else none
        | _ => none
      else if isLowSurrogate unit then none
      else some (Char.ofNat unit, rest)

def shortEscapes : List (Char × Char) :=
  [('"', '"'), ('\\', '\\'), ('/', '/'), ('b', '\x08'), ('f', '\x0c'), ('n', '\n'), ('r', '\r'),
    ('t', '\t')]

/-- The character at the start of `s` inside a string, and what follows it. -/
def character? : List Char → Option (Char × List Char)
  | [] => none
  | c :: rest =>
      if c = '\\' then
        match rest with
        | [] => none
        | letter :: rest =>
            if letter = 'u' then unicode? rest
            else (shortEscapes.lookup letter).map fun meant => (meant, rest)
      else if c = '"' ∨ c.toNat < 0x20 then none
      else some (c, rest)

theorem codeUnit?_length {s rest : List Char} {unit : Nat}
    (found : codeUnit? s = some (unit, rest)) : rest.length < s.length := by
  unfold codeUnit? at found
  split at found
  · split at found
    · cases found
      simp only [List.length_cons]
      omega
    · cases found
  · cases found

theorem unicode?_length {s rest : List Char} {c : Char} (found : unicode? s = some (c, rest)) :
    rest.length < s.length := by
  unfold unicode? at found
  split at found
  · cases found
  · next unit after read =>
      have shorter := codeUnit?_length read
      split at found
      · split at found
        · next more =>
            split at found
            · cases found
            · next low last again =>
                have shortest := codeUnit?_length again
                simp only [List.length_cons] at shorter
                split at found
                · obtain ⟨-, rfl⟩ := Prod.mk.inj (Option.some.inj found)
                  omega
                · cases found
        · cases found
      · split at found
        · cases found
        · cases found
          exact shorter

theorem character?_length {s rest : List Char} {c : Char}
    (found : character? s = some (c, rest)) : rest.length < s.length := by
  unfold character? at found
  split at found
  · cases found
  · split at found
    · split at found
      · cases found
      · next letter more =>
          split at found
          · have shorter := unicode?_length found
            simp only [List.length_cons]
            omega
          · obtain ⟨meant, -, same⟩ := Option.map_eq_some_iff.1 found
            cases same
            simp only [List.length_cons]
            omega
    · split at found
      · cases found
      · cases found
        simp

/-- The characters up to the quotation mark that ends a string, and what follows it. -/
def string? (s : List Char) : Option (List Char × List Char) :=
  if s.head? = some '"' then some ([], s.tail)
  else
    match _found : character? s with
    | none => none
    | some (c, rest) => (string? rest).map fun read => (c :: read.1, read.2)
termination_by s.length
decreasing_by exact character?_length _found

theorem string?_of_character? {s rest : List Char} {c : Char}
    (found : character? s = some (c, rest)) :
    string? s = (string? rest).map fun read => (c :: read.1, read.2) := by
  have noEnd : s.head? ≠ some '"' := by
    intro quote
    obtain ⟨more, rfl⟩ := List.head?_eq_some_iff.1 quote
    cases found
  rw [string?, if_neg noEnd]
  split
  · next missing =>
      rw [found] at missing
      cases missing
  · next same =>
      rw [found] at same
      cases same
      rfl

theorem string?_quote (rest : List Char) : string? ('"' :: rest) = some ([], rest) := by
  rw [string?]
  exact if_pos rfl

/-- The characters of which numbers and the names of values are made. -/
def isWordChar (c : Char) : Bool := c.isAlphanum || c == '+' || c == '-' || c == '.'

/-- Digits without a zero in front of others. -/
def isWhole : List Char → Bool
  | [] => false
  | ['0'] => true
  | c :: rest => c != '0' && (c :: rest).all Char.isDigit

/-- Whether a point at the start of `s`, if there is one, is followed by a digit. -/
def isPointSound : List Char → Bool
  | '.' :: rest => (rest.head?.map Char.isDigit).getD false
  | _ => true

/-- Whether `s` is a number without a sign: digits, perhaps a point and more digits, perhaps a power
of ten. -/
def isUnsigned (s : List Char) : Bool :=
  let tail := s.dropWhile Char.isDigit
  isWhole (s.takeWhile Char.isDigit) && isPointSound tail &&
    (Decimal.exponent? (Decimal.cutFraction tail).2).isSome

def isNumber : List Char → Bool
  | '-' :: rest => isUnsigned rest
  | s => isUnsigned s

/-- What a word stands for. Mere digits are a whole number; any other number is rounded to a double
and has to be in range. -/
def scalar? (word : List Char) : Option Json :=
  if word = "null".toList then some .null
  else if word = "true".toList then some (.bool true)
  else if word = "false".toList then some (.bool false)
  else if isWhole word then some (.whole (Decimal.ofDigits word))
  else if isNumber word then ((Double.ofText? word).filter Double.isFinite).map .double
  else none

theorem scalar?_nil : scalar? [] = none := by decide

def mark? : Char → Option Token
  | '[' => some .openList
  | ']' => some .closeList
  | '{' => some .openObject
  | '}' => some .closeObject
  | ',' => some .comma
  | ':' => some .colon
  | _ => none

def token? : List Char → Option (Token × List Char)
  | [] => none
  | c :: rest =>
      match mark? c with
      | some token => some (token, rest)
      | none =>
          if c = '"' then
            (string? rest).map fun read => (.text (String.ofList read.1), read.2)
          else
            (scalar? ((c :: rest).takeWhile isWordChar)).map fun value =>
              (.scalar value, (c :: rest).dropWhile isWordChar)

theorem string?_length {s rest read : List Char} (found : string? s = some (read, rest)) :
    rest.length < s.length := by
  fun_induction string? s generalizing read rest with
  | case1 s quote =>
      obtain ⟨more, rfl⟩ := List.head?_eq_some_iff.1 quote
      cases found
      simp
  | case2 s noEnd missing => cases found
  | case3 s noEnd c after step ih =>
      obtain ⟨more, again, same⟩ := Option.map_eq_some_iff.1 found
      cases same
      exact Nat.lt_trans (ih again) (character?_length step)

theorem token?_length {s rest : List Char} {token : Token}
    (found : token? s = some (token, rest)) : rest.length < s.length := by
  unfold token? at found
  split at found
  · cases found
  next c after =>
  split at found
  · cases found
    simp
  split at found
  · obtain ⟨read, text, same⟩ := Option.map_eq_some_iff.1 found
    cases same
    exact Nat.lt_succ_of_lt (string?_length text)
  · obtain ⟨value, word, same⟩ := Option.map_eq_some_iff.1 found
    cases same
    -- without a character of a word there is no word
    have taken : ((c :: after).takeWhile isWordChar).length ≠ 0 := by
      intro none
      rw [List.length_eq_zero_iff.1 none, scalar?_nil] at word
      cases word
    have all := congrArg List.length
      (List.takeWhile_append_dropWhile (p := isWordChar) (l := c :: after))
    rw [List.length_append] at all
    omega

/-- The tokens of `s`, with white space between them left out. -/
def tokens (s : List Char) : Option (List Token) :=
  match s with
  | [] => some []
  | c :: rest =>
      if isSpace c then tokens rest
      else
        match _found : token? (c :: rest) with
        | none => none
        | some (token, rest) => (tokens rest).map fun more => token :: more
termination_by s.length
decreasing_by
  · simp
  · exact token?_length _found

theorem tokens_nil : tokens [] = some [] := by rw [tokens]

theorem tokens_space {c : Char} (space : isSpace c = true) (rest : List Char) :
    tokens (c :: rest) = tokens rest := by
  rw [tokens, if_pos space]

theorem tokens_of_token? {c : Char} {s rest : List Char} {token : Token}
    (dark : isSpace c = false) (found : token? (c :: s) = some (token, rest)) :
    tokens (c :: s) = (tokens rest).map fun more => token :: more := by
  rw [tokens, if_neg (by simp [dark])]
  split
  · next missing =>
      rw [found] at missing
      cases missing
  · next same =>
      rw [found] at same
      cases same
      rfl

theorem tokens_mark (c : Char) (token : Token) (mark : mark? c = some token) (rest : List Char) :
    tokens (c :: rest) = (tokens rest).map fun more => token :: more := by
  have dark : isSpace c = false := by
    cases space : isSpace c with
    | false => rfl
    | true => rcases eq_of_isSpace space with rfl | rfl | rfl | rfl <;> cases mark
  have found : token? (c :: rest) = some (token, rest) := by
    simp only [token?, mark]
  exact tokens_of_token? dark found

/-- A list or an object that is still open, with what stands in it so far, the last of it first. -/
inductive Frame where
  | list (before : List Json)
  | object (before : List (String × Json)) (name : String)

mutual

/-- Puts tokens together where a value has to begin. -/
def value (stack : List Frame) : List Token → Option Json
  | .scalar read :: rest => close stack read rest
  | .text read :: rest => close stack (.text read) rest
  | .openList :: .closeList :: rest => close stack (.list []) rest
  | .openList :: rest => value (.list [] :: stack) rest
  | .openObject :: .closeObject :: rest => close stack (.object []) rest
  | .openObject :: .text name :: .colon :: rest => value (.object [] name :: stack) rest
  | _ => none

/-- Puts tokens together where a value has just ended. -/
def close : List Frame → Json → List Token → Option Json
  | [], read, [] => some read
  | .list before :: below, read, .comma :: rest => value (.list (read :: before) :: below) rest
  | .list before :: below, read, .closeList :: rest =>
      close below (.list (read :: before).reverse) rest
  | .object before name :: below, read, .comma :: .text next :: .colon :: rest =>
      value (.object ((name, read) :: before) next :: below) rest
  | .object before name :: below, read, .closeObject :: rest =>
      close below (.object ((name, read) :: before).reverse) rest
  | _, _, _ => none

end

/-- The value that a text stands for, if it is JSON. -/
def ofText? (text : String) : Option Json := (tokens text.toList).bind (value [])

end ClassDiagram.Json
