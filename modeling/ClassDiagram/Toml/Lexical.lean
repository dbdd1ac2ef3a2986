import ClassDiagram.Text.Blank
set_option autoImplicit false

/-!
The small parts of a TOML document. Each function returns what it read and what follows, or nothing
if the text is not well formed. A loop goes on only with a shorter text; whatever is read takes at
least one character, so this ends no loop early.
-/
namespace ClassDiagram.Toml

open Text (isSpace)

/-- A character that may stand in comments and in texts in quotation marks. -/
def isPlain (c : Char) : Bool := c == '\t' || (0x20 ≤ c.toNat && c.toNat != 0x7F)

def skipSpaces (s : List Char) : List Char := s.dropWhile isSpace

def lineEnd? : List Char → Option (List Char)
  | '\n' :: r => some r
  | '\r' :: '\n' :: r => some r
  | _ => none

/-- Reads the rest of a line on which nothing more may stand but a comment. -/
def restOfLine? (s : List Char) : Option (List Char) :=
  match skipSpaces s with
  | [] => some []
  | '#' :: r =>
      match r.dropWhile isPlain with
      | [] => some []
      | rest => lineEnd? rest
  | rest => lineEnd? rest

/-- Skips blanks, line ends and comments, as inside arrays; the flag says whether a comment has
begun. -/
def skipFiller? : Bool → List Char → Option (List Char)
  | _, [] => some []
  | _, '\n' :: r => skipFiller? false r
  | _, '\r' :: '\n' :: r => skipFiller? false r
  | true, c :: r => if isPlain c then skipFiller? true r else none
  | false, c :: r =>
      if isSpace c then skipFiller? false r
      else if c = '#' then skipFiller? true r
      else some (c :: r)

def hexDigit? (c : Char) : Option Nat :=
  if c.isDigit then some (c.toNat - '0'.toNat)
  else if 'a' ≤ c ∧ c ≤ 'f' then some (c.toNat - 'a'.toNat + 10)
  else if 'A' ≤ c ∧ c ≤ 'F' then some (c.toNat - 'A'.toNat + 10)
  else none

/-- The character with the given number, if the digits give one. -/
def charOfHex? (digits : List Char) : Option Char :=
  match digits.mapM hexDigit? with
  | none => none
  | some values =>
      let n := values.foldl (fun n d => 16 * n + d) 0
      if n < 0xD800 ∨ (0xDFFF < n ∧ n < 0x110000) then some (Char.ofNat n) else none

/-- Reads what follows a backslash: one character, and how much of the text gives it. -/
def cutEscape? : List Char → Option (Char × List Char)
  | 'b' :: r => some ('\x08', r)
  | 't' :: r => some ('\t', r)
  | 'n' :: r => some ('\n', r)
  | 'f' :: r => some ('\x0c', r)
  | 'r' :: r => some ('\r', r)
  | 'e' :: r => some ('\x1b', r)
  | '"' :: r => some ('"', r)
  | '\\' :: r => some ('\\', r)
  | c :: r =>
      let width := if c = 'x' then 2 else if c = 'u' then 4 else if c = 'U' then 8 else 0
      if width = 0 ∨ r.length < width then none
      else (charOfHex? (r.take width)).map fun d => (d, r.drop width)
  | [] => none

def skipBlanks : List Char → List Char
  | [] => []
  | '\r' :: '\n' :: r => skipBlanks r
  | c :: r => if isSpace c || c == '\n' then skipBlanks r else c :: r

/-- Skips the line end after a backslash at the end of a line, and all blanks after it. -/
def skipFold? (s : List Char) : Option (List Char) :=
  (lineEnd? (skipSpaces s)).map skipBlanks

/-- Reads a text in single-line quotation marks whose first mark has been read. -/
def cutLine? (mark : Char) (escapes : Bool) (s : List Char) : Option (List Char × List Char) :=
  match s with
  | [] => none
  | c :: r =>
      if c = mark then some ([], r)
      else if escapes ∧ c = '\\' then
        match cutEscape? r with
        | none => none
        | some (d, rest) =>
            if rest.length < r.length then
              (cutLine? mark escapes rest).map fun (text, left) => (d :: text, left)
            else none
      else if isPlain c then
        (cutLine? mark escapes r).map fun (text, left) => (c :: text, left)
      else none
termination_by s.length

/-- Reads a text in triple quotation marks whose first three marks have been read. Up to two marks
may stand before the last three. -/
def cutBlock? (mark : Char) (escapes : Bool) (s : List Char) : Option (List Char × List Char) :=
  match s with
  | [] => none
  | c :: r =>
      if c = mark ∧ r.take 2 = [mark, mark] then
        let extra := ((r.drop 2).takeWhile (· == mark)).take 2
        some (extra, (r.drop 2).drop extra.length)
      else if escapes ∧ c = '\\' then
        match skipFold? r with
        | some rest =>
            if rest.length < r.length then cutBlock? mark escapes rest else none
        | none =>
            match cutEscape? r with
            | none => none
            | some (d, rest) =>
                if rest.length < r.length then
                  (cutBlock? mark escapes rest).map fun (text, left) => (d :: text, left)
                else none
      else if isPlain c ∨ c = '\n' ∨ (c = '\r' ∧ r.head? = some '\n') then
        (cutBlock? mark escapes r).map fun (text, left) => (c :: text, left)
      else none
termination_by s.length

def cutText? : List Char → Option (List Char × List Char)
  | '"' :: '"' :: '"' :: r => cutBlock? '"' true ((lineEnd? r).getD r)
  | '\'' :: '\'' :: '\'' :: r => cutBlock? '\'' false ((lineEnd? r).getD r)
  | '"' :: r => cutLine? '"' true r
  | '\'' :: r => cutLine? '\'' false r
  | _ => none

def isBare (c : Char) : Bool := c.isAlphanum || c == '-' || c == '_'

def cutSimpleKey? (s : List Char) : Option (String × List Char) :=
  match s with
  | '"' :: r => (cutLine? '"' true r).map fun (text, rest) => (String.ofList text, rest)
  | '\'' :: r => (cutLine? '\'' false r).map fun (text, rest) => (String.ofList text, rest)
  | s =>
      match s.takeWhile isBare with
      | [] => none
      | name => some (String.ofList name, s.dropWhile isBare)

/-- Reads a key with points between its parts; blanks around the points do not count. -/
def cutParts? (s : List Char) : Option (List String × List Char) :=
  match cutSimpleKey? (skipSpaces s) with
  | none => none
  | some (name, rest) =>
      match skipSpaces rest with
      | '.' :: r =>
          if r.length < s.length then
            (cutParts? r).map fun (names, left) => (name :: names, left)
          else none
      | left => some ([name], left)
termination_by s.length

def keyLimit : Nat := 80

def cutKey? (s : List Char) : Option (List String × List Char) :=
  (cutParts? s).filter fun (names, _) => names.length ≤ keyLimit

end ClassDiagram.Toml
