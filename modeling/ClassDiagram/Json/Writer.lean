import ClassDiagram.Json.Value
set_option autoImplicit false

namespace ClassDiagram.Json

/-- Numbers with up to five zeros after the point or sixteen digits before it have their point in
place; all others are written with a power of ten. -/
def numberLayout : Decimal.Layout := ⟨-5, 15⟩

inductive Layout where
  /-- Everything in one line and without spaces. -/
  | compact
  /-- Each item and member on a line of its own, two spaces further in than what holds it. -/
  | indented
deriving DecidableEq, Repr

namespace Layout

/-- What stands in front of an item, a member or a closing bracket at the given depth. -/
def lineStart : Layout → Nat → List Char
  | .compact, _ => []
  | .indented, depth => '\n' :: List.replicate (2 * depth) ' '

/-- What stands between the name and the value of a member. -/
def colon : Layout → List Char
  | .compact => [':']
  | .indented => [':', ' ']

end Layout

/-- How a character stands in a string. -/
def writeChar (c : Char) : List Char :=
  if c = '"' then ['\\', '"']
  else if c = '\\' then ['\\', '\\']
  else if c = '\x08' then ['\\', 'b']
  else if c = '\t' then ['\\', 't']
  else if c = '\n' then ['\\', 'n']
  else if c = '\x0c' then ['\\', 'f']
  else if c = '\r' then ['\\', 'r']
  else if c.toNat < 0x20 then
    ['\\', 'u', '0', '0', Nat.digitChar (c.toNat / 16), Nat.digitChar (c.toNat % 16)]
  else [c]

def writeText (value : String) : List Char :=
  '"' :: value.toList.flatMap writeChar ++ ['"']

mutual

/-- The text of a value that stands at the given depth. -/
def write (layout : Layout) (depth : Nat) : Json → List Char
  | .null => "null".toList
  | .bool true => "true".toList
  | .bool false => "false".toList
  | .whole value => Nat.toDigits 10 value
  | .double value => value.write numberLayout
  | .text value => writeText value
  | .list [] => ['[', ']']
  | .list (item :: rest) =>
      '[' :: layout.lineStart (depth + 1) ++ write layout (depth + 1) item ++
        writeItems layout (depth + 1) rest ++ layout.lineStart depth ++ [']']
  | .object [] => ['{', '}']
  | .object (member :: rest) =>
      '{' :: layout.lineStart (depth + 1) ++ writeText member.1 ++ layout.colon ++
        write layout (depth + 1) member.2 ++ writeMembers layout (depth + 1) rest ++
        layout.lineStart depth ++ ['}']

/-- The items after the first, each with a comma in front. -/
def writeItems (layout : Layout) (depth : Nat) : List Json → List Char
  | [] => []
  | item :: rest =>
      ',' :: layout.lineStart depth ++ write layout depth item ++ writeItems layout depth rest

/-- The members after the first, each with a comma in front. -/
def writeMembers (layout : Layout) (depth : Nat) : List (String × Json) → List Char
  | [] => []
  | member :: rest =>
      ',' :: layout.lineStart depth ++ writeText member.1 ++ layout.colon ++
        write layout depth member.2 ++ writeMembers layout depth rest

end

def render (layout : Layout) (value : Json) : String := String.ofList (write layout 0 value)

end ClassDiagram.Json
