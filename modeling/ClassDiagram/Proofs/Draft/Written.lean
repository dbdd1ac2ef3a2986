import ClassDiagram.Draft.Header
import ClassDiagram.Draft.Reader
import ClassDiagram.Proofs.Draft.Arrow
import ClassDiagram.Proofs.Text.Escape
import ClassDiagram.Proofs.Text.Trim

set_option autoImplicit false

/-!
Documents before they are written down. A document chooses the separators between its slots; all
else of its print follows from what it says.
-/
namespace ClassDiagram.Written

open Text (IsTrimmed isSeparator escape)
open Draft (IsArrow isShaft isTagLetter)

/-- A label: maybe empty, without separators and without white characters at its ends. -/
structure Phrase where
  chars : List Char
  trimmed : IsTrimmed chars
  unseparated : ∀ c ∈ chars, isSeparator c = false

structure Line extends Phrase where
  ne_nil : chars ≠ []

structure Separators where
  marks : List Char
  ne_nil : marks ≠ []
  separate : ∀ c ∈ marks, isSeparator c = true

structure Tag where
  letters : List Char
  ne_nil : letters ≠ []
  lower : ∀ c ∈ letters, isTagLetter c = true

/-- No stretch of `s` has the form `<[a-z]*>`. -/
def Untagged (s : List Char) : Prop :=
  ∀ before letters after, s = before ++ '<' :: (letters ++ '>' :: after) →
    ¬ ∀ c ∈ letters, isTagLetter c = true

structure Link where
  before : Phrase
  arrow : List Char
  after : Phrase
  shaftless : ∀ c ∈ before.chars, isShaft c = false
  form : IsArrow arrow

structure Header where
  tag : Option Tag
  name : Line
  untagged : tag = none → Untagged name.chars

/-- A line of text or a chain of classifiers, which are taken from `β`. -/
inductive Slot (β : Type) where
  | line (text : Line)
  | chain (first : β) (links : List (Link × β))

/-- Slots in a row, each of them with the separators between it and its predecessor. -/
abbrev Further (β : Type) := List (Separators × Slot β)

inductive Section (β : Type) where
  | empty
  | slots (first : Slot β) (further : Further β)

/-- A classifier around classifiers from `β`: its header, the other slots of its first compartment
and its other compartments. -/
structure BoxOf (β : Type) where
  header : Header
  further : Further β
  parts : List (Section β)

/-- Classifiers that nest at most so many levels deep. -/
def Box : Nat → Type
  | 0 => Empty
  | levels + 1 => BoxOf (Box levels)

abbrev Document := Section (Box Draft.nestingLimit)

/-- A text with its escapes and a space behind it. -/
def Phrase.print (phrase : Phrase) : List Char := escape phrase.chars ++ [' ']

def Link.print (link : Link) : List Char :=
  link.before.print ++ (' ' :: (link.arrow ++ [' '])) ++ link.after.print

def Header.print (header : Header) : List Char :=
  match header.tag with
  | none => header.name.print
  | some tag => '<' :: (tag.letters ++ '>' :: ' ' :: header.name.print)

section print

variable {β : Type} (inner : β → List Char)

/-- A slot, when `inner` prints a classifier from behind its opening bracket on. -/
def Slot.print : Slot β → List Char
  | line text => text.print
  | chain first links =>
      '[' :: inner first ++ links.flatMap fun link => link.1.print ++ '[' :: inner link.2

def printFurther (further : Further β) : List Char :=
  further.flatMap fun slot => slot.1.marks ++ slot.2.print inner

def Section.print : Section β → List Char
  | empty => []
  | slots first further => first.print inner ++ printFurther inner further

def BoxOf.print (box : BoxOf β) : List Char :=
  box.header.print ++ printFurther inner box.further ++
    (box.parts.flatMap fun part => '|' :: part.print inner) ++ [']']

end print

def Box.print : (levels : Nat) → Box levels → List Char
  | 0 => nofun
  | levels + 1 => BoxOf.print (Box.print levels)

def Document.print (document : Document) : String :=
  String.ofList (Section.print (Box.print Draft.nestingLimit) document)

def Header.kind (header : Header) : String :=
  match header.tag with
  | none => Draft.defaultKind
  | some tag => String.ofList (tag.letters.map Char.toUpper)

def Phrase.text (phrase : Phrase) : String := String.ofList phrase.chars

/-- The relations of a chain, from the classifier named `source` on. -/
def relationsFrom (source : String) : List (Link × Draft.Classifier) → List Draft.Relation
  | [] => []
  | (link, target) :: rest =>
      ⟨String.ofList link.arrow, source, target.name, link.before.text, link.after.text⟩ ::
        relationsFrom target.name rest

section draft

variable {β : Type} (inner : β → Draft.Classifier)

def Slot.lines : Slot β → List String
  | line text => [text.text]
  | chain _ _ => []

def Slot.classifiers : Slot β → List Draft.Classifier
  | line _ => []
  | chain first links => inner first :: links.map fun link => inner link.2

def Slot.relations : Slot β → List Draft.Relation
  | line _ => []
  | chain first links =>
      relationsFrom (inner first).name (links.map fun link => (link.1, inner link.2))

/-- What slots stand for: their lines, their classifiers and their relations, each in order. -/
def draftOfSlots (slots : List (Slot β)) : Draft.Compartment :=
  ⟨slots.flatMap Slot.lines, slots.flatMap (Slot.classifiers inner),
    slots.flatMap (Slot.relations inner)⟩

def Section.toList : Section β → List (Slot β)
  | empty => []
  | slots first further => first :: further.map Prod.snd

/-- A classifier has the type and the name of its header; the name is also its first line. -/
def BoxOf.draft (box : BoxOf β) : Draft.Classifier :=
  ⟨box.header.kind, box.header.name.text,
    draftOfSlots inner (.line box.header.name :: box.further.map Prod.snd) ::
      box.parts.map fun part => draftOfSlots inner part.toList⟩

end draft

def Box.draft : (levels : Nat) → Box levels → Draft.Classifier
  | 0 => nofun
  | levels + 1 => BoxOf.draft (Box.draft levels)

def Document.draft (document : Document) : Draft.Compartment :=
  draftOfSlots (Box.draft Draft.nestingLimit) document.toList

end ClassDiagram.Written
