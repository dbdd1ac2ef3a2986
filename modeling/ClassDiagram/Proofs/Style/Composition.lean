import ClassDiagram.Proofs.Text.Search
import ClassDiagram.Style.Definition

set_option autoImplicit false

namespace ClassDiagram

namespace StyleDefinition

/-- What is looked for in a text: the keywords of flags, the keys with their equals signs, and the
keys with the values that they have. -/
inductive Recognised (definition : StyleDefinition) : List Char → Prop
  | keyword (flag : StyleFlag) : Recognised definition flag.name.toList
  | key (key : StyleKey) : Recognised definition key.marker
  | value {key : StyleKey} {value : List Char} (last : definition.lastValue? key = some value) :
      Recognised definition (key.marker ++ value)

def beside (first second : StyleDefinition) : StyleDefinition :=
  ⟨first.text ++ ' ' :: second.text⟩

/-- How a text reads that is put together from two. -/
structure Composes (first second whole : StyleDefinition) : Prop where
  flags : ∀ flag, whole.hasFlag flag = true ↔
    first.hasFlag flag = true ∨ second.hasFlag flag = true
  /-- A key that occurs in the second text hides the first text, even by an empty value. -/
  hidden : ∀ key, key.marker <:+: second.text → whole.value? key = second.value? key
  kept : ∀ key, ¬ key.marker <:+: second.text → whole.value? key = first.value? key
  apart : ∀ word, whole.Recognised word → ∀ before rest, whole.text = before ++ word ++ rest →
    Text.OnOneSide first.text second.text ' ' before word rest

theorem keyword_spaceless (flag : StyleFlag) : ' ' ∉ flag.name.toList := by
  cases flag <;> decide

theorem marker_spaceless (key : StyleKey) : ' ' ∉ key.marker := by
  cases key <;> decide

theorem lastValue?_spaceless {definition : StyleDefinition} {key : StyleKey} {value : List Char}
    (last : definition.lastValue? key = some value) : ' ' ∉ value := by
  obtain ⟨rest, -, rfl⟩ := Option.map_eq_some_iff.1 last
  intro mem
  have dark := List.all_eq_true.1 (List.all_takeWhile (l := rest)) ' ' mem
  cases dark

theorem Recognised.spaceless {definition : StyleDefinition} {word : List Char}
    (recognised : definition.Recognised word) : ' ' ∉ word := by
  cases recognised with
  | keyword flag => exact keyword_spaceless flag
  | key key => exact marker_spaceless key
  | value last =>
      intro mem
      rcases List.mem_append.1 mem with mem | mem
      · exact marker_spaceless _ mem
      · exact lastValue?_spaceless last mem

variable (first second : StyleDefinition)

theorem hasFlag_beside (flag : StyleFlag) :
    (first.beside second).hasFlag flag = (first.hasFlag flag || second.hasFlag flag) :=
  Text.occurs_append_mark (keyword_spaceless flag) first.text second.text

theorem lastValue?_beside (key : StyleKey) :
    (first.beside second).lastValue? key =
      (second.lastValue? key).or (first.lastValue? key) := by
  have cut (rest : List Char) :
      (rest ++ ' ' :: second.text).takeWhile (fun c => c != ' ') =
        rest.takeWhile fun c => c != ' ' :=
    Text.takeWhile_append_mark (by decide) rest second.text
  rw [lastValue?, beside, Text.afterLast?_append_mark (marker_spaceless key), Option.map_or,
    Option.map_map]
  simp only [Function.comp_def, cut]
  rfl

theorem value?_beside (key : StyleKey) :
    (first.beside second).value? key =
      if Text.occurs key.marker second.text then second.value? key else first.value? key := by
  rw [value?, lastValue?_beside, ← lastValue?_isSome]
  cases last : second.lastValue? key with
  | none => rfl
  | some value =>
      rw [Option.some_or, Option.isSome_some, if_pos rfl, value?, last]

theorem composes_beside : Composes first second (first.beside second) := by
  constructor
  · intro flag
    rw [hasFlag_beside, Bool.or_eq_true]
  · intro key given
    rw [value?_beside, if_pos (Text.occurs_iff_isInfix.2 given)]
  · intro key absent
    rw [value?_beside, if_neg fun given => absent (Text.occurs_iff_isInfix.1 given)]
  · intro word recognised before rest cut
    exact Text.onOneSide_of_append_mark recognised.spaceless cut

end StyleDefinition

/-- The style `first` with `second` laid over it: its flags are added, and its other properties
count where `given` has their keys. -/
def Style.under (first second : Style) (given : StyleKey → Bool) : Style where
  bold := first.bold || second.bold
  underline := first.underline || second.underline
  italic := first.italic || second.italic
  dashed := first.dashed || second.dashed
  empty := first.empty || second.empty
  center := if given .align then second.center else first.center
  fill := if given .fill then second.fill else first.fill
  stroke := if given .stroke then second.stroke else first.stroke
  visual := if given .visual then second.visual else first.visual
  direction := if given .direction then second.direction else first.direction

theorem StyleDefinition.toStyle_beside (first second : StyleDefinition) :
    (first.beside second).toStyle =
      first.toStyle.under second.toStyle fun key => Text.occurs key.marker second.text := by
  simp only [toStyle, Style.under, hasFlag_beside, value?_beside, Style.mk.injEq, true_and]
  -- fills and strokes are values themselves, the other three are made from their values
  refine ⟨?center, ?visual, ?direction⟩
  case center => split <;> rfl
  case visual => split <;> rfl
  case direction => split <;> rfl

/-- A style that is written as two texts with a space between them is put together from the styles
of the two, property by property. -/
theorem Style.ofText_beside (first second : String) :
    StyleDefinition.Composes ⟨first.toList⟩ ⟨second.toList⟩ ⟨(first ++ " " ++ second).toList⟩ ∧
      Style.ofText (first ++ " " ++ second) =
        (Style.ofText first).under (Style.ofText second)
          fun key => Text.occurs key.marker second.toList := by
  have joint : (⟨(first ++ " " ++ second).toList⟩ : StyleDefinition) =
      .beside ⟨first.toList⟩ ⟨second.toList⟩ := by
    simp [StyleDefinition.beside]
  rw [ofText, joint]
  exact ⟨StyleDefinition.composes_beside _ _, StyleDefinition.toStyle_beside _ _⟩

/-- An empty value behind hides the value in front. -/
example : Style.ofText "bold fill=#fff stroke=red fill= dashed" =
    { bold := true, dashed := true, center := true, stroke := some "red" } := by decide +kernel

end ClassDiagram
