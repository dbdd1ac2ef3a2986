import ClassDiagram.Settings.Basic
import ClassDiagram.Source.Prepared
import ClassDiagram.Style.Definition
import ClassDiagram.Text.UpperCase
set_option autoImplicit false

/-!
A directive counts only if its value makes sense for its setting; anything else leaves the setting
as it is when nothing is said.
-/
namespace ClassDiagram.Settings

def finiteNumber? (value : String) : Option Double :=
  (Double.ofText? (Text.trim value.toList)).filter Double.isFinite

/-- A finite number other than zero, or the fallback. -/
def sizeOr (fallback : Double) (value : Option String) : Double :=
  ((value.bind finiteNumber?).filter fun number => !number.isZero).getD fallback

/-- A finite number, or the fallback; zero is kept. -/
def pullOr (fallback : Double) (value : Option String) : Double :=
  (value.bind finiteNumber?).getD fallback

/-- A text that is not empty, or the fallback. -/
def textOr (fallback : String) (value : Option String) : String :=
  (value.filter fun text => text != "").getD fallback

/-- The colours between semicolons, or the fallback if the value is empty. -/
def paletteOr (fallback : List String) (value : Option String) : List String :=
  match value.filter fun text => text != "" with
  | some text => (Text.pieces ';' text.toList).map String.ofList
  | none => fallback

def choiceOr {α : Type} (vocabulary : Vocabulary α) (fallback : α) (value : Option String) : α :=
  (value.bind vocabulary.read?).getD fallback

/-- The class whose style the key of a directive defines, in upper case. -/
def styledClass? (key : String) : Option String :=
  match key.toList with
  | '.' :: name => some (String.ofList (Text.upper name))
  | _ => none

/-- The styles that directives define, in their order. -/
def definedStyles : List (String × String) → List (String × Style)
  | [] => []
  | (key, value) :: rest =>
      match styledClass? key with
      | some name => (name, Style.ofText value) :: definedStyles rest
      | none => definedStyles rest

/-- The base table with the styles that directives define. -/
def stylesOf (directives : Directives) (base : StyleTable) : StyleTable :=
  base.insertAll (definedStyles directives.entries)

/-- The settings that directives ask for, over a table of styles. -/
def ofDirectives (directives : Directives) (base : StyleTable) : Settings where
  arrowSize := sizeOr default.arrowSize (directives.get? "arrowSize")
  bendSize := sizeOr default.bendSize (directives.get? "bendSize")
  direction := choiceOr Direction.vocabulary default.direction (directives.get? "direction")
  gutter := sizeOr default.gutter (directives.get? "gutter")
  edgeMargin := sizeOr default.edgeMargin (directives.get? "edgeMargin")
  gravity := pullOr default.gravity (directives.get? "gravity")
  edges := choiceOr EdgeStyle.vocabulary default.edges (directives.get? "edges")
  fill := paletteOr default.fill (directives.get? "fill")
  background := textOr default.background (directives.get? "background")
  fillArrows := directives.get? "fillArrows" == some "true"
  font := textOr default.font (directives.get? "font")
  fontSize := sizeOr default.fontSize (directives.get? "fontSize")
  leading := sizeOr default.leading (directives.get? "leading")
  lineWidth := sizeOr default.lineWidth (directives.get? "lineWidth")
  padding := sizeOr default.padding (directives.get? "padding")
  spacing := sizeOr default.spacing (directives.get? "spacing")
  stroke := textOr default.stroke (directives.get? "stroke")
  title := textOr default.title (directives.get? "title")
  zoom := sizeOr default.zoom (directives.get? "zoom")
  acyclicer := (directives.get? "acyclicer").bind Acyclicer.vocabulary.read?
  ranker := choiceOr Ranker.vocabulary default.ranker (directives.get? "ranker")
  styles := stylesOf directives base

/-- A size is the fallback or a finite number other than zero that the value stands for. -/
theorem sizeOr_cases (fallback : Double) (value : Option String) :
    sizeOr fallback value = fallback ∨
      ∃ text number, value = some text ∧ finiteNumber? text = some number ∧
        number.isZero = false ∧ sizeOr fallback value = number := by
  cases value with
  | none => exact .inl rfl
  | some text =>
      cases hn : finiteNumber? text with
      | none => exact .inl (by simp [sizeOr, hn])
      | some number =>
          cases hz : number.isZero with
          | true => exact .inl (by simp [sizeOr, hn, Option.filter, hz])
          | false => exact .inr ⟨text, number, rfl, hn, hz, by simp [sizeOr, hn, Option.filter, hz]⟩

/-- The pull is the fallback or a finite number that the value stands for. -/
theorem pullOr_cases (fallback : Double) (value : Option String) :
    pullOr fallback value = fallback ∨
      ∃ text number, value = some text ∧ finiteNumber? text = some number ∧
        pullOr fallback value = number := by
  cases value with
  | none => exact .inl rfl
  | some text =>
      cases hn : finiteNumber? text with
      | none => exact .inl (by simp [pullOr, hn])
      | some number => exact .inr ⟨text, number, rfl, hn, by simp [pullOr, hn]⟩

theorem isFinite_of_finiteNumber? {text : String} {number : Double}
    (h : finiteNumber? text = some number) : number.isFinite = true := by
  simp only [finiteNumber?, Option.filter_eq_some_iff] at h
  exact h.2

end ClassDiagram.Settings
