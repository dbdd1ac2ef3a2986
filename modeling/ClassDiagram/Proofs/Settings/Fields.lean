import ClassDiagram.Export
import ClassDiagram.Proofs.Settings.Overlay
import Mathlib.Data.List.Nodup

set_option autoImplicit false

/-!
Each setting is read from the value under its own name and from nothing else, the table of styles
from the keys that begin with a point.
-/
namespace ClassDiagram.Settings

inductive Measure where
  | arrowSize
  | bendSize
  | gutter
  | edgeMargin
  | gravity
  | fontSize
  | leading
  | lineWidth
  | padding
  | spacing
  | zoom
deriving DecidableEq, Repr

inductive Wording where
  | background
  | font
  | stroke
  | title
deriving DecidableEq, Repr

/-- All settings but the table of styles. -/
inductive Field where
  | number (measure : Measure)
  | text (wording : Wording)
  | direction
  | edges
  | fill
  | fillArrows
  | acyclicer
  | ranker
deriving DecidableEq, Repr

namespace Measure

def all : List Measure :=
  [.arrowSize, .bendSize, .gutter, .edgeMargin, .gravity, .fontSize, .leading, .lineWidth,
    .padding, .spacing, .zoom]

def name : Measure → String
  | .arrowSize => "arrowSize"
  | .bendSize => "bendSize"
  | .gutter => "gutter"
  | .edgeMargin => "edgeMargin"
  | .gravity => "gravity"
  | .fontSize => "fontSize"
  | .leading => "leading"
  | .lineWidth => "lineWidth"
  | .padding => "padding"
  | .spacing => "spacing"
  | .zoom => "zoom"

def get : Measure → Settings → Double
  | .arrowSize => Settings.arrowSize
  | .bendSize => Settings.bendSize
  | .gutter => Settings.gutter
  | .edgeMargin => Settings.edgeMargin
  | .gravity => Settings.gravity
  | .fontSize => Settings.fontSize
  | .leading => Settings.leading
  | .lineWidth => Settings.lineWidth
  | .padding => Settings.padding
  | .spacing => Settings.spacing
  | .zoom => Settings.zoom

/-- Whether a directive may set the measure to a number. Only the pull can be set to zero. -/
def admits : Measure → Double → Bool
  | .gravity, _ => true
  | _, number => !number.isZero

/-- What the value of its directive makes of the measure. -/
def read (measure : Measure) (value : Option String) : Double :=
  ((value.bind finiteNumber?).filter measure.admits).getD (measure.get default)

theorem read_gravity (value : Option String) :
    read .gravity value = pullOr default.gravity value := by
  have everything : Option.filter (admits .gravity) = id := by
    funext number
    cases number <;> rfl
  rw [read, everything]
  rfl

theorem get_ofDirectives (measure : Measure) (directives : Directives) (base : StyleTable) :
    measure.get (ofDirectives directives base) = measure.read (directives.get? measure.name) := by
  cases measure with
  | gravity => exact (read_gravity _).symm
  | _ => rfl

theorem admits_iff (measure : Measure) (number : Double) :
    measure.admits number = true ↔ (number.isZero = true → measure = .gravity) := by
  cases measure with
  | gravity => simp [admits]
  | _ => simp [admits]

/-- A measure is as when nothing is said, or it is what its directive says. -/
theorem read_cases (measure : Measure) (value : Option String) :
    measure.read value = measure.get default ∨
      ∃ text number, value = some text ∧ finiteNumber? text = some number ∧
        measure.admits number = true ∧ measure.read value = number := by
  cases measure with
  | gravity =>
      rw [read_gravity]
      rcases pullOr_cases default.gravity value with same | ⟨text, number, stated, found, same⟩
      · exact .inl same
      · exact .inr ⟨text, number, stated, found, rfl, same⟩
  | _ =>
      rcases sizeOr_cases _ value with same | ⟨text, number, stated, found, nonzero, same⟩
      · exact .inl same
      · refine .inr ⟨text, number, stated, found, ?_, same⟩
        simp [admits, nonzero]

end Measure

def Wording.name : Wording → String
  | .background => "background"
  | .font => "font"
  | .stroke => "stroke"
  | .title => "title"

def Wording.get : Wording → Settings → String
  | .background => Settings.background
  | .font => Settings.font
  | .stroke => Settings.stroke
  | .title => Settings.title

namespace Field

def all : List Field :=
  [.number .arrowSize, .number .bendSize, .direction, .number .gutter, .number .edgeMargin,
    .number .gravity, .edges, .fill, .text .background, .fillArrows, .text .font,
    .number .fontSize, .number .leading, .number .lineWidth, .number .padding,
    .number .spacing, .text .stroke, .text .title, .number .zoom, .acyclicer, .ranker]

def name : Field → String
  | .number measure => measure.name
  | .text wording => wording.name
  | .direction => "direction"
  | .edges => "edges"
  | .fill => "fill"
  | .fillArrows => "fillArrows"
  | .acyclicer => "acyclicer"
  | .ranker => "ranker"

def Value : Field → Type
  | .number _ => Double
  | .text _ => String
  | .direction => Direction
  | .edges => EdgeStyle
  | .fill => List String
  | .fillArrows => Bool
  | .acyclicer => Option Acyclicer
  | .ranker => Ranker

def get : (field : Field) → Settings → field.Value
  | .number measure => measure.get
  | .text wording => wording.get
  | .direction => Settings.direction
  | .edges => Settings.edges
  | .fill => Settings.fill
  | .fillArrows => Settings.fillArrows
  | .acyclicer => Settings.acyclicer
  | .ranker => Settings.ranker

/-- What the value of its directive makes of the field. -/
def read : (field : Field) → Option String → field.Value
  | .number measure => measure.read
  | .text wording => textOr (wording.get default)
  | .direction => choiceOr Direction.vocabulary default.direction
  | .edges => choiceOr EdgeStyle.vocabulary default.edges
  | .fill => paletteOr default.fill
  | .fillArrows => fun value => value == some "true"
  | .acyclicer => fun value => value.bind Acyclicer.vocabulary.read?
  | .ranker => choiceOr Ranker.vocabulary default.ranker

theorem mem_all (field : Field) : field ∈ all := by
  cases field with
  | number measure => cases measure <;> decide
  | text wording => cases wording <;> decide
  | _ => decide

theorem name_injective {first second : Field} (same : first.name = second.name) :
    first = second := by
  have distinct : (all.map name).Nodup := by decide
  exact List.inj_on_of_nodup_map distinct (mem_all first) (mem_all second) same

/-- No key of a field begins with a point. -/
theorem isStyleKey_name (field : Field) : isStyleKey field.name = false := by
  have plain : ∀ field ∈ all, isStyleKey field.name = false := by decide
  exact plain field (mem_all field)

/-- A field hangs on the value under its own key alone. -/
theorem get_ofDirectives (field : Field) (directives : Directives) (base : StyleTable) :
    field.get (ofDirectives directives base) = field.read (directives.get? field.name) := by
  cases field with
  | number measure => exact measure.get_ofDirectives directives base
  | text wording => cases wording <;> rfl
  | _ => rfl

end Field

/-- The fields and the styles are all there is to settings. -/
theorem eq_of_fields {first second : Settings}
    (fields : ∀ field : Field, field.get first = field.get second)
    (styles : first.styles = second.styles) : first = second := by
  have measures (measure : Measure) : measure.get first = measure.get second :=
    fields (.number measure)
  have wordings (wording : Wording) : wording.get first = wording.get second :=
    fields (.text wording)
  cases first
  cases second
  simp only [mk.injEq]
  exact ⟨measures .arrowSize, measures .bendSize, fields .direction, measures .gutter,
    measures .edgeMargin, measures .gravity, fields .edges, fields .fill, wordings .background,
    fields .fillArrows, wordings .font, measures .fontSize, measures .leading,
    measures .lineWidth, measures .padding, measures .spacing, wordings .stroke, wordings .title,
    measures .zoom, fields .acyclicer, fields .ranker, styles⟩

/-- A key without a point in front has no part in the styles. -/
theorem stylesOf_insert_of_plain (directives : Directives) (base : StyleTable) {key : String}
    (plain : isStyleKey key = false) (value : String) :
    stylesOf (directives.insert key value) base = stylesOf directives base := by
  rw [stylesOf, stylesOf, definedStyles_eq, definedStyles_eq, OrderedMap.insert,
    OrderedMap.filter_put plain]

/-- A key counts for its own class alone. -/
theorem stylesOf_insert_without (directives : Directives) (base : StyleTable)
    (key value : String) :
    (stylesOf (directives.insert key value) base).without (classOf key) =
      (stylesOf directives base).without (classOf key) := by
  have others (entries : List (String × String)) :
      (definedStyles entries).filter (fun style => style.1 != classOf key) =
        (entries.filter fun entry =>
          isStyleKey entry.1 && classOf entry.1 != classOf key).map
            fun entry => (classOf entry.1, Style.ofText entry.2) := by
    rw [definedStyles_eq, List.filter_map, List.filter_filter]
    simp only [Function.comp_def, Bool.and_comm]
  have own : (isStyleKey key && classOf key != classOf key) = false := by simp
  have same := OrderedMap.filter_put
    (p := fun other => isStyleKey other && classOf other != classOf key) own value
    directives.entries
  rw [stylesOf, stylesOf, OrderedMap.insertAll_without, OrderedMap.insertAll_without, others,
    others, OrderedMap.insert, same]

/-- The settings agree in everything but one field. -/
structure SameBut (field : Field) (before after : Settings) : Prop where
  others : ∀ other, other ≠ field → other.get after = other.get before
  styles : after.styles = before.styles

/-- The settings agree in everything but the style of one class. -/
structure SameButStyle (name : String) (before after : Settings) : Prop where
  fields : ∀ field : Field, field.get after = field.get before
  others : ∀ other, other ≠ name → after.styles.get? other = before.styles.get? other
  /-- The other classes stand in the same order. -/
  order : after.styles.without name = before.styles.without name

variable (directives : Directives) (base : StyleTable)

theorem Field.get_ofDirectives_insert_of_ne {field : Field} {key : String}
    (other : field.name ≠ key) (value : String) :
    field.get (ofDirectives (directives.insert key value) base) =
      field.get (ofDirectives directives base) := by
  rw [get_ofDirectives, get_ofDirectives, OrderedMap.get?_insert, if_neg other.symm]

theorem sameBut_insert (field : Field) (value : String) :
    SameBut field (ofDirectives directives base)
      (ofDirectives (directives.insert field.name value) base) := by
  refine ⟨?_, stylesOf_insert_of_plain directives base field.isStyleKey_name value⟩
  intro other different
  apply Field.get_ofDirectives_insert_of_ne
  exact fun same => different (Field.name_injective same)

theorem sameButStyle_insert {key : String} (style : isStyleKey key = true) (value : String) :
    SameButStyle (classOf key) (ofDirectives directives base)
      (ofDirectives (directives.insert key value) base) := by
  have order := stylesOf_insert_without directives base key value
  refine ⟨?_, ?_, order⟩
  · intro field
    apply Field.get_ofDirectives_insert_of_ne
    rintro rfl
    rw [field.isStyleKey_name] at style
    cases style
  · intro other different
    have same := congrArg (fun table => table.get? other) order
    simp only [OrderedMap.get?_without_of_ne _ different] at same
    exact same

/-- A directive that is put in sets the field that its key names and leaves the others and the
styles alone. With a point in front of its key it leaves everything alone but the style of its
class, and under any other key it changes nothing. -/
theorem ofDirectives_insert (key value : String) :
    let before := ofDirectives directives base
    let after := ofDirectives (directives.insert key value) base
    (∀ field : Field, field.name = key →
      field.get after = field.read (some value) ∧ SameBut field before after) ∧
    (isStyleKey key = true → SameButStyle (classOf key) before after) ∧
    ((∀ field : Field, field.name ≠ key) → isStyleKey key = false → after = before) := by
  intro before after
  refine ⟨?_, ?_, ?_⟩
  · rintro field rfl
    refine ⟨?_, sameBut_insert directives base field value⟩
    rw [Field.get_ofDirectives, OrderedMap.get?_insert, if_pos rfl]
  · intro style
    exact sameButStyle_insert directives base style value
  · intro unknown plain
    apply eq_of_fields
    · intro field
      exact Field.get_ofDirectives_insert_of_ne directives base (unknown field) value
    · exact stylesOf_insert_of_plain directives base plain value

/-- The key `styles` names no field, nor does a key in another case. -/
example : ofDirectives (.ofList [("styles", "bold"), ("Zoom", "2")]) .builtin = default := by
  decide +kernel

end ClassDiagram.Settings
