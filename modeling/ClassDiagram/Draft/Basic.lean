set_option autoImplicit false

/-!
A diagram as it is written: every mention of a classifier and every association stands where the
text has it, duplicates included.
-/
namespace ClassDiagram.Draft

/-- An association between two classifiers, by their names. -/
structure Relation where
  arrow : String
  source : String
  target : String
  sourceLabel : String
  targetLabel : String
deriving DecidableEq, Repr

mutual

/-- What stands between two bars: text lines, classifiers and associations. -/
structure Compartment where
  lines : List String
  classifiers : List Classifier
  relations : List Relation

/-- A bracketed classifier with its type, its name and its compartments. -/
structure Classifier where
  kind : String
  name : String
  compartments : List Compartment

end

deriving instance Repr for Compartment, Classifier

namespace Compartment

def empty : Compartment := ⟨[], [], []⟩

instance : Inhabited Compartment := ⟨empty⟩

def isEmpty (compartment : Compartment) : Bool :=
  compartment.lines.isEmpty && compartment.classifiers.isEmpty && compartment.relations.isEmpty

/-- What stands in the first compartment, followed by what stands in the second. -/
def append (first second : Compartment) : Compartment :=
  ⟨first.lines ++ second.lines, first.classifiers ++ second.classifiers,
    first.relations ++ second.relations⟩

instance : Append Compartment := ⟨append⟩

@[simp] theorem append_lines (first second : Compartment) :
    (first ++ second).lines = first.lines ++ second.lines := rfl

@[simp] theorem append_classifiers (first second : Compartment) :
    (first ++ second).classifiers = first.classifiers ++ second.classifiers := rfl

@[simp] theorem append_relations (first second : Compartment) :
    (first ++ second).relations = first.relations ++ second.relations := rfl

theorem ext_fields {first second : Compartment} (lines : first.lines = second.lines)
    (classifiers : first.classifiers = second.classifiers)
    (relations : first.relations = second.relations) : first = second := by
  cases first; cases second; cases lines; cases classifiers; cases relations; rfl

theorem append_assoc (first second third : Compartment) :
    first ++ second ++ third = first ++ (second ++ third) :=
  ext_fields (List.append_assoc _ _ _) (List.append_assoc _ _ _) (List.append_assoc _ _ _)

@[simp] theorem empty_append (compartment : Compartment) : empty ++ compartment = compartment :=
  ext_fields rfl rfl rfl

@[simp] theorem append_empty (compartment : Compartment) : compartment ++ empty = compartment :=
  ext_fields (List.append_nil _) (List.append_nil _) (List.append_nil _)

end Compartment
end ClassDiagram.Draft
