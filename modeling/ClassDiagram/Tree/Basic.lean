set_option autoImplicit false

namespace ClassDiagram.Tree

/-- A numbered association between two classifiers of one compartment, by their names. -/
structure Relation where
  id : Nat
  arrow : String
  source : String
  target : String
  sourceLabel : String
  targetLabel : String
deriving DecidableEq, Repr

mutual

structure Compartment where
  lines : List String
  classifiers : List Classifier
  relations : List Relation

/-- A classifier with its type, its name and its compartments. -/
structure Classifier where
  kind : String
  name : String
  compartments : List Compartment

end

deriving instance Repr for Compartment, Classifier

def Relation.ends (relation : Relation) : String × String := (relation.source, relation.target)

namespace Compartment

def empty : Compartment := ⟨[], [], []⟩

instance : Inhabited Compartment := ⟨empty⟩

def isEmpty (compartment : Compartment) : Bool :=
  compartment.lines.isEmpty && compartment.classifiers.isEmpty && compartment.relations.isEmpty

def classifier? (compartment : Compartment) (name : String) : Option Classifier :=
  compartment.classifiers.find? fun classifier => classifier.name == name

theorem classifier?_isSome_iff (compartment : Compartment) (name : String) :
    (compartment.classifier? name).isSome = true ↔
      name ∈ compartment.classifiers.map Classifier.name := by
  simp [classifier?, List.find?_isSome]

theorem name_of_classifier? {compartment : Compartment} {name : String} {found : Classifier}
    (h : compartment.classifier? name = some found) : found.name = name := by
  simpa using List.find?_some h

end Compartment

/-- A step down the tree: a compartment of the classifier with the given name. -/
structure Step where
  name : String
  part : Nat
deriving DecidableEq, Repr

def Compartment.follow? (compartment : Compartment) : List Step → Option Compartment
  | [] => some compartment
  | step :: path =>
      match compartment.classifier? step.name with
      | none => none
      | some classifier =>
          match classifier.compartments[step.part]? with
          | none => none
          | some next => next.follow? path

end ClassDiagram.Tree
