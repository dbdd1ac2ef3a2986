import ClassDiagram.Proofs.Tree.Numbering

set_option autoImplicit false

/-!
A tree whose numbers are forgotten is a draft again, the tidied form of the draft it was made from.
-/
namespace ClassDiagram

namespace Tree

def Relation.toDraft (relation : Relation) : Draft.Relation :=
  ⟨relation.arrow, relation.source, relation.target, relation.sourceLabel, relation.targetLabel⟩

mutual

/-- A compartment as it is written, with the relations at every depth stripped of their numbers. -/
def Compartment.toDraft : Compartment → Draft.Compartment
  | ⟨lines, classifiers, relations⟩ =>
      ⟨lines, classifiersToDraft classifiers, relations.map Relation.toDraft⟩

def classifiersToDraft : List Classifier → List Draft.Classifier
  | [] => []
  | classifier :: rest => classifier.toDraft :: classifiersToDraft rest

def Classifier.toDraft : Classifier → Draft.Classifier
  | ⟨kind, name, compartments⟩ => ⟨kind, name, compartmentsToDraft compartments⟩

def compartmentsToDraft : List Compartment → List Draft.Compartment
  | [] => []
  | compartment :: rest => compartment.toDraft :: compartmentsToDraft rest

end

theorem classifiersToDraft_eq (classifiers : List Classifier) :
    classifiersToDraft classifiers = classifiers.map Classifier.toDraft := by
  induction classifiers with
  | nil => rfl
  | cons classifier rest ih => rw [classifiersToDraft, ih, List.map_cons]

theorem Classifier.toDraft_name (classifier : Classifier) :
    classifier.toDraft.name = classifier.name := by
  cases classifier
  rfl

theorem Classifier.toDraft_length (classifier : Classifier) :
    classifier.toDraft.compartments.length = classifier.compartments.length := by
  obtain ⟨kind, name, compartments⟩ := classifier
  show (compartmentsToDraft compartments).length = compartments.length
  induction compartments with
  | nil => rfl
  | cons compartment rest ih => rw [compartmentsToDraft, List.length_cons, ih, List.length_cons]

theorem number_toDraft (first : Nat) (relations : List Draft.Relation) :
    (number first relations).map Relation.toDraft = relations := by
  induction relations generalizing first with
  | nil => rfl
  | cons relation rest ih => rw [number, List.map_cons, ih]; rfl

end Tree

namespace Draft

open ClassDiagram.Tree (firstBy bestBy)

abbrev richest (classifiers : List Classifier) : List Classifier :=
  bestBy Classifier.name (fun classifier => classifier.compartments.length) classifiers

mutual

/-- A compartment with what is dropped from the final form left out, at every depth. -/
def Compartment.tidy : Compartment → Compartment
  | ⟨lines, classifiers, relations⟩ =>
      ⟨lines, richest (tidyClassifiers classifiers), firstBy Relation.ends relations⟩

def tidyClassifiers : List Classifier → List Classifier
  | [] => []
  | classifier :: rest => classifier.tidy :: tidyClassifiers rest

def Classifier.tidy : Classifier → Classifier
  | ⟨kind, name, compartments⟩ => ⟨kind, name, tidyCompartments compartments⟩

def tidyCompartments : List Compartment → List Compartment
  | [] => []
  | compartment :: rest => compartment.tidy :: tidyCompartments rest

end

theorem tidyClassifiers_eq (classifiers : List Classifier) :
    tidyClassifiers classifiers = classifiers.map Classifier.tidy := by
  induction classifiers with
  | nil => rfl
  | cons classifier rest ih => rw [tidyClassifiers, ih, List.map_cons]

theorem tidyCompartments_eq (compartments : List Compartment) :
    tidyCompartments compartments = compartments.map Compartment.tidy := by
  induction compartments with
  | nil => rfl
  | cons compartment rest ih => rw [tidyCompartments, ih, List.map_cons]

theorem Classifier.tidy_name (classifier : Classifier) :
    classifier.tidy.name = classifier.name := by
  cases classifier
  rfl

theorem Classifier.tidy_length (classifier : Classifier) :
    classifier.tidy.compartments.length = classifier.compartments.length := by
  obtain ⟨kind, name, compartments⟩ := classifier
  show (tidyCompartments compartments).length = compartments.length
  rw [tidyCompartments_eq, List.length_map]

/-- Tidying neither renames a classifier nor changes how rich it is: it may come first or last. -/
theorem richest_tidyClassifiers (classifiers : List Classifier) :
    richest (tidyClassifiers classifiers) = tidyClassifiers (richest classifiers) := by
  simp only [richest, tidyClassifiers_eq, Tree.bestBy_map, Classifier.tidy_name,
    Classifier.tidy_length]

mutual

theorem Compartment.tidy_tidy : (compartment : Compartment) →
    compartment.tidy.tidy = compartment.tidy
  | ⟨lines, classifiers, relations⟩ => by
      have once := Tree.firstBy_keys_nodup Relation.ends relations
      rw [Compartment.tidy, Compartment.tidy, ← richest_tidyClassifiers,
        tidyClassifiers_tidyClassifiers classifiers, richest, richest, Tree.bestBy_bestBy,
        Tree.firstBy_eq_self Relation.ends once]

theorem tidyClassifiers_tidyClassifiers : (classifiers : List Classifier) →
    tidyClassifiers (tidyClassifiers classifiers) = tidyClassifiers classifiers
  | [] => rfl
  | classifier :: rest => by
      rw [tidyClassifiers, tidyClassifiers, classifier.tidy_tidy,
        tidyClassifiers_tidyClassifiers rest]

theorem Classifier.tidy_tidy : (classifier : Classifier) → classifier.tidy.tidy = classifier.tidy
  | ⟨kind, name, compartments⟩ => by
      rw [Classifier.tidy, Classifier.tidy, tidyCompartments_tidyCompartments compartments]

theorem tidyCompartments_tidyCompartments : (compartments : List Compartment) →
    tidyCompartments (tidyCompartments compartments) = tidyCompartments compartments
  | [] => rfl
  | compartment :: rest => by
      rw [tidyCompartments, tidyCompartments, compartment.tidy_tidy,
        tidyCompartments_tidyCompartments rest]

end

end Draft

namespace Tree

mutual

theorem Compartment.toDraft_ofDraft (first : Nat) : (draft : Draft.Compartment) →
    (Compartment.ofDraft first draft).toDraft = draft.tidy
  | ⟨lines, classifiers, relations⟩ => by
      have inner := classifiersToDraft_ofDraft (first + relations.length) classifiers
      have names := firstBy_map Draft.Relation.ends Relation.toDraft (number first relations)
      rw [number_toDraft] at names
      rw [classifiersToDraft_eq] at inner
      rw [Compartment.ofDraft, Compartment.toDraft, Draft.Compartment.tidy, names, ← inner,
        Draft.richest, bestBy_map, classifiersToDraft_eq]
      simp only [Classifier.toDraft_name, Classifier.toDraft_length]
      rfl

theorem classifiersToDraft_ofDraft (first : Nat) : (classifiers : List Draft.Classifier) →
    classifiersToDraft (classifiersOfDraft first classifiers) = Draft.tidyClassifiers classifiers
  | [] => rfl
  | classifier :: rest => by
      rw [classifiersOfDraft, classifiersToDraft, Classifier.toDraft_ofDraft first classifier,
        classifiersToDraft_ofDraft _ rest, Draft.tidyClassifiers]

theorem Classifier.toDraft_ofDraft (first : Nat) : (classifier : Draft.Classifier) →
    (Classifier.ofDraft first classifier).toDraft = classifier.tidy
  | ⟨kind, name, compartments⟩ => by
      rw [Classifier.ofDraft, Classifier.toDraft, compartmentsToDraft_ofDraft first compartments,
        Draft.Classifier.tidy]

theorem compartmentsToDraft_ofDraft (first : Nat) : (compartments : List Draft.Compartment) →
    compartmentsToDraft (compartmentsOfDraft first compartments) =
      Draft.tidyCompartments compartments
  | [] => rfl
  | compartment :: rest => by
      rw [compartmentsOfDraft, compartmentsToDraft, Compartment.toDraft_ofDraft first compartment,
        compartmentsToDraft_ofDraft _ rest, Draft.tidyCompartments]

end

/-- Bringing a final form into its final form once more changes nothing but numbers: lines,
classifiers and relations stay what and where they are, at every depth. -/
theorem toDraft_ofDraft_toDraft (root : Draft.Compartment) :
    (ofDraft (ofDraft root).toDraft).toDraft = (ofDraft root).toDraft := by
  rw [ofDraft_eq, ofDraft_eq, Compartment.toDraft_ofDraft, Compartment.toDraft_ofDraft,
    Draft.Compartment.tidy_tidy]

end Tree
end ClassDiagram
