import ClassDiagram.Draft.Basic
import ClassDiagram.Tree.Basic
set_option autoImplicit false

/-!
From what is written to the final form. All relations of a draft are numbered in the order in which
they are met when each compartment is visited before the classifiers in it. What is dropped keeps
its number, so numbers may have gaps.
-/
namespace ClassDiagram

mutual

/-- How many relations stand in a compartment, at any depth. -/
def Draft.Compartment.relationCount : Draft.Compartment → Nat
  | ⟨_, classifiers, relations⟩ => relations.length + Draft.countClassifiers classifiers

def Draft.countClassifiers : List Draft.Classifier → Nat
  | [] => 0
  | classifier :: rest => classifier.relationCount + Draft.countClassifiers rest

def Draft.Classifier.relationCount : Draft.Classifier → Nat
  | ⟨_, _, compartments⟩ => Draft.countCompartments compartments

def Draft.countCompartments : List Draft.Compartment → Nat
  | [] => 0
  | compartment :: rest => compartment.relationCount + Draft.countCompartments rest

end

namespace Tree

/-- Keeps the first of the items that agree in `key`. -/
def firstBy {α κ : Type} [DecidableEq κ] (key : α → κ) : List α → List α
  | [] => []
  | item :: rest => item :: (firstBy key rest).filter fun other => key other ≠ key item

/-- The classifiers with most compartments first; equally rich ones stay in order. -/
def richestFirst (classifiers : List Classifier) : List Classifier :=
  classifiers.mergeSort fun first second =>
    second.compartments.length ≤ first.compartments.length

/-- Relations with the numbers from `first` on. -/
def number (first : Nat) : List Draft.Relation → List Relation
  | [] => []
  | relation :: rest =>
      ⟨first, relation.arrow, relation.source, relation.target, relation.sourceLabel,
        relation.targetLabel⟩ :: number (first + 1) rest

mutual

/-- The final form of a compartment whose relations are numbered from `first` on. -/
def Compartment.ofDraft (first : Nat) : Draft.Compartment → Compartment
  | ⟨lines, classifiers, relations⟩ =>
      ⟨lines, firstBy Classifier.name
          (richestFirst (classifiersOfDraft (first + relations.length) classifiers)),
        firstBy Relation.ends (number first relations)⟩

/-- The final forms of classifiers, each with the numbers that those before it leave. -/
def classifiersOfDraft (first : Nat) : List Draft.Classifier → List Classifier
  | [] => []
  | classifier :: rest =>
      Classifier.ofDraft first classifier ::
        classifiersOfDraft (first + classifier.relationCount) rest

def Classifier.ofDraft (first : Nat) : Draft.Classifier → Classifier
  | ⟨kind, name, compartments⟩ => ⟨kind, name, compartmentsOfDraft first compartments⟩

def compartmentsOfDraft (first : Nat) : List Draft.Compartment → List Compartment
  | [] => []
  | compartment :: rest =>
      Compartment.ofDraft first compartment ::
        compartmentsOfDraft (first + compartment.relationCount) rest

end

def ofDraft (root : Draft.Compartment) : Compartment := Compartment.ofDraft 0 root

section firstBy

variable {α κ : Type} [DecidableEq κ] (key : α → κ)

theorem firstBy_sublist (items : List α) : (firstBy key items).Sublist items := by
  induction items with
  | nil => exact List.Sublist.refl _
  | cons item rest ih => exact List.Sublist.cons_cons item (List.filter_sublist.trans ih)

/-- No key stands twice. -/
theorem firstBy_keys_nodup (items : List α) : ((firstBy key items).map key).Nodup := by
  induction items with
  | nil => simp [firstBy]
  | cons item rest ih =>
      rw [firstBy, List.map_cons, List.nodup_cons]
      refine ⟨by simp, ?_⟩
      exact ih.sublist (List.Sublist.map key List.filter_sublist)

/-- No key is lost. -/
theorem mem_firstBy_keys_iff (items : List α) (k : κ) :
    k ∈ (firstBy key items).map key ↔ k ∈ items.map key := by
  induction items with
  | nil => simp [firstBy]
  | cons item rest ih =>
      simp only [firstBy, List.map_cons, List.mem_cons, ← ih]
      by_cases h : k = key item
      · simp [h]
      · simp only [h, false_or, List.mem_map, List.mem_filter, decide_eq_true_eq]
        constructor
        · rintro ⟨a, ⟨ha, _⟩, rfl⟩
          exact ⟨a, ha, rfl⟩
        · rintro ⟨a, ha, rfl⟩
          exact ⟨a, ⟨ha, h⟩, rfl⟩

end firstBy

theorem compartmentsOfDraft_length (first : Nat) (compartments : List Draft.Compartment) :
    (compartmentsOfDraft first compartments).length = compartments.length := by
  induction compartments generalizing first with
  | nil => simp [compartmentsOfDraft]
  | cons compartment rest ih => simp [compartmentsOfDraft, ih]

end Tree
end ClassDiagram
