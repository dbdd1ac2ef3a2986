import ClassDiagram.Tree.OfDraft

set_option autoImplicit false

/-!
The relations of a draft in pre-order, each with the way to its compartment. The number of a
relation is its index in this list.
-/
namespace ClassDiagram.Draft

/-- A step down a draft: to a compartment of the classifier that stands at some place. -/
structure Step where
  classifier : Nat
  part : Nat
deriving DecidableEq, Repr

def Compartment.follow? (compartment : Compartment) : List Step → Option Compartment
  | [] => some compartment
  | step :: path =>
      match compartment.classifiers[step.classifier]? with
      | none => none
      | some classifier =>
          match classifier.compartments[step.part]? with
          | none => none
          | some next => next.follow? path

theorem Compartment.follow?_cons {compartment part : Compartment} {classifier : Classifier}
    {step : Step} (found : compartment.classifiers[step.classifier]? = some classifier)
    (inside : classifier.compartments[step.part]? = some part) (path : List Step) :
    compartment.follow? (step :: path) = part.follow? path := by
  simp only [Compartment.follow?, found, inside]

theorem Compartment.exists_of_follow?_cons {compartment target : Compartment} {step : Step}
    {path : List Step} (leads : compartment.follow? (step :: path) = some target) :
    ∃ classifier part, compartment.classifiers[step.classifier]? = some classifier ∧
      classifier.compartments[step.part]? = some part ∧ part.follow? path = some target := by
  rw [Compartment.follow?] at leads
  split at leads
  · cases leads
  · next classifier found =>
      split at leads
      · cases leads
      · next part inside => exact ⟨classifier, part, found, inside, leads⟩

mutual

/-- All relations of a compartment: its own in order, then those in its classifiers in order. -/
def Compartment.preorder : Compartment → List (List Step × Relation)
  | ⟨_, classifiers, relations⟩ =>
      relations.map (fun relation => ([], relation)) ++ preorderOfClassifiers 0 classifiers

def preorderOfClassifiers (i : Nat) : List Classifier → List (List Step × Relation)
  | [] => []
  | classifier :: rest => classifier.preorder i ++ preorderOfClassifiers (i + 1) rest

def Classifier.preorder (i : Nat) : Classifier → List (List Step × Relation)
  | ⟨_, _, compartments⟩ => preorderOfCompartments i 0 compartments

def preorderOfCompartments (i j : Nat) : List Compartment → List (List Step × Relation)
  | [] => []
  | compartment :: rest =>
      compartment.preorder.map (fun entry => (⟨i, j⟩ :: entry.1, entry.2)) ++
        preorderOfCompartments i (j + 1) rest

end

/-- What stands where in lists that are put together, when `total` adds up their lengths. -/
theorem getElem?_flatMap_zipIdx {α β : Type} {f : α × Nat → List β} (total : List α → Nat)
    (nothing : total [] = 0)
    (more : ∀ item i rest, total (item :: rest) = (f (item, i)).length + total rest)
    (items : List α) (i n : Nat) (b : β) :
    ((items.zipIdx i).flatMap f)[n]? = some b ↔
      ∃ a item m, items[a]? = some item ∧ (f (item, i + a))[m]? = some b ∧
        n = total (items.take a) + m := by
  induction items generalizing i n with
  | nil => simp
  | cons first rest ih =>
      have length := more first i
      rw [List.zipIdx_cons, List.flatMap_cons]
      by_cases here : n < (f (first, i)).length
      · rw [List.getElem?_append_left here]
        constructor
        · intro at_n
          exact ⟨0, first, n, rfl, at_n, by rw [List.take_zero, nothing, Nat.zero_add]⟩
        · rintro ⟨a, item, m, at_a, at_m, sum⟩
          cases a with
          | zero =>
              cases at_a
              rw [List.take_zero, nothing, Nat.zero_add] at sum
              exact sum ▸ at_m
          | succ a =>
              rw [List.take_succ_cons, length] at sum
              omega
      · rw [List.getElem?_append_right (Nat.le_of_not_lt here), ih (i + 1)]
        constructor
        · rintro ⟨a, item, m, at_a, at_m, sum⟩
          refine ⟨a + 1, item, m, at_a, by rwa [← Nat.add_assoc, Nat.add_right_comm], ?_⟩
          rw [List.take_succ_cons, length]
          omega
        · rintro ⟨a, item, m, at_a, at_m, sum⟩
          cases a with
          | zero =>
              cases at_a
              have bound : m < (f (first, i)).length := (List.getElem?_eq_some_iff.1 at_m).1
              rw [List.take_zero, nothing, Nat.zero_add] at sum
              omega
          | succ a =>
              rw [List.take_succ_cons, length] at sum
              exact ⟨a, item, m, at_a, by rwa [Nat.add_right_comm, Nat.add_assoc], by omega⟩

theorem preorderOfClassifiers_eq (i : Nat) (classifiers : List Classifier) :
    preorderOfClassifiers i classifiers =
      (classifiers.zipIdx i).flatMap fun entry => entry.1.preorder entry.2 := by
  induction classifiers generalizing i with
  | nil => rfl
  | cons classifier rest ih =>
      rw [preorderOfClassifiers, ih, List.zipIdx_cons, List.flatMap_cons]

theorem Classifier.preorder_eq (i : Nat) (classifier : Classifier) :
    classifier.preorder i = classifier.compartments.zipIdx.flatMap fun part =>
      part.1.preorder.map fun entry => (⟨i, part.2⟩ :: entry.1, entry.2) := by
  obtain ⟨kind, name, compartments⟩ := classifier
  rw [Classifier.preorder]
  generalize 0 = j
  induction compartments generalizing j with
  | nil => rfl
  | cons compartment rest ih =>
      rw [preorderOfCompartments, ih, List.zipIdx_cons, List.flatMap_cons]

mutual

theorem Compartment.preorder_length : (compartment : Compartment) →
    compartment.preorder.length = compartment.relationCount
  | ⟨lines, classifiers, relations⟩ => by
      simp only [Compartment.preorder, Compartment.relationCount, List.length_append,
        List.length_map, preorderOfClassifiers_length 0 classifiers]

theorem preorderOfClassifiers_length (i : Nat) : (classifiers : List Classifier) →
    (preorderOfClassifiers i classifiers).length = countClassifiers classifiers
  | [] => rfl
  | classifier :: rest => by
      simp only [preorderOfClassifiers, countClassifiers, List.length_append,
        classifier.preorder_length i, preorderOfClassifiers_length (i + 1) rest]

theorem Classifier.preorder_length (i : Nat) : (classifier : Classifier) →
    (classifier.preorder i).length = classifier.relationCount
  | ⟨kind, name, compartments⟩ => by
      simp only [Classifier.preorder, Classifier.relationCount,
        preorderOfCompartments_length i 0 compartments]

theorem preorderOfCompartments_length (i j : Nat) : (compartments : List Compartment) →
    (preorderOfCompartments i j compartments).length = countCompartments compartments
  | [] => rfl
  | compartment :: rest => by
      simp only [preorderOfCompartments, countCompartments, List.length_append, List.length_map,
        compartment.preorder_length, preorderOfCompartments_length i (j + 1) rest]

end

theorem Classifier.preorder_getElem? (i n : Nat) (classifier : Classifier)
    (entry : List Step × Relation) :
    (classifier.preorder i)[n]? = some entry ↔
      ∃ b part m below, classifier.compartments[b]? = some part ∧
        part.preorder[m]? = some (below, entry.2) ∧ entry.1 = ⟨i, b⟩ :: below ∧
        n = countCompartments (classifier.compartments.take b) + m := by
  rw [classifier.preorder_eq, getElem?_flatMap_zipIdx countCompartments rfl
    fun part j rest => by rw [countCompartments, List.length_map, part.preorder_length]]
  simp only [List.getElem?_map, Option.map_eq_some_iff, Nat.zero_add]
  constructor
  · rintro ⟨b, part, m, at_b, ⟨⟨below, relation⟩, at_m, rfl⟩, sum⟩
    exact ⟨b, part, m, below, at_b, at_m, rfl, sum⟩
  · rintro ⟨b, part, m, below, at_b, at_m, path, sum⟩
    exact ⟨b, part, m, at_b, ⟨(below, entry.2), at_m, Prod.ext path.symm rfl⟩, sum⟩

theorem preorderOfClassifiers_getElem? (n : Nat) (classifiers : List Classifier)
    (entry : List Step × Relation) :
    (preorderOfClassifiers 0 classifiers)[n]? = some entry ↔
      ∃ a node m, classifiers[a]? = some node ∧ (node.preorder a)[m]? = some entry ∧
        n = countClassifiers (classifiers.take a) + m := by
  rw [preorderOfClassifiers_eq, getElem?_flatMap_zipIdx countClassifiers rfl
    fun classifier i rest => by rw [countClassifiers, classifier.preorder_length]]
  simp only [Nat.zero_add]

/-- The relations of the compartment itself have the first numbers. -/
theorem Compartment.preorder_here (root : Compartment) (n : Nat) (relation : Relation) :
    root.preorder[n]? = some ([], relation) ↔ root.relations[n]? = some relation := by
  obtain ⟨lines, classifiers, relations⟩ := root
  rw [Compartment.preorder]
  by_cases here : n < relations.length
  · rw [List.getElem?_append_left (by simpa only [List.length_map] using here), List.getElem?_map]
    simp
  · rw [List.getElem?_append_right (by simpa only [List.length_map] using Nat.le_of_not_lt here),
      preorderOfClassifiers_getElem?]
    simp only [List.getElem?_eq_none (Nat.le_of_not_lt here), Classifier.preorder_getElem?]
    simp

/-- The numbers inside a classifier come after those of the compartment itself, of the classifiers
in front of it and of its compartments in front. -/
theorem Compartment.preorder_below (root : Compartment) (n : Nat) (step : Step)
    (path : List Step) (relation : Relation) :
    root.preorder[n]? = some (step :: path, relation) ↔
      ∃ node part m, root.classifiers[step.classifier]? = some node ∧
        node.compartments[step.part]? = some part ∧ part.preorder[m]? = some (path, relation) ∧
        n = root.relations.length + countClassifiers (root.classifiers.take step.classifier) +
          countCompartments (node.compartments.take step.part) + m := by
  obtain ⟨lines, classifiers, relations⟩ := root
  rw [Compartment.preorder]
  dsimp only
  by_cases here : n < relations.length
  · rw [List.getElem?_append_left (by simpa only [List.length_map] using here), List.getElem?_map]
    constructor
    · intro found
      obtain ⟨_, -, entry⟩ := Option.map_eq_some_iff.1 found
      cases entry
    · rintro ⟨node, part, m, -, -, -, sum⟩
      omega
  · rw [List.getElem?_append_right (by simpa only [List.length_map] using Nat.le_of_not_lt here),
      List.length_map, preorderOfClassifiers_getElem?]
    simp only [Classifier.preorder_getElem?]
    constructor
    · rintro ⟨a, node, _, at_a, ⟨b, part, m, below, at_b, at_m, entry, rfl⟩, sum⟩
      cases entry
      exact ⟨node, part, m, at_a, at_b, at_m, by dsimp only; omega⟩
    · rintro ⟨node, part, m, at_a, at_b, at_m, sum⟩
      exact ⟨step.classifier, node, _, at_a,
        ⟨step.part, part, m, path, at_b, at_m, rfl, rfl⟩, by omega⟩

end ClassDiagram.Draft
