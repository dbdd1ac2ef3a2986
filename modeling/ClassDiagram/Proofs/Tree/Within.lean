import ClassDiagram.Tree.Basic

set_option autoImplicit false

namespace ClassDiagram.Tree

/-- The second compartment is the first one or stands in it at some depth. -/
inductive Compartment.Within : Compartment → Compartment → Prop where
  | here (tree : Compartment) : tree.Within tree
  | inside {tree part final : Compartment} {classifier : Classifier}
      (sibling : classifier ∈ tree.classifiers) (inner : part ∈ classifier.compartments)
      (below : part.Within final) : tree.Within final

theorem Compartment.Within.eq_empty {final : Compartment}
    (within : Compartment.empty.Within final) : final = Compartment.empty := by
  cases within with
  | here => rfl
  | inside sibling => cases sibling

mutual

/-- The relations of a compartment and of all compartments in it. -/
def Compartment.relationsWithin : Compartment → List Relation
  | ⟨_, classifiers, relations⟩ => relations ++ relationsOfClassifiers classifiers

def relationsOfClassifiers : List Classifier → List Relation
  | [] => []
  | classifier :: rest => classifier.relationsWithin ++ relationsOfClassifiers rest

def Classifier.relationsWithin : Classifier → List Relation
  | ⟨_, _, compartments⟩ => relationsOfCompartments compartments

def relationsOfCompartments : List Compartment → List Relation
  | [] => []
  | compartment :: rest => compartment.relationsWithin ++ relationsOfCompartments rest

end

theorem relationsOfClassifiers_eq (classifiers : List Classifier) :
    relationsOfClassifiers classifiers = classifiers.flatMap Classifier.relationsWithin := by
  induction classifiers with
  | nil => rfl
  | cons classifier rest ih => rw [relationsOfClassifiers, ih, List.flatMap_cons]

theorem Classifier.relationsWithin_eq (classifier : Classifier) :
    classifier.relationsWithin = classifier.compartments.flatMap Compartment.relationsWithin := by
  obtain ⟨kind, name, compartments⟩ := classifier
  rw [Classifier.relationsWithin]
  induction compartments with
  | nil => rfl
  | cons compartment rest ih => rw [relationsOfCompartments, ih, List.flatMap_cons]

theorem Compartment.relationsWithin_eq (tree : Compartment) :
    tree.relationsWithin =
      tree.relations ++ tree.classifiers.flatMap Classifier.relationsWithin := by
  obtain ⟨lines, classifiers, relations⟩ := tree
  rw [Compartment.relationsWithin, relationsOfClassifiers_eq]

theorem Compartment.Within.mem_relationsWithin {tree final : Compartment}
    (within : tree.Within final) {relation : Relation} (mem : relation ∈ final.relations) :
    relation ∈ tree.relationsWithin := by
  induction within with
  | here tree =>
      rw [tree.relationsWithin_eq]
      exact List.mem_append_left _ mem
  | @inside tree part final classifier sibling inner below ih =>
      rw [tree.relationsWithin_eq]
      apply List.mem_append_right
      refine List.mem_flatMap.2 ⟨classifier, sibling, ?_⟩
      rw [classifier.relationsWithin_eq]
      exact List.mem_flatMap.2 ⟨part, inner, ih mem⟩

end ClassDiagram.Tree
