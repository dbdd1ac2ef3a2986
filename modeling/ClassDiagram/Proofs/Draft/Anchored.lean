import ClassDiagram.Proofs.Draft.Shape

set_option autoImplicit false

namespace ClassDiagram.Draft

namespace Compartment

/-- Each relation runs between classifiers that stand beside it. -/
def Anchored (compartment : Compartment) : Prop :=
  ∀ relation ∈ compartment.relations,
    relation.source ∈ compartment.classifiers.map Classifier.name ∧
      relation.target ∈ compartment.classifiers.map Classifier.name

/-- `p` holds of the compartment and of all compartments in it. -/
def Throughout (p : Compartment → Prop) (root : Compartment) : Prop :=
  ∀ path compartment, root.follow? path = some compartment → p compartment

theorem Chained.exists_place {compartment : Compartment} (chained : compartment.Chained)
    {relation : Relation} (mem : relation ∈ compartment.relations) :
    ∃ place, relation.Joins compartment.classifiers place := by
  obtain ⟨places, -, joined⟩ := chained
  obtain ⟨i, bound, rfl⟩ := List.getElem_of_mem mem
  exact ⟨_, joined.get (joined.length_eq ▸ bound) bound⟩

/-- A relation between neighbours has both of its ends there. -/
theorem Chained.anchored {compartment : Compartment} (chained : compartment.Chained) :
    compartment.Anchored := by
  have named : ∀ {place : Nat} {name : String},
      compartment.classifiers[place]?.map Classifier.name = some name →
        name ∈ compartment.classifiers.map Classifier.name := by
    intro place name found
    rw [← List.getElem?_map] at found
    exact List.mem_of_getElem? found
  intro relation mem
  obtain ⟨place, source, target⟩ := chained.exists_place mem
  exact ⟨named source, named target⟩

end Compartment

/-- In an accepted text every relation runs between classifiers of its own compartment. -/
theorem ofText?_throughout {text : String} {root : Compartment} (read : ofText? text = .ok root) :
    root.Throughout Compartment.Anchored := by
  intro path compartment leads
  have shape := (document_read (ofText?_eq_ok_iff.1 read)).shaped
  exact (shape path compartment leads).1.chained.anchored

end ClassDiagram.Draft
