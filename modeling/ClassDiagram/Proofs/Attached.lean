import ClassDiagram.Diagram
import ClassDiagram.Proofs.Draft.Anchored
import ClassDiagram.Proofs.Tree.Numbering

set_option autoImplicit false

namespace ClassDiagram

namespace Tree

/-- Each relation runs between classifiers that are found beside it. -/
def Compartment.Attached (compartment : Compartment) : Prop :=
  ∀ relation ∈ compartment.relations,
    (compartment.classifier? relation.source).isSome = true ∧
      (compartment.classifier? relation.target).isSome = true

/-- The final form of a compartment keeps a classifier under each name, and its relations run where
they were written. -/
theorem ofDraft_attached (first : Nat) {draft : Draft.Compartment} (anchored : draft.Anchored) :
    (Compartment.ofDraft first draft).Attached := by
  intro relation mem
  obtain ⟨k, written, at_k, rfl, -⟩ := (mem_ofDraft_relations first draft relation).1 mem
  have ends := anchored written (List.mem_of_getElem? at_k)
  simp only [Compartment.classifier?_isSome_iff, mem_ofDraft_names_iff]
  exact ends

/-- What holds of all that is written holds of all that is left of it. -/
theorem within_ofDraft_attached {root : Draft.Compartment}
    (anchored : root.Throughout Draft.Compartment.Anchored) {final : Compartment}
    (within : (ofDraft root).Within final) : final.Attached := by
  obtain ⟨path, draft, image⟩ := within.exists_image (ofDraft_eq root)
  obtain ⟨offset, same, -⟩ := image.eq_ofDraft (ofDraft_eq root)
  rw [same]
  exact ofDraft_attached (0 + offset) (anchored path draft image.follow?_eq)

end Tree

/-- Whatever styles and directives a diagram starts from, no relation in it leads to a classifier
that is not there. -/
theorem compile_attached (styles : StyleTable) (defaults : Directives) (source : String)
    {diagram : Diagram}
    (accepted : { Compiler.standard with styles, defaults }.compile source = .ok diagram) :
    ∀ compartment, diagram.root.Within compartment → ∀ relation ∈ compartment.relations,
      (compartment.classifier? relation.source).isSome = true ∧
        (compartment.classifier? relation.target).isSome = true := by
  intro compartment within
  show compartment.Attached
  rw [Compiler.compile] at accepted
  split at accepted
  · cases accepted
  · next prepared hp =>
      split at accepted
      · cases accepted
        rw [Tree.Compartment.Within.eq_empty within]
        intro relation mem
        cases mem
      · split at accepted
        · cases accepted
        · next draft read =>
            cases accepted
            exact Tree.within_ofDraft_attached (Draft.ofText?_throughout read) within

/-- The richest of the classifiers under one name stays, with a relation inside it, and the first of
two relations between the same classifiers. -/
theorem compile_attached_of_repeated :
    ∃ diagram,
      Compiler.standard.compile "[A] -> [B]; [B|[C] -- [D]]\n[A] --> [B]" = .ok diagram ∧
      diagram.root.relations.length = 1 ∧
      ∀ compartment, diagram.root.Within compartment → ∀ relation ∈ compartment.relations,
        (compartment.classifier? relation.source).isSome = true ∧
          (compartment.classifier? relation.target).isSome = true := by
  have counted : (Compiler.standard.compile
      "[A] -> [B]; [B|[C] -- [D]]\n[A] --> [B]").toOption.map
        (fun diagram => diagram.root.relations.length) = some 1 := by decide +kernel
  cases accepted : Compiler.standard.compile "[A] -> [B]; [B|[C] -- [D]]\n[A] --> [B]" with
  | error reason =>
      rw [accepted] at counted
      cases counted
  | ok diagram =>
      rw [accepted] at counted
      exact ⟨diagram, rfl, Option.some.inj counted, compile_attached .builtin .empty _ accepted⟩

end ClassDiagram
