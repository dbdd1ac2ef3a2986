import ClassDiagram.Proofs.Tree.Image
import Mathlib.Data.List.Forall2

set_option autoImplicit false

namespace ClassDiagram.Tree

/-- What is kept of a classifier, written at some place of the compartment that `path` leads to: its
type, its name and the images of its compartments. -/
structure KeptAs (root : Draft.Compartment) (tree : Compartment) (path : List Draft.Step)
    (written : Draft.Classifier × Nat) (classifier : Classifier) : Prop where
  kind : classifier.kind = written.1.kind
  name : classifier.name = written.1.name
  length : classifier.compartments.length = written.1.compartments.length
  parts : ∀ j part, written.1.compartments[j]? = some part →
    ∃ inner, classifier.compartments[j]? = some inner ∧
      Image root tree (path ++ [⟨written.2, j⟩]) part inner

/-- How a compartment of a draft and its image agree. -/
structure Canonical (root : Draft.Compartment) (tree : Compartment) (path : List Draft.Step)
    (draft : Draft.Compartment) (final : Compartment) : Prop where
  lines : final.lines = draft.lines
  names : ∀ name, name ∈ final.classifiers.map Classifier.name ↔
    name ∈ draft.classifiers.map Draft.Classifier.name
  once : (final.classifiers.map Classifier.name).Nodup
  kept : ∃ written : List (Draft.Classifier × Nat),
    (∀ node i, (node, i) ∈ written ↔ Kept draft.classifiers node i) ∧
    written.Pairwise (Ahead fun node => node.compartments.length) ∧
    List.Forall₂ (KeptAs root tree path) written final.classifiers

theorem Image.keptAs {root draft : Draft.Compartment} {tree final : Compartment}
    {path : List Draft.Step} (image : Image root tree path draft final) {first : Nat}
    (same : final = Compartment.ofDraft first draft) {written : Draft.Classifier × Nat}
    (kept : Kept draft.classifiers written.1 written.2) :
    KeptAs root tree path written
      (Classifier.ofDraft (firstNumber first draft written.2) written.1) := by
  refine ⟨Classifier.ofDraft_kind _ _, Classifier.ofDraft_name _ _,
    Classifier.ofDraft_compartments_length _ _, fun j part at_j => ?_⟩
  have at_inner := Classifier.ofDraft_compartments_getElem?
    (firstNumber first draft written.2) written.1 j
  rw [at_j] at at_inner
  subst same
  exact ⟨_, at_inner, image.step kept (classifier?_of_kept first kept) at_j at_inner⟩

theorem Image.canonical {root draft : Draft.Compartment} {final : Compartment}
    {path : List Draft.Step} (image : Image root (ofDraft root) path draft final) :
    Canonical root (ofDraft root) path draft final := by
  obtain ⟨offset, same, -⟩ := image.eq_ofDraft (ofDraft_eq root)
  obtain ⟨written, ordered, chosen, left⟩ := exists_kept (0 + offset) draft
  rw [← same] at left
  refine ⟨?_, fun name => ?_, ?_, written, chosen, ordered, ?_⟩
  · rw [same]
    cases draft
    rfl
  · rw [same]
    exact mem_ofDraft_names_iff _ draft name
  · rw [same]
    exact ofDraft_names_nodup _ draft
  · rw [left, List.forall₂_map_right_iff, List.forall₂_same]
    intro entry mem
    exact image.keptAs same ((chosen entry.1 entry.2).1 mem)

/-- Every compartment of a final form is the image of one that was written, every written
compartment has an image unless a classifier around it is discarded, and between a compartment and
its image the law of the richest classifiers holds. -/
theorem ofDraft_canonical (root : Draft.Compartment) :
    (∀ final, (ofDraft root).Within final →
      ∃ path draft, Image root (ofDraft root) path draft final) ∧
    (∀ path draft, root.follow? path = some draft →
      Discarded root path ∨ ∃ final, Image root (ofDraft root) path draft final) ∧
    ∀ path draft final, Image root (ofDraft root) path draft final →
      Canonical root (ofDraft root) path draft final := by
  refine ⟨fun final within => within.exists_image (ofDraft_eq root), fun path draft leads => ?_,
    fun path draft final image => image.canonical⟩
  exact discarded_or_image 0 leads

end ClassDiagram.Tree
