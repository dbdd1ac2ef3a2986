import ClassDiagram.Proofs.Draft.Preorder
import ClassDiagram.Proofs.Tree.Best
import ClassDiagram.Proofs.Tree.Within
import Mathlib.Data.List.Nodup

set_option autoImplicit false

namespace ClassDiagram.Tree

/-- The classifier at place `i` is kept for its name: it has the most compartments of those with
that name, and is the earliest that has so many. -/
abbrev Kept (classifiers : List Draft.Classifier) (classifier : Draft.Classifier) (i : Nat) :
    Prop :=
  IsBest Draft.Classifier.name (fun other => other.compartments.length) classifiers classifier i

/-- `path` leads from `root` to `draft` through classifiers that are kept, and `final` stands in
`tree` where `draft` stands in `root`. -/
inductive Image : Draft.Compartment → Compartment → List Draft.Step → Draft.Compartment →
    Compartment → Prop where
  | here (root : Draft.Compartment) (tree : Compartment) : Image root tree [] root tree
  | inside {root part draft : Draft.Compartment} {tree inner final : Compartment}
      {node : Draft.Classifier} {classifier : Classifier} {step : Draft.Step}
      {path : List Draft.Step} (kept : Kept root.classifiers node step.classifier)
      (found : tree.classifier? node.name = some classifier)
      (at_part : node.compartments[step.part]? = some part)
      (at_inner : classifier.compartments[step.part]? = some inner)
      (below : Image part inner path draft final) : Image root tree (step :: path) draft final

/-- A classifier that is not kept stands around the compartment that the path leads to. -/
def Discarded (root : Draft.Compartment) : List Draft.Step → Prop
  | [] => False
  | step :: path =>
      (∀ node, ¬ Kept root.classifiers node step.classifier) ∨
        ∃ node part, root.classifiers[step.classifier]? = some node ∧
          node.compartments[step.part]? = some part ∧ Discarded part path

theorem Image.follow?_eq {root draft : Draft.Compartment} {tree final : Compartment}
    {path : List Draft.Step} (image : Image root tree path draft final) :
    root.follow? path = some draft := by
  induction image with
  | here => rfl
  | inside kept _ at_part _ _ ih => rw [Draft.Compartment.follow?_cons kept.1 at_part, ih]

theorem Image.within {root draft : Draft.Compartment} {tree final : Compartment}
    {path : List Draft.Step} (image : Image root tree path draft final) : tree.Within final := by
  induction image with
  | here root tree => exact .here tree
  | inside _ found _ at_inner _ ih =>
      exact .inside (List.mem_of_find?_eq_some found) (List.mem_of_getElem? at_inner) ih

/-- One step further down from a compartment and its image. -/
theorem Image.step {root draft part : Draft.Compartment} {tree final inner : Compartment}
    {path : List Draft.Step} (image : Image root tree path draft final) {node : Draft.Classifier}
    {classifier : Classifier} {step : Draft.Step}
    (kept : Kept draft.classifiers node step.classifier)
    (found : final.classifier? node.name = some classifier)
    (at_part : node.compartments[step.part]? = some part)
    (at_inner : classifier.compartments[step.part]? = some inner) :
    Image root tree (path ++ [step]) part inner := by
  induction image with
  | here => exact .inside kept found at_part at_inner (.here part inner)
  | inside kept' found' at_part' at_inner' _ ih =>
      exact .inside kept' found' at_part' at_inner' (ih kept found)

theorem ofDraft_eq (root : Draft.Compartment) : ofDraft root = Compartment.ofDraft 0 root := rfl

theorem Classifier.ofDraft_name (first : Nat) (node : Draft.Classifier) :
    (Classifier.ofDraft first node).name = node.name := by
  cases node
  rfl

theorem Classifier.ofDraft_kind (first : Nat) (node : Draft.Classifier) :
    (Classifier.ofDraft first node).kind = node.kind := by
  cases node
  rfl

theorem compartmentsOfDraft_getElem? (first : Nat) (compartments : List Draft.Compartment)
    (j : Nat) :
    (compartmentsOfDraft first compartments)[j]? = compartments[j]?.map
      (Compartment.ofDraft (first + Draft.countCompartments (compartments.take j))) := by
  induction compartments generalizing first j with
  | nil => rfl
  | cons compartment rest ih =>
      cases j with
      | zero => rfl
      | succ j =>
          rw [compartmentsOfDraft, List.getElem?_cons_succ, ih, List.getElem?_cons_succ,
            List.take_succ_cons, Draft.countCompartments, Nat.add_assoc]

theorem classifiersOfDraft_getElem? (first : Nat) (classifiers : List Draft.Classifier) (i : Nat) :
    (classifiersOfDraft first classifiers)[i]? = classifiers[i]?.map
      (Classifier.ofDraft (first + Draft.countClassifiers (classifiers.take i))) := by
  induction classifiers generalizing first i with
  | nil => rfl
  | cons classifier rest ih =>
      cases i with
      | zero => rfl
      | succ i =>
          rw [classifiersOfDraft, List.getElem?_cons_succ, ih, List.getElem?_cons_succ,
            List.take_succ_cons, Draft.countClassifiers, Nat.add_assoc]

theorem Classifier.ofDraft_compartments_getElem? (first : Nat) (node : Draft.Classifier) (j : Nat) :
    (Classifier.ofDraft first node).compartments[j]? = node.compartments[j]?.map
      (Compartment.ofDraft (first + Draft.countCompartments (node.compartments.take j))) := by
  obtain ⟨kind, name, compartments⟩ := node
  exact compartmentsOfDraft_getElem? first compartments j

theorem Classifier.ofDraft_compartments_length (first : Nat) (node : Draft.Classifier) :
    (Classifier.ofDraft first node).compartments.length = node.compartments.length := by
  obtain ⟨kind, name, compartments⟩ := node
  exact compartmentsOfDraft_length first compartments

/-- The number from which the classifier at place `i` of a compartment is numbered. -/
def firstNumber (first : Nat) (draft : Draft.Compartment) (i : Nat) : Nat :=
  first + draft.relations.length + Draft.countClassifiers (draft.classifiers.take i)

theorem isBest_classifiersOfDraft (first : Nat) (classifiers : List Draft.Classifier)
    (classifier : Classifier) (i : Nat) :
    IsBest Classifier.name (fun other => other.compartments.length)
        (classifiersOfDraft first classifiers) classifier i ↔
      ∃ node, Kept classifiers node i ∧ classifier =
        Classifier.ofDraft (first + Draft.countClassifiers (classifiers.take i)) node := by
  simp only [Kept, IsBest, classifiersOfDraft_getElem?, Option.map_eq_some_iff]
  constructor
  · rintro ⟨⟨node, at_i, rfl⟩, best⟩
    refine ⟨node, ⟨at_i, fun other j at_j same => ?_⟩, rfl⟩
    have compared := best _ j ⟨other, at_j, rfl⟩
    simp only [Classifier.ofDraft_name, Classifier.ofDraft_compartments_length] at compared
    exact compared same
  · rintro ⟨node, ⟨at_i, best⟩, rfl⟩
    refine ⟨⟨node, at_i, rfl⟩, ?_⟩
    rintro _ j ⟨other, at_j, rfl⟩ same
    simp only [Classifier.ofDraft_name, Classifier.ofDraft_compartments_length] at same ⊢
    exact best other j at_j same

private theorem exists_eq_map {α β : Type} {f : β → α} {p : β → Prop} {items : List α}
    (origin : ∀ item ∈ items, ∃ b, p b ∧ item = f b) :
    ∃ origins : List β, items = origins.map f ∧ ∀ b ∈ origins, p b := by
  induction items with
  | nil => exact ⟨[], rfl, by simp⟩
  | cons item rest ih =>
      obtain ⟨b, holds, same⟩ := origin item List.mem_cons_self
      obtain ⟨origins, others, all⟩ := ih fun other found =>
        origin other (List.mem_cons_of_mem _ found)
      refine ⟨b :: origins, by rw [same, others, List.map_cons], fun c found => ?_⟩
      rcases List.mem_cons.1 found with rfl | found
      · exact holds
      · exact all c found

/-- The classifiers of a final form are the final forms of those that are kept. -/
theorem exists_kept (first : Nat) (draft : Draft.Compartment) :
    ∃ kept : List (Draft.Classifier × Nat),
      kept.Pairwise (Ahead fun node => node.compartments.length) ∧
      (∀ node i, (node, i) ∈ kept ↔ Kept draft.classifiers node i) ∧
      (Compartment.ofDraft first draft).classifiers = kept.map fun entry =>
        Classifier.ofDraft (firstNumber first draft entry.2) entry.1 := by
  obtain ⟨lines, classifiers, relations⟩ := draft
  obtain ⟨best, ordered, chosen, left⟩ := exists_best Classifier.name
    (fun classifier => classifier.compartments.length)
    (classifiersOfDraft (first + relations.length) classifiers)
  let image : Draft.Classifier × Nat → Classifier × Nat := fun entry =>
    (Classifier.ofDraft (first + relations.length +
      Draft.countClassifiers (classifiers.take entry.2)) entry.1, entry.2)
  have origin : ∀ entry ∈ best, ∃ written : Draft.Classifier × Nat,
      Kept classifiers written.1 written.2 ∧ entry = image written := by
    rintro ⟨classifier, i⟩ found
    obtain ⟨node, kept, rfl⟩ := (isBest_classifiersOfDraft _ _ _ _).1 ((chosen _ _).1 found)
    exact ⟨(node, i), kept, rfl⟩
  obtain ⟨kept, rfl, all⟩ := exists_eq_map origin
  refine ⟨kept, ?_, fun node i => ⟨all (node, i), fun best_i => ?_⟩, ?_⟩
  · apply (List.pairwise_map.1 ordered).imp
    intro a b ahead
    simpa only [Ahead, image, Classifier.ofDraft_compartments_length] using ahead
  · have found := (chosen _ i).2
      ((isBest_classifiersOfDraft (first + relations.length) _ _ _).2 ⟨node, best_i, rfl⟩)
    obtain ⟨⟨other, j⟩, mem, same⟩ := List.mem_map.1 found
    obtain rfl : j = i := congrArg Prod.snd same
    have at_j : classifiers[j]? = some other := (all _ mem).1
    rw [best_i.1] at at_j
    cases at_j
    exact mem
  · rw [List.map_map] at left
    exact left

theorem mem_ofDraft_classifiers (first : Nat) (draft : Draft.Compartment)
    (classifier : Classifier) :
    classifier ∈ (Compartment.ofDraft first draft).classifiers ↔
      ∃ node i, Kept draft.classifiers node i ∧
        classifier = Classifier.ofDraft (firstNumber first draft i) node := by
  obtain ⟨kept, -, chosen, left⟩ := exists_kept first draft
  rw [left, List.mem_map]
  constructor
  · rintro ⟨⟨node, i⟩, found, rfl⟩
    exact ⟨node, i, (chosen node i).1 found, rfl⟩
  · rintro ⟨node, i, best, rfl⟩
    exact ⟨(node, i), (chosen node i).2 best, rfl⟩

theorem ofDraft_names_nodup (first : Nat) (draft : Draft.Compartment) :
    ((Compartment.ofDraft first draft).classifiers.map Classifier.name).Nodup := by
  obtain ⟨lines, classifiers, relations⟩ := draft
  exact firstBy_keys_nodup Classifier.name _

/-- No name is lost, and none is new. -/
theorem mem_ofDraft_names_iff (first : Nat) (draft : Draft.Compartment) (name : String) :
    name ∈ (Compartment.ofDraft first draft).classifiers.map Classifier.name ↔
      name ∈ draft.classifiers.map Draft.Classifier.name := by
  obtain ⟨lines, classifiers, relations⟩ := draft
  rw [Compartment.ofDraft, mem_firstBy_keys_iff, richestFirst,
    ((List.mergeSort_perm _ _).map Classifier.name).mem_iff]
  simp only [List.mem_iff_getElem?, List.getElem?_map, classifiersOfDraft_getElem?,
    Option.map_eq_some_iff]
  constructor
  · rintro ⟨i, _, ⟨node, at_i, rfl⟩, rfl⟩
    exact ⟨i, node, at_i, (Classifier.ofDraft_name _ node).symm⟩
  · rintro ⟨i, node, at_i, rfl⟩
    exact ⟨i, _, ⟨node, at_i, rfl⟩, Classifier.ofDraft_name _ node⟩

/-- Looking up the name of a classifier that is kept finds its final form. -/
theorem classifier?_of_kept (first : Nat) {draft : Draft.Compartment} {node : Draft.Classifier}
    {i : Nat} (kept : Kept draft.classifiers node i) :
    (Compartment.ofDraft first draft).classifier? node.name =
      some (Classifier.ofDraft (firstNumber first draft i) node) := by
  have present : Classifier.ofDraft (firstNumber first draft i) node ∈
      (Compartment.ofDraft first draft).classifiers :=
    (mem_ofDraft_classifiers first draft _).2 ⟨node, i, kept, rfl⟩
  have named := Classifier.ofDraft_name (firstNumber first draft i) node
  cases found : (Compartment.ofDraft first draft).classifier? node.name with
  | none =>
      have absent := List.find?_eq_none.1 found _ present
      simp [named] at absent
  | some other =>
      have same : other.name = node.name := Compartment.name_of_classifier? found
      rw [List.inj_on_of_nodup_map (ofDraft_names_nodup first draft)
        (List.mem_of_find?_eq_some found) present (by rw [same, named])]

/-- The image of a compartment is its own final form, numbered from the count of the relations that
come before it in pre-order. -/
theorem Image.eq_ofDraft {root draft : Draft.Compartment} {tree final : Compartment}
    {path : List Draft.Step} (image : Image root tree path draft final) {first : Nat}
    (whole : tree = Compartment.ofDraft first root) :
    ∃ offset, final = Compartment.ofDraft (first + offset) draft ∧
      ∀ n relation, root.preorder[n]? = some (path, relation) ↔
        ∃ k, n = offset + k ∧ draft.relations[k]? = some relation := by
  induction image generalizing first with
  | here root tree =>
      refine ⟨0, whole, fun n relation => ?_⟩
      rw [root.preorder_here]
      simp
  | @inside root part draft tree inner final node classifier step path kept found at_part at_inner
      below ih =>
      rw [whole, classifier?_of_kept first kept] at found
      cases found
      rw [Classifier.ofDraft_compartments_getElem?, at_part] at at_inner
      cases at_inner
      obtain ⟨offset, same, numbers⟩ := ih rfl
      refine ⟨root.relations.length +
        Draft.countClassifiers (root.classifiers.take step.classifier) +
        Draft.countCompartments (node.compartments.take step.part) + offset, ?_,
        fun n relation => ?_⟩
      · rw [same, firstNumber]
        congr 1
        omega
      · rw [root.preorder_below]
        constructor
        · rintro ⟨node', part', m, at_i, at_j, at_m, sum⟩
          rw [kept.1] at at_i
          cases at_i
          rw [at_part] at at_j
          cases at_j
          obtain ⟨k, rfl, at_k⟩ := (numbers m relation).1 at_m
          exact ⟨k, by omega, at_k⟩
        · rintro ⟨k, rfl, at_k⟩
          exact ⟨node, part, offset + k, kept.1, at_part, (numbers _ relation).2 ⟨k, rfl, at_k⟩,
            by omega⟩

/-- A compartment survives unless a classifier around it is discarded. -/
theorem discarded_or_image (first : Nat) {root draft : Draft.Compartment} {path : List Draft.Step}
    (leads : root.follow? path = some draft) :
    Discarded root path ∨
      ∃ final, Image root (Compartment.ofDraft first root) path draft final := by
  induction path generalizing first root with
  | nil =>
      cases leads
      exact .inr ⟨_, .here _ _⟩
  | cons step path ih =>
      obtain ⟨node, part, at_i, at_j, inside⟩ := Draft.Compartment.exists_of_follow?_cons leads
      by_cases kept : Kept root.classifiers node step.classifier
      · have at_inner := Classifier.ofDraft_compartments_getElem?
          (firstNumber first root step.classifier) node step.part
        rw [at_j] at at_inner
        rcases ih _ inside with gone | ⟨final, below⟩
        · exact .inl (.inr ⟨node, part, at_i, at_j, gone⟩)
        · have found := classifier?_of_kept first kept
          exact .inr ⟨final, .inside kept found at_j at_inner below⟩
      · refine .inl (.inl fun other best => kept ?_)
        have at_i' := best.1
        rw [at_i] at at_i'
        cases at_i'
        exact best

/-- Everything in a final form is the image of something. -/
theorem Compartment.Within.exists_image {tree final : Compartment} (within : tree.Within final)
    {first : Nat} {root : Draft.Compartment} (whole : tree = Compartment.ofDraft first root) :
    ∃ path draft, Image root tree path draft final := by
  induction within generalizing first root with
  | here tree => exact ⟨[], root, .here root tree⟩
  | inside sibling inner below ih =>
      subst whole
      obtain ⟨node, i, kept, rfl⟩ := (mem_ofDraft_classifiers first root _).1 sibling
      obtain ⟨j, at_inner⟩ := List.mem_iff_getElem?.1 inner
      have at_part := at_inner
      rw [Classifier.ofDraft_compartments_getElem?] at at_part
      obtain ⟨written, at_j, same⟩ := Option.map_eq_some_iff.1 at_part
      obtain ⟨path, draft, image⟩ := ih same.symm
      exact ⟨⟨i, j⟩ :: path, draft,
        .inside kept (classifier?_of_kept first kept) at_j at_inner image⟩

end ClassDiagram.Tree
