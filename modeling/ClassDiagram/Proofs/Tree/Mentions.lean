import ClassDiagram.Proofs.Tree.Unnumbered

set_option autoImplicit false

namespace ClassDiagram

namespace Draft

def Compartment.insert (place : Nat) (classifier : Classifier) (compartment : Compartment) :
    Compartment :=
  { compartment with classifiers := compartment.classifiers.insertIdx place classifier }

def Compartment.updateAt (change : Compartment → Compartment) :
    List Step → Compartment → Compartment
  | [], compartment => change compartment
  | step :: path, compartment =>
      { compartment with
        classifiers := compartment.classifiers.modify step.classifier fun classifier =>
          { classifier with
            compartments := classifier.compartments.modify step.part (updateAt change path) } }

/-- Where each item adds its count to a total, one more of them adds its own. -/
theorem total_insertIdx {α : Type} {count : α → Nat} {total : List α → Nat}
    (more : ∀ item rest, total (item :: rest) = count item + total rest) {items : List α}
    {place : Nat} (inside : place ≤ items.length) (other : α) :
    total (items.insertIdx place other) = total items + count other := by
  induction items generalizing place with
  | nil =>
      obtain rfl : place = 0 := Nat.le_zero.1 inside
      rw [List.insertIdx_zero, more, Nat.add_comm]
  | cons head rest ih =>
      cases place with
      | zero => rw [List.insertIdx_zero, more, Nat.add_comm]
      | succ place =>
          rw [List.insertIdx_succ_cons, more, ih (Nat.le_of_succ_le_succ inside), more,
            Nat.add_assoc]

/-- What is seen of a list stays, if nothing is seen of the change to one of its items. -/
theorem map_modify_of_eq {α β : Type} {items : List α} {i : Nat} {item : α}
    (at_i : items[i]? = some item) {see : α → β} {change : α → α}
    (same : see (change item) = see item) : (items.modify i change).map see = items.map see := by
  apply List.ext_getElem?
  intro j
  rw [List.getElem?_map, List.getElem?_modify, List.getElem?_map]
  by_cases here : i = j
  · subst here
    simp [at_i, same]
  · simp [here]

/-- A change that tidying undoes is undone wherever it is made. -/
theorem Compartment.tidy_updateAt {change : Compartment → Compartment} {root target : Compartment}
    {path : List Step} (leads : root.follow? path = some target)
    (same : (change target).tidy = target.tidy) : (root.updateAt change path).tidy = root.tidy := by
  induction path generalizing root with
  | nil =>
      cases leads
      exact same
  | cons step path ih =>
      obtain ⟨node, part, at_i, at_j, below⟩ := exists_of_follow?_cons leads
      obtain ⟨lines, classifiers, relations⟩ := root
      simp only [updateAt, tidy, tidyClassifiers_eq]
      rw [map_modify_of_eq at_i]
      obtain ⟨kind, name, compartments⟩ := node
      simp only [Classifier.tidy, tidyCompartments_eq]
      rw [map_modify_of_eq at_j (ih below)]

end Draft

namespace Tree

open Draft (map_modify_of_eq total_insertIdx)

section numbering

variable {α β : Type} {each : Nat → α → β}

/-- Where the items are gone through one after the other, each with the number at which the one
before it ends, a change to one item that cannot be seen in it cannot be seen in the whole. -/
theorem numbered_modify {γ : Type} (count : α → Nat) (join : β → γ → γ) (all : Nat → List α → γ)
    (more : ∀ first item rest,
      all first (item :: rest) = join (each first item) (all (first + count item) rest))
    {items : List α} {i : Nat} {item : α} (at_i : items[i]? = some item) {change : α → α}
    (same : ∀ first, each first (change item) = each first item)
    (level : count (change item) = count item) (first : Nat) :
    all first (items.modify i change) = all first items := by
  induction items generalizing i first with
  | nil => cases at_i
  | cons head rest ih =>
      cases i with
      | zero =>
          cases at_i
          rw [List.modify_zero_cons, more, more, same, level]
      | succ i =>
          rw [List.getElem?_cons_succ] at at_i
          rw [List.modify_succ_cons, more, more, ih at_i]

/-- An item that takes no number is put in without moving the numbers of the others. -/
theorem numbered_insertIdx {count : α → Nat} (all : Nat → List α → List β)
    (more : ∀ first item rest,
      all first (item :: rest) = each first item :: all (first + count item) rest)
    {items : List α} {place : Nat} (inside : place ≤ items.length) {other : α}
    (none : count other = 0) (first : Nat) :
    ∃ n, all first (items.insertIdx place other) =
      (all first items).insertIdx place (each n other) := by
  induction items generalizing place first with
  | nil =>
      obtain rfl : place = 0 := Nat.le_zero.1 inside
      exact ⟨first, by rw [List.insertIdx_zero, more, none, Nat.add_zero, List.insertIdx_zero]⟩
  | cons head rest ih =>
      cases place with
      | zero =>
          exact ⟨first, by rw [List.insertIdx_zero, more, none, Nat.add_zero, List.insertIdx_zero]⟩
      | succ place =>
          obtain ⟨n, put⟩ := ih (Nat.le_of_succ_le_succ inside) (first + count head)
          exact ⟨n, by
            rw [List.insertIdx_succ_cons, more, put, more, List.insertIdx_succ_cons]⟩

end numbering

/-- A change that takes no part in the numbering and is not seen in the final form of one
compartment is not seen in that of the whole. -/
theorem Compartment.ofDraft_updateAt {change : Draft.Compartment → Draft.Compartment}
    {root target : Draft.Compartment} {path : List Draft.Step}
    (leads : root.follow? path = some target)
    (same : ∀ first, Compartment.ofDraft first (change target) = Compartment.ofDraft first target)
    (level : (change target).relationCount = target.relationCount) :
    (∀ first, Compartment.ofDraft first (root.updateAt change path) =
        Compartment.ofDraft first root) ∧
      (root.updateAt change path).relationCount = root.relationCount := by
  induction path generalizing root with
  | nil =>
      cases leads
      exact ⟨same, level⟩
  | cons step path ih =>
      obtain ⟨node, part, at_i, at_j, below⟩ := Draft.Compartment.exists_of_follow?_cons leads
      obtain ⟨unseen, counted⟩ := ih below
      let changed : Draft.Classifier → Draft.Classifier := fun classifier =>
        { classifier with
          compartments := classifier.compartments.modify step.part
            (Draft.Compartment.updateAt change path) }
      have nodeSame : ∀ first,
          Classifier.ofDraft first (changed node) = Classifier.ofDraft first node := by
        intro first
        obtain ⟨kind, name, compartments⟩ := node
        show Classifier.mk kind name _ = Classifier.mk kind name _
        rw [numbered_modify Draft.Compartment.relationCount List.cons compartmentsOfDraft
          (fun _ _ _ => rfl) at_j unseen counted]
      have nodeLevel : (changed node).relationCount = node.relationCount := by
        obtain ⟨kind, name, compartments⟩ := node
        simp only [changed, Draft.Classifier.relationCount]
        exact numbered_modify Draft.Compartment.relationCount Nat.add
          (fun _ => Draft.countCompartments) (fun _ _ _ => rfl) at_j (fun _ => counted) counted 0
      obtain ⟨lines, classifiers, relations⟩ := root
      constructor
      · intro first
        simp only [Draft.Compartment.updateAt, Compartment.ofDraft]
        rw [numbered_modify Draft.Classifier.relationCount List.cons classifiersOfDraft
          (fun _ _ _ => rfl) at_i nodeSame nodeLevel]
      · simp only [Draft.Compartment.updateAt, Draft.Compartment.relationCount]
        have total := numbered_modify Draft.Classifier.relationCount Nat.add
          (fun _ => Draft.countClassifiers) (fun _ _ _ => rfl) at_i (fun _ => nodeLevel) nodeLevel 0
        exact congrArg (relations.length + ·) total

section insert

variable {compartment : Draft.Compartment} {node other : Draft.Classifier} {i place : Nat}

theorem tidy_insert (at_i : compartment.classifiers[i]? = some node)
    (same : other.name = node.name)
    (poorer : i < place ∧ other.compartments.length ≤ node.compartments.length ∨
      place ≤ i ∧ other.compartments.length < node.compartments.length) :
    (compartment.insert place other).tidy = compartment.tidy := by
  obtain ⟨lines, classifiers, relations⟩ := compartment
  have at_tidy : (classifiers.map Draft.Classifier.tidy)[i]? = some node.tidy := by
    rw [List.getElem?_map, at_i]
    rfl
  simp only [Draft.Compartment.insert, Draft.Compartment.tidy, Draft.tidyClassifiers_eq,
    List.map_insertIdx, Draft.richest]
  rw [bestBy_insertIdx _ _ at_tidy]
  · simpa only [Draft.Classifier.tidy_name] using same
  · simpa only [Draft.Classifier.tidy_length] using poorer

theorem ofDraft_insert_of_no_relation (at_i : compartment.classifiers[i]? = some node)
    (same : other.name = node.name)
    (poorer : i < place ∧ other.compartments.length ≤ node.compartments.length ∨
      place ≤ i ∧ other.compartments.length < node.compartments.length)
    (inside : place ≤ compartment.classifiers.length) (none : other.relationCount = 0)
    (first : Nat) :
    Compartment.ofDraft first (compartment.insert place other) =
      Compartment.ofDraft first compartment := by
  obtain ⟨lines, classifiers, relations⟩ := compartment
  obtain ⟨n, put⟩ := numbered_insertIdx classifiersOfDraft (fun _ _ _ => rfl) inside none
    (first + relations.length)
  have at_final := classifiersOfDraft_getElem? (first + relations.length) classifiers i
  rw [show classifiers[i]? = some node from at_i] at at_final
  have left : bestBy Classifier.name (fun classifier => classifier.compartments.length)
      ((classifiersOfDraft (first + relations.length) classifiers).insertIdx place
        (Classifier.ofDraft n other)) =
      bestBy Classifier.name (fun classifier => classifier.compartments.length)
        (classifiersOfDraft (first + relations.length) classifiers) := by
    apply bestBy_insertIdx _ _ at_final
    · simpa only [Classifier.ofDraft_name] using same
    · simpa only [Classifier.ofDraft_compartments_length] using poorer
  rw [← put] at left
  exact congrArg (Compartment.mk lines · _) left

theorem relationCount_insert (inside : place ≤ compartment.classifiers.length) :
    (compartment.insert place other).relationCount =
      compartment.relationCount + other.relationCount := by
  obtain ⟨lines, classifiers, relations⟩ := compartment
  have sum : Draft.countClassifiers (classifiers.insertIdx place other) =
      Draft.countClassifiers classifiers + other.relationCount :=
    total_insertIdx (fun _ _ => rfl) inside other
  rw [Draft.Compartment.insert, Draft.Compartment.relationCount, Draft.Compartment.relationCount,
    sum, Nat.add_assoc]

end insert

/-- One mention of a classifier more, either behind another one that is at least as rich or in front
of one that is richer, changes nothing but numbers; if it holds no relation, it changes nothing. -/
theorem ofDraft_updateAt_insert {root compartment : Draft.Compartment} {path : List Draft.Step}
    (leads : root.follow? path = some compartment) {node other : Draft.Classifier} {i place : Nat}
    (at_i : compartment.classifiers[i]? = some node) (same : other.name = node.name)
    (inside : place ≤ compartment.classifiers.length)
    (poorer : i < place ∧ other.compartments.length ≤ node.compartments.length ∨
      place ≤ i ∧ other.compartments.length < node.compartments.length) :
    (ofDraft (root.updateAt (Draft.Compartment.insert place other) path)).toDraft =
        (ofDraft root).toDraft ∧
      (other.relationCount = 0 →
        ofDraft (root.updateAt (Draft.Compartment.insert place other) path) = ofDraft root) := by
  simp only [ofDraft_eq]
  refine ⟨?_, fun none => ?_⟩
  · rw [Compartment.toDraft_ofDraft, Compartment.toDraft_ofDraft]
    exact Draft.Compartment.tidy_updateAt leads (tidy_insert at_i same poorer)
  · have unseen := ofDraft_insert_of_no_relation at_i same poorer inside none
    have level : (compartment.insert place other).relationCount = compartment.relationCount := by
      rw [relationCount_insert inside, none, Nat.add_zero]
    exact (Compartment.ofDraft_updateAt leads unseen level).1 0

/-- Two mentions of a classifier with two compartments that stands in a compartment of another one:
a poorer mention with a relation in front, and an equally rich one without behind. -/
theorem ofDraft_updateAt_insert_in_part :
    let rich : Draft.Classifier := ⟨"CLASS", "A", [⟨["A"], [], []⟩, ⟨["x"], [], []⟩]⟩
    let part : Draft.Compartment := ⟨["P"], [rich], [⟨"->", "A", "A", "", ""⟩]⟩
    let root : Draft.Compartment := ⟨[], [⟨"CLASS", "P", [part]⟩], [⟨"--", "P", "P", "", ""⟩]⟩
    let poor : Draft.Classifier := ⟨"NOTE", "A", [⟨["A"], [], [⟨"->", "B", "B", "", ""⟩]⟩]⟩
    let plain : Draft.Classifier := ⟨"NOTE", "A", [⟨["A"], [], []⟩, ⟨["y"], [], []⟩]⟩
    root.follow? [⟨0, 0⟩] = some part ∧
      (ofDraft (root.updateAt (Draft.Compartment.insert 0 poor) [⟨0, 0⟩])).toDraft =
        (ofDraft root).toDraft ∧
      ofDraft (root.updateAt (Draft.Compartment.insert 1 plain) [⟨0, 0⟩]) = ofDraft root := by
  intro rich part root poor plain
  have leads : root.follow? [⟨0, 0⟩] = some part := rfl
  have at_first : part.classifiers[0]? = some rich := rfl
  have first := ofDraft_updateAt_insert leads at_first (show poor.name = rich.name from rfl)
    (Nat.zero_le 1) (.inr ⟨Nat.le_refl 0, by decide⟩)
  have behind := ofDraft_updateAt_insert leads at_first (show plain.name = rich.name from rfl)
    (Nat.le_refl 1) (.inl ⟨Nat.zero_lt_one, by decide⟩)
  exact ⟨leads, first.1, behind.2 rfl⟩

end Tree
end ClassDiagram
