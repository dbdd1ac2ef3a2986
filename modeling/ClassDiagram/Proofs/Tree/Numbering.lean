import ClassDiagram.Proofs.Tree.Image
import Mathlib.Data.List.Flatten
import Mathlib.Data.List.Perm.Subperm

set_option autoImplicit false

namespace ClassDiagram.Draft

def Relation.ends (relation : Relation) : String × String := (relation.source, relation.target)

end ClassDiagram.Draft

namespace ClassDiagram.Tree

def Relation.ofDraft (id : Nat) (written : Draft.Relation) : Relation :=
  ⟨id, written.arrow, written.source, written.target, written.sourceLabel, written.targetLabel⟩

theorem number_getElem? (first : Nat) (relations : List Draft.Relation) (k : Nat) :
    (number first relations)[k]? = relations[k]?.map (Relation.ofDraft (first + k)) := by
  induction relations generalizing first k with
  | nil => rfl
  | cons relation rest ih =>
      cases k with
      | zero => rfl
      | succ k =>
          rw [number, List.getElem?_cons_succ, ih, List.getElem?_cons_succ, Nat.add_right_comm,
            Nat.add_assoc]

theorem mem_number_iff (first : Nat) (relations : List Draft.Relation) (relation : Relation) :
    relation ∈ number first relations ↔
      ∃ k written, relations[k]? = some written ∧
        relation = Relation.ofDraft (first + k) written := by
  simp only [List.mem_iff_getElem?, number_getElem?, Option.map_eq_some_iff]
  constructor
  · rintro ⟨k, written, at_k, rfl⟩
    exact ⟨k, written, at_k, rfl⟩
  · rintro ⟨k, written, at_k, rfl⟩
    exact ⟨k, written, at_k, rfl⟩

theorem number_pairwise (first : Nat) (relations : List Draft.Relation) :
    (number first relations).Pairwise fun a b => a.id < b.id := by
  induction relations generalizing first with
  | nil => exact List.Pairwise.nil
  | cons relation rest ih =>
      refine List.pairwise_cons.2 ⟨fun other mem => ?_, ih (first + 1)⟩
      obtain ⟨k, written, -, rfl⟩ := (mem_number_iff _ _ _).1 mem
      show first < first + 1 + k
      omega

theorem ofDraft_relations (first : Nat) (draft : Draft.Compartment) :
    (Compartment.ofDraft first draft).relations =
      firstBy Relation.ends (number first draft.relations) := by
  cases draft
  rfl

/-- The relations of a final form are the first of each pair of ends, with their numbers. -/
theorem mem_ofDraft_relations (first : Nat) (draft : Draft.Compartment) (relation : Relation) :
    relation ∈ (Compartment.ofDraft first draft).relations ↔
      ∃ k written, draft.relations[k]? = some written ∧
        relation = Relation.ofDraft (first + k) written ∧
        ∀ j other, draft.relations[j]? = some other → other.ends = written.ends → k ≤ j := by
  rw [ofDraft_relations, mem_firstBy_iff Relation.ends (fun a b => Nat.lt_asymm)
    (number_pairwise first draft.relations)]
  simp only [mem_number_iff]
  constructor
  · rintro ⟨⟨k, written, at_k, rfl⟩, earliest⟩
    refine ⟨k, written, at_k, rfl, fun j other at_j same => ?_⟩
    rcases earliest _ ⟨j, other, at_j, rfl⟩ same with equal | later
    · have ids : first + j = first + k := congrArg Relation.id equal
      omega
    · have ids : first + k < first + j := later
      omega
  · rintro ⟨k, written, at_k, rfl, earliest⟩
    refine ⟨⟨k, written, at_k, rfl⟩, ?_⟩
    rintro _ ⟨j, other, at_j, rfl⟩ same
    rcases Nat.eq_or_lt_of_le (earliest j other at_j same) with rfl | later
    · rw [at_k] at at_j
      cases at_j
      exact .inl rfl
    · right
      show first + k < first + j
      omega

/-- The relations have different numbers, all of them among the `count` numbers from `first` on. -/
structure Spans (first count : Nat) (relations : List Relation) : Prop where
  nodup : (relations.map Relation.id).Nodup
  bounds : ∀ relation ∈ relations, first ≤ relation.id ∧ relation.id < first + count

theorem Spans.append {first count more : Nat} {relations others : List Relation}
    (front : Spans first count relations) (back : Spans (first + count) more others) :
    Spans first (count + more) (relations ++ others) := by
  refine ⟨?_, fun relation mem => ?_⟩
  · rw [List.map_append, List.nodup_append]
    refine ⟨front.nodup, back.nodup, fun m inFront n inBack => ?_⟩
    obtain ⟨relation, mem, rfl⟩ := List.mem_map.1 inFront
    obtain ⟨other, mem', rfl⟩ := List.mem_map.1 inBack
    have below := (front.bounds relation mem).2
    have above := (back.bounds other mem').1
    omega
  · rcases List.mem_append.1 mem with mem | mem
    · have inside := front.bounds relation mem
      omega
    · have inside := back.bounds relation mem
      omega

theorem Spans.of_subperm {first count : Nat} {relations others : List Relation}
    (spans : Spans first count relations) (part : others.Subperm relations) :
    Spans first count others := by
  obtain ⟨middle, perm, sublist⟩ := part
  refine ⟨?_, fun relation mem => spans.bounds relation (sublist.subset (perm.mem_iff.2 mem))⟩
  rw [← (perm.map Relation.id).nodup_iff]
  exact spans.nodup.sublist (sublist.map Relation.id)

theorem number_spans (first : Nat) (relations : List Draft.Relation) :
    Spans first relations.length (number first relations) := by
  refine ⟨?_, fun relation mem => ?_⟩
  · exact List.pairwise_map.2 ((number_pairwise first relations).imp Nat.ne_of_lt)
  · obtain ⟨k, written, at_k, rfl⟩ := (mem_number_iff _ _ _).1 mem
    have bound := (List.getElem?_eq_some_iff.1 at_k).1
    show first ≤ first + k ∧ first + k < first + relations.length
    omega

/-- Sorting and dropping classifiers brings no relation in. -/
theorem relationsOfClassifiers_subperm (classifiers : List Classifier) :
    (relationsOfClassifiers (firstBy Classifier.name (richestFirst classifiers))).Subperm
      (relationsOfClassifiers classifiers) := by
  simp only [relationsOfClassifiers_eq]
  have kept := (firstBy_sublist Classifier.name (richestFirst classifiers)).flatMap
    Classifier.relationsWithin
  have sorted := (List.mergeSort_perm classifiers
    fun first second => second.compartments.length ≤ first.compartments.length).flatMap_right
    Classifier.relationsWithin
  exact kept.subperm.trans sorted.subperm

mutual

theorem Compartment.ofDraft_spans (first : Nat) : (draft : Draft.Compartment) →
    Spans first draft.relationCount (Compartment.ofDraft first draft).relationsWithin
  | ⟨lines, classifiers, relations⟩ => by
      rw [Draft.Compartment.relationCount, Compartment.ofDraft, Compartment.relationsWithin]
      have own := (number_spans first relations).of_subperm
        (firstBy_sublist Relation.ends _).subperm
      have inner := classifiersOfDraft_spans (first + relations.length) classifiers
      exact own.append (inner.of_subperm (relationsOfClassifiers_subperm _))

theorem classifiersOfDraft_spans (first : Nat) : (classifiers : List Draft.Classifier) →
    Spans first (Draft.countClassifiers classifiers)
      (relationsOfClassifiers (classifiersOfDraft first classifiers))
  | [] => ⟨List.nodup_nil, by simp [classifiersOfDraft, relationsOfClassifiers]⟩
  | classifier :: rest => by
      rw [Draft.countClassifiers, classifiersOfDraft, relationsOfClassifiers]
      exact (Classifier.ofDraft_spans first classifier).append
        (classifiersOfDraft_spans (first + classifier.relationCount) rest)

theorem Classifier.ofDraft_spans (first : Nat) : (classifier : Draft.Classifier) →
    Spans first classifier.relationCount (Classifier.ofDraft first classifier).relationsWithin
  | ⟨kind, name, compartments⟩ => by
      rw [Draft.Classifier.relationCount, Classifier.ofDraft, Classifier.relationsWithin]
      exact compartmentsOfDraft_spans first compartments

theorem compartmentsOfDraft_spans (first : Nat) : (compartments : List Draft.Compartment) →
    Spans first (Draft.countCompartments compartments)
      (relationsOfCompartments (compartmentsOfDraft first compartments))
  | [] => ⟨List.nodup_nil, by simp [compartmentsOfDraft, relationsOfCompartments]⟩
  | compartment :: rest => by
      rw [Draft.countCompartments, compartmentsOfDraft, relationsOfCompartments]
      exact (Compartment.ofDraft_spans first compartment).append
        (compartmentsOfDraft_spans (first + compartment.relationCount) rest)

end

/-- The relations of an image, told by their numbers in the whole draft. -/
theorem Image.mem_relations_iff {root draft : Draft.Compartment} {final : Compartment}
    {path : List Draft.Step} (image : Image root (ofDraft root) path draft final)
    (relation : Relation) :
    relation ∈ final.relations ↔ ∃ written,
      root.preorder[relation.id]? = some (path, written) ∧
      relation = Relation.ofDraft relation.id written ∧
      ∀ n other, root.preorder[n]? = some (path, other) → other.ends = written.ends →
        relation.id ≤ n := by
  obtain ⟨offset, same, numbers⟩ := image.eq_ofDraft (ofDraft_eq root)
  rw [same, mem_ofDraft_relations, Nat.zero_add]
  constructor
  · rintro ⟨k, written, at_k, rfl, earliest⟩
    refine ⟨written, (numbers _ _).2 ⟨k, rfl, at_k⟩, rfl, fun n other at_n sameEnds => ?_⟩
    obtain ⟨j, rfl, at_j⟩ := (numbers n other).1 at_n
    exact Nat.add_le_add_left (earliest j other at_j sameEnds) offset
  · rintro ⟨written, at_id, reads, earliest⟩
    obtain ⟨k, id, at_k⟩ := (numbers _ _).1 at_id
    refine ⟨k, written, at_k, by rw [reads, id], fun j other at_j sameEnds => ?_⟩
    have later := earliest (offset + j) other ((numbers _ _).2 ⟨j, rfl, at_j⟩) sameEnds
    omega

theorem Image.relations_pairwise {root draft : Draft.Compartment} {final : Compartment}
    {path : List Draft.Step} (image : Image root (ofDraft root) path draft final) :
    final.relations.Pairwise fun a b => a.id < b.id := by
  obtain ⟨offset, same, -⟩ := image.eq_ofDraft (ofDraft_eq root)
  rw [same, ofDraft_relations]
  exact (number_pairwise _ _).sublist (firstBy_sublist _ _)

/-- A number leads down the draft to the compartment that the relation stands in. -/
theorem exists_of_preorder {root : Draft.Compartment} {n : Nat} {path : List Draft.Step}
    {relation : Draft.Relation} (at_n : root.preorder[n]? = some (path, relation)) :
    ∃ draft, root.follow? path = some draft := by
  induction path generalizing root n with
  | nil => exact ⟨root, rfl⟩
  | cons step path ih =>
      obtain ⟨node, part, m, at_i, at_j, at_m, -⟩ :=
        (root.preorder_below n step path relation).1 at_n
      rw [Draft.Compartment.follow?_cons at_i at_j]
      exact ih at_m

/-- A number is missing only where its relation is not the first of its ends or stands in a
classifier that is discarded. -/
theorem missing_number {root : Draft.Compartment} {n : Nat} {path : List Draft.Step}
    {written : Draft.Relation} (at_n : root.preorder[n]? = some (path, written))
    (missing : n ∉ (ofDraft root).relationsWithin.map Relation.id) :
    (∃ m other, m < n ∧ root.preorder[m]? = some (path, other) ∧ other.ends = written.ends) ∨
      Discarded root path := by
  obtain ⟨draft, leads⟩ := exists_of_preorder at_n
  rcases discarded_or_image 0 leads with gone | ⟨final, image⟩
  · exact .inr gone
  · left
    apply Classical.byContradiction
    intro none
    apply missing
    have kept : Relation.ofDraft n written ∈ final.relations := by
      refine (image.mem_relations_iff _).2 ⟨written, at_n, rfl, fun m other at_m sameEnds => ?_⟩
      apply Nat.le_of_not_lt
      intro earlier
      exact none ⟨m, other, earlier, at_m, sameEnds⟩
    exact List.mem_map.2 ⟨_, image.within.mem_relationsWithin kept, rfl⟩

/-- The relations of a final form. Every compartment in it is the image of one that was written; in
every image the relations are the first of each pair of ends, by ascending number; no number stands
twice in the tree; and a number is missing only for one of two reasons. -/
theorem ofDraft_relations_numbered (root : Draft.Compartment) :
    (∀ final, (ofDraft root).Within final →
      ∃ path draft, Image root (ofDraft root) path draft final) ∧
    (∀ path draft final, Image root (ofDraft root) path draft final →
      (final.relations.Pairwise fun a b => a.id < b.id) ∧
      ∀ relation, relation ∈ final.relations ↔ ∃ written,
        root.preorder[relation.id]? = some (path, written) ∧
        relation = Relation.ofDraft relation.id written ∧
        ∀ n other, root.preorder[n]? = some (path, other) → other.ends = written.ends →
          relation.id ≤ n) ∧
    ((ofDraft root).relationsWithin.map Relation.id).Nodup ∧
    ∀ n path written, root.preorder[n]? = some (path, written) →
      n ∉ (ofDraft root).relationsWithin.map Relation.id →
      (∃ m other, m < n ∧ root.preorder[m]? = some (path, other) ∧ other.ends = written.ends) ∨
        Discarded root path := by
  refine ⟨fun final within => within.exists_image (ofDraft_eq root),
    fun path draft final image => ?_, (Compartment.ofDraft_spans 0 root).nodup,
    fun n path written at_n missing => ?_⟩
  · exact ⟨image.relations_pairwise, image.mem_relations_iff⟩
  · exact missing_number at_n missing

end ClassDiagram.Tree
