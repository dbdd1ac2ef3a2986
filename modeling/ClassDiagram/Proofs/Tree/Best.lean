import ClassDiagram.Tree.OfDraft
import Mathlib.Data.List.Nodup

set_option autoImplicit false

namespace ClassDiagram.Tree

section firstBy

variable {α κ : Type} [DecidableEq κ] (key : α → κ)

theorem firstBy_map {β : Type} (f : β → α) (items : List β) :
    firstBy key (items.map f) = (firstBy (fun item => key (f item)) items).map f := by
  induction items with
  | nil => rfl
  | cons item rest ih =>
      simp only [List.map_cons, firstBy, ih, List.filter_map]
      rfl

/-- In a list that is ordered by `R`, the first item of each key is the one that comes before all
others of that key. -/
theorem mem_firstBy_iff {R : α → α → Prop} (asymm : ∀ a b, R a b → ¬ R b a) {items : List α}
    (ordered : items.Pairwise R) (item : α) :
    item ∈ firstBy key items ↔
      item ∈ items ∧ ∀ other ∈ items, key other = key item → other = item ∨ R item other := by
  induction items with
  | nil => simp [firstBy]
  | cons first rest ih =>
      obtain ⟨before, ordered⟩ := List.pairwise_cons.1 ordered
      rw [firstBy, List.mem_cons, List.mem_filter, ih ordered, List.mem_cons]
      constructor
      · rintro (rfl | ⟨⟨inside, best⟩, different⟩)
        · refine ⟨.inl rfl, fun other found _ => ?_⟩
          rcases List.mem_cons.1 found with rfl | found
          · exact .inl rfl
          · exact .inr (before other found)
        · refine ⟨.inr inside, fun other found same => ?_⟩
          rcases List.mem_cons.1 found with rfl | found
          · exact absurd same.symm (by simpa using different)
          · exact best other found same
      · rintro ⟨rfl | inside, best⟩
        · exact .inl rfl
        · by_cases same : key first = key item
          · rcases best first List.mem_cons_self same with rfl | later
            · exact .inl rfl
            · exact absurd (before item inside) (asymm item first later)
          · refine .inr ⟨⟨inside, fun other found => best other (List.mem_cons_of_mem _ found)⟩, ?_⟩
            simpa using fun h => same h.symm

theorem firstBy_eq_self {items : List α} (once : (items.map key).Nodup) :
    firstBy key items = items := by
  induction items with
  | nil => rfl
  | cons item rest ih =>
      rw [List.map_cons, List.nodup_cons] at once
      rw [firstBy, ih once.2, List.filter_eq_self.2]
      intro other mem
      rw [decide_eq_true_iff]
      exact fun same => once.1 (same ▸ List.mem_map_of_mem mem)

end firstBy

section best

variable {α κ : Type} [DecidableEq κ] (key : α → κ) (size : α → Nat)

/-- Of two items with their places, the first is bigger, or it is as big and stands earlier. -/
def Ahead (first second : α × Nat) : Prop :=
  size second.1 < size first.1 ∨ size second.1 = size first.1 ∧ first.2 < second.2

/-- The item stands at place `i`; no item with its key is bigger, and none that is as big stands
earlier. -/
def IsBest (items : List α) (item : α) (i : Nat) : Prop :=
  items[i]? = some item ∧ ∀ other j, items[j]? = some other → key other = key item →
    size other < size item ∨ size other = size item ∧ i ≤ j

theorem Ahead.asymm {first second : α × Nat} (ahead : Ahead size first second) :
    ¬ Ahead size second first := by
  simp only [Ahead] at ahead ⊢
  omega

/-- Sorting items with their places leaves none level with another. -/
theorem pairwise_ahead (items : List α) :
    (items.zipIdx.mergeSort (List.zipIdxLE fun a b => decide (size b ≤ size a))).Pairwise
      (Ahead size) := by
  have total : ∀ a b : α, decide (size b ≤ size a) || decide (size a ≤ size b) := by
    intro a b
    simpa using Nat.le_total (size b) (size a)
  have trans : ∀ a b c : α, decide (size b ≤ size a) → decide (size c ≤ size b) →
      decide (size c ≤ size a) := by
    intro a b c ab bc
    simp only [decide_eq_true_eq] at ab bc ⊢
    omega
  have sorted := List.pairwise_mergeSort (List.zipIdxLE_trans trans)
    (List.zipIdxLE_total total) items.zipIdx
  have places : ((items.zipIdx.mergeSort
      (List.zipIdxLE fun a b => decide (size b ≤ size a))).map Prod.snd).Nodup := by
    rw [((List.mergeSort_perm items.zipIdx _).map Prod.snd).nodup_iff, List.zipIdx_map_snd]
    exact List.nodup_range'
  apply (sorted.and (List.pairwise_map.1 places)).imp
  rintro ⟨a, i⟩ ⟨b, j⟩ ⟨le, apart⟩
  simp only [Ahead, List.zipIdxLE, decide_eq_true_eq] at le apart ⊢
  split at le
  · split at le
    · simp only [decide_eq_true_eq] at le
      omega
    · omega
  · cases le

/-- What sorting by falling size and keeping the first of each key leaves. -/
theorem exists_best (items : List α) :
    ∃ best : List (α × Nat), best.Pairwise (Ahead size) ∧
      (∀ item i, (item, i) ∈ best ↔ IsBest key size items item i) ∧
      firstBy key (items.mergeSort fun a b => decide (size b ≤ size a)) = best.map Prod.fst := by
  have ordered := pairwise_ahead size items
  refine ⟨firstBy (fun item => key item.1) (items.zipIdx.mergeSort
    (List.zipIdxLE fun a b => decide (size b ≤ size a))), ?_, ?_, ?_⟩
  · exact ordered.sublist (firstBy_sublist _ _)
  · intro item i
    rw [mem_firstBy_iff (fun item => key item.1) (fun a b => Ahead.asymm size) ordered]
    simp only [List.mem_mergeSort, List.mem_zipIdx_iff_getElem?, Prod.forall, Prod.mk.injEq, IsBest,
      Ahead]
    constructor
    · rintro ⟨inside, best⟩
      refine ⟨inside, fun other j found same => ?_⟩
      rcases best other j found same with ⟨rfl, rfl⟩ | ahead
      · omega
      · omega
    · rintro ⟨inside, best⟩
      refine ⟨inside, fun other j found same => ?_⟩
      rcases best other j found same with bigger | ⟨level, le⟩
      · exact .inr (.inl bigger)
      · rcases Nat.eq_or_lt_of_le le with rfl | earlier
        · rw [inside] at found
          cases found
          exact .inl ⟨rfl, rfl⟩
        · exact .inr (.inr ⟨level, earlier⟩)
  · rw [← List.mergeSort_zipIdx, firstBy_map]

/-- The items by falling size, of each key the first. -/
def bestBy (items : List α) : List α :=
  firstBy key (items.mergeSort fun a b => decide (size b ≤ size a))

theorem bestBy_map {β : Type} (f : β → α) (items : List β) :
    bestBy key size (items.map f) =
      (bestBy (fun item => key (f item)) (fun item => size (f item)) items).map f := by
  have sorted : (items.mergeSort fun a b => decide (size (f b) ≤ size (f a))).map f =
      (items.map f).mergeSort fun a b => decide (size b ≤ size a) :=
    List.map_mergeSort fun _ _ _ _ => rfl
  rw [bestBy, bestBy, ← firstBy_map, sorted]

/-- What is left is in order already, and no key stands twice in it. -/
theorem bestBy_bestBy (items : List α) :
    bestBy key size (bestBy key size items) = bestBy key size items := by
  obtain ⟨best, ordered, -, left⟩ := exists_best key size items
  have sorted : (bestBy key size items).Pairwise fun a b => decide (size b ≤ size a) = true := by
    rw [bestBy, left, List.pairwise_map]
    apply ordered.imp
    intro a b ahead
    rw [decide_eq_true_iff]
    exact ahead.elim Nat.le_of_lt fun level => Nat.le_of_eq level.1
  have once : ((bestBy key size items).map key).Nodup := firstBy_keys_nodup key _
  conv => lhs; rw [bestBy]
  rw [List.mergeSort_of_pairwise sorted, firstBy_eq_self key once]

end best

section insert

variable {α κ : Type} (key : α → κ) (size : α → Nat)

/-- Where an item stands after another one has been put in at `place`. -/
def shifted (place i : Nat) : Nat := if i < place then i else i + 1

theorem eq_shifted {place j : Nat} (apart : j ≠ place) : ∃ i, j = shifted place i := by
  by_cases before : j < place
  · exact ⟨j, by rw [shifted, if_pos before]⟩
  · exact ⟨j - 1, by rw [shifted, if_neg (by omega)]; omega⟩

theorem getElem?_insertIdx_shifted (items : List α) (other : α) (place i : Nat) :
    (items.insertIdx place other)[shifted place i]? = items[i]? := by
  rw [List.getElem?_insertIdx, shifted]
  split
  · rfl
  · simp only [Nat.add_sub_cancel]
    split
    · omega
    · split
      · omega
      · rfl

theorem Ahead.nodup {items : List (α × Nat)} (ordered : items.Pairwise (Ahead size)) :
    items.Nodup := by
  apply ordered.imp
  rintro a _ ahead rfl
  exact ahead.asymm size ahead

/-- An item that is put in does not change which items are the best, if one under its key beats
it. -/
theorem isBest_insertIdx_iff {items : List α} {item other : α} {i place : Nat}
    (at_i : items[i]? = some item) (same : key other = key item) (inside : place ≤ items.length)
    (beaten : i < place ∧ size other ≤ size item ∨ place ≤ i ∧ size other < size item)
    (best : α) (j : Nat) :
    IsBest key size (items.insertIdx place other) best j ↔
      ∃ k, j = shifted place k ∧ IsBest key size items best k := by
  have at_place : (items.insertIdx place other)[place]? = some other := by
    simp [List.getElem?_insertIdx, inside]
  have monotone : ∀ k l, shifted place k ≤ shifted place l ↔ k ≤ l := by
    intro k l
    simp only [shifted]
    split <;> split <;> omega
  constructor
  · rintro ⟨at_j, wins⟩
    have apart : j ≠ place := by
      rintro rfl
      rw [at_place] at at_j
      cases at_j
      have compared := wins item (shifted j i) (by rw [getElem?_insertIdx_shifted, at_i]) same.symm
      simp only [shifted] at compared
      split at compared <;> omega
    obtain ⟨k, rfl⟩ := eq_shifted apart
    rw [getElem?_insertIdx_shifted] at at_j
    refine ⟨k, rfl, at_j, fun rival l at_l sameKey => ?_⟩
    have compared := wins rival (shifted place l) (by rw [getElem?_insertIdx_shifted, at_l]) sameKey
    rwa [monotone] at compared
  · rintro ⟨k, rfl, at_k, wins⟩
    refine ⟨by rw [getElem?_insertIdx_shifted, at_k], fun rival l at_l sameKey => ?_⟩
    by_cases new : l = place
    · subst new
      rw [at_place] at at_l
      cases at_l
      have compared := wins item i at_i (same.symm.trans sameKey)
      simp only [shifted]
      split <;> omega
    · obtain ⟨m, rfl⟩ := eq_shifted new
      rw [getElem?_insertIdx_shifted] at at_l
      rw [monotone]
      exact wins rival m at_l sameKey

/-- An item more, of a key under which one that stands in front of it is as big or one behind it is
bigger, leaves no trace. -/
theorem bestBy_insertIdx [DecidableEq κ] {items : List α} {item other : α} {i place : Nat}
    (at_i : items[i]? = some item) (same : key other = key item)
    (beaten : i < place ∧ size other ≤ size item ∨ place ≤ i ∧ size other < size item) :
    bestBy key size (items.insertIdx place other) = bestBy key size items := by
  by_cases inside : place ≤ items.length
  · obtain ⟨before, ordered, chosen, left⟩ := exists_best key size items
    obtain ⟨after, orderedAfter, chosenAfter, leftAfter⟩ :=
      exists_best key size (items.insertIdx place other)
    let move : α × Nat → α × Nat := fun entry => (entry.1, shifted place entry.2)
    have orderedMove : (before.map move).Pairwise (Ahead size) := by
      rw [List.pairwise_map]
      apply ordered.imp
      intro a b ahead
      simp only [Ahead, move, shifted] at ahead ⊢
      split <;> split <;> omega
    have members : ∀ entry, entry ∈ after ↔ entry ∈ before.map move := by
      rintro ⟨a, j⟩
      rw [chosenAfter, isBest_insertIdx_iff key size at_i same inside beaten, List.mem_map]
      constructor
      · rintro ⟨k, rfl, best⟩
        exact ⟨(a, k), (chosen a k).2 best, rfl⟩
      · rintro ⟨⟨b, k⟩, mem, equal⟩
        cases equal
        exact ⟨k, rfl, (chosen b k).1 mem⟩
    have perm := (List.perm_ext_iff_of_nodup (Ahead.nodup size orderedAfter)
      (Ahead.nodup size orderedMove)).2 members
    have equal : after = before.map move := by
      apply perm.eq_of_pairwise _ orderedAfter orderedMove
      intro a b _ _ ahead behind
      exact absurd behind (ahead.asymm size)
    rw [bestBy, bestBy, left, leftAfter, equal, List.map_map]
    rfl
  · rw [List.insertIdx_of_length_lt (Nat.lt_of_not_le inside)]

end insert

end ClassDiagram.Tree
