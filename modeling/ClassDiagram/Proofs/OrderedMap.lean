import ClassDiagram.OrderedMap

set_option autoImplicit false

namespace ClassDiagram

section FirstOccurrences

variable {α : Type} [DecidableEq α]

theorem eraseDups_of_nodup {l : List α} (nodup : l.Nodup) : l.eraseDups = l := by
  induction l with
  | nil => rfl
  | cons a l ih =>
      obtain ⟨absent, rest⟩ := List.nodup_cons.1 nodup
      have kept : l.filter (fun b => !b == a) = l := by
        refine List.filter_eq_self.2 fun b mem => ?_
        have other : b ≠ a := fun same => absent (same ▸ mem)
        simp [other]
      rw [List.eraseDups_cons, kept, ih rest]

theorem nodup_eraseDups (l : List α) : l.eraseDups.Nodup := by
  match l with
  | [] => exact List.nodup_nil
  | a :: l =>
      have shorter := List.length_filter_le (fun b => !b == a) l
      rw [List.eraseDups_cons, List.nodup_cons]
      exact ⟨by simp, nodup_eraseDups (l.filter _)⟩
termination_by l.length

theorem eraseDups_filter (p : α → Bool) (l : List α) :
    (l.filter p).eraseDups = l.eraseDups.filter p := by
  match l with
  | [] => rfl
  | a :: l =>
      have shorter := List.length_filter_le (fun b => !b == a) l
      rw [List.eraseDups_cons]
      cases holds : p a with
      | true =>
          rw [List.filter_cons_of_pos holds, List.filter_cons_of_pos holds, List.eraseDups_cons,
            ← eraseDups_filter p (l.filter _), List.filter_filter, List.filter_filter]
          simp only [Bool.and_comm]
      | false =>
          have fails : ¬ p a = true := by simp [holds]
          rw [List.filter_cons_of_neg fails, List.filter_cons_of_neg fails,
            ← eraseDups_filter p (l.filter _), List.filter_filter]
          congr 1
          refine List.filter_congr fun b _ => ?_
          by_cases same : b = a
          · simp [same, holds]
          · simp [same]
termination_by l.length

/-- Dropping repetitions at the end first changes nothing. -/
theorem eraseDups_append_eraseDups (front back : List α) :
    (front ++ back.eraseDups).eraseDups = (front ++ back).eraseDups := by
  rw [List.eraseDups_append, List.eraseDups_append, List.removeAll, List.removeAll,
    eraseDups_filter, eraseDups_filter, eraseDups_of_nodup (nodup_eraseDups back)]

end FirstOccurrences

namespace OrderedMap

variable {α : Type}

def last? (key : String) (entries : List (String × α)) : Option α := find? key entries.reverse

theorem find?_append (key : String) (first second : List (String × α)) :
    find? key (first ++ second) = (find? key first).or (find? key second) := by
  induction first with
  | nil => rfl
  | cons entry rest ih =>
      by_cases h : entry.1 = key
      · simp [find?, h]
      · simp [find?, h, ih]

theorem find?_of_mem {entries : List (String × α)} (nodup : (entries.map Prod.fst).Nodup)
    {entry : String × α} (mem : entry ∈ entries) : find? entry.1 entries = some entry.2 := by
  induction entries with
  | nil => cases mem
  | cons first rest ih =>
      obtain ⟨absent, nodup⟩ := List.nodup_cons.1 nodup
      rcases List.mem_cons.1 mem with rfl | mem
      · rw [find?, if_pos rfl]
      · have other : first.1 ≠ entry.1 := fun same =>
          absent (same ▸ List.mem_map_of_mem (f := Prod.fst) mem)
        rw [find?, if_neg other, ih nodup mem]

theorem last?_cons (key : String) (entry : String × α) (rest : List (String × α)) :
    last? key (entry :: rest) =
      (last? key rest).or (if entry.1 = key then some entry.2 else none) := by
  rw [last?, List.reverse_cons, find?_append]
  rfl

theorem last?_append (key : String) (first second : List (String × α)) :
    last? key (first ++ second) = (last? key second).or (last? key first) := by
  rw [last?, List.reverse_append, find?_append]
  rfl

theorem last?_eq_getLast? (key : String) (entries : List (String × α)) :
    last? key entries = (entries.filter fun entry => entry.1 == key).getLast?.map Prod.snd := by
  induction entries with
  | nil => rfl
  | cons entry rest ih =>
      rw [last?_cons, ih, List.filter_cons]
      by_cases here : entry.1 = key
      · rw [if_pos here, if_pos (beq_iff_eq.2 here), List.getLast?_cons]
        cases (rest.filter fun entry => entry.1 == key).getLast? <;> rfl
      · rw [if_neg here, if_neg (by simpa using here), Option.or_none]

/-- The last insertion of a key counts. -/
theorem get?_insertAll (map : OrderedMap α) (entries : List (String × α)) (key : String) :
    (map.insertAll entries).get? key = (last? key entries).or (map.get? key) := by
  induction entries generalizing map with
  | nil => rfl
  | cons entry rest ih =>
      rw [insertAll_cons, ih, get?_insert, last?_cons, Option.or_assoc]
      by_cases h : entry.1 = key <;> simp [h]

/-- In a map each key has one entry, be it the first or the last. -/
theorem last?_entries (map : OrderedMap α) (key : String) :
    last? key map.entries = map.get? key := by
  obtain ⟨entries, nodup⟩ := map
  show last? key entries = find? key entries
  induction entries with
  | nil => rfl
  | cons entry rest ih =>
      obtain ⟨absent, nodup⟩ := List.nodup_cons.1 nodup
      rw [last?_cons, ih nodup, find?]
      split
      · next here =>
          rw [here, ← find?_isSome_iff, Option.not_isSome_iff_eq_none] at absent
          rw [absent]
          rfl
      · rw [Option.or_none]

/-- The keys stand in the order in which they first occur. -/
theorem keys_insertAll (map : OrderedMap α) (entries : List (String × α)) :
    (map.insertAll entries).keys = (map.keys ++ entries.map Prod.fst).eraseDups := by
  induction entries generalizing map with
  | nil =>
      rw [List.map_nil, List.append_nil, eraseDups_of_nodup map.keys_nodup]
      rfl
  | cons entry rest ih =>
      rw [insertAll_cons, ih, keys_insert, List.map_cons]
      split
      · next present =>
          rw [List.eraseDups_append, List.eraseDups_append, List.cons_removeAll]
          simp [present]
      · rw [List.append_assoc, List.singleton_append]

theorem get?_ofList (entries : List (String × α)) (key : String) :
    (ofList entries).get? key = last? key entries := by
  rw [ofList, get?_insertAll, get?_empty, Option.or_none]

theorem keys_ofList (entries : List (String × α)) :
    (ofList entries).keys = (entries.map Prod.fst).eraseDups :=
  keys_insertAll empty entries

theorem get?_merge_ofList (map : OrderedMap α) (entries : List (String × α)) (key : String) :
    (map.merge (ofList entries)).get? key = last? key (map.entries ++ entries) := by
  rw [merge, get?_insertAll, last?_entries, get?_ofList, last?_append, last?_entries]

theorem keys_merge_ofList (map : OrderedMap α) (entries : List (String × α)) :
    (map.merge (ofList entries)).keys =
      ((map.entries ++ entries).map Prod.fst).eraseDups := by
  rw [merge, keys_insertAll, ← keys, keys_ofList, eraseDups_append_eraseDups, List.map_append,
    ← keys]

/-- An insertion is not seen among the keys without the inserted one. -/
theorem filter_put {p : String → Bool} {key : String} (out : p key = false) (value : α)
    (entries : List (String × α)) :
    (put key value entries).filter (fun entry => p entry.1) =
      entries.filter fun entry => p entry.1 := by
  induction entries with
  | nil => simp [put, out]
  | cons entry rest ih =>
      rw [put]
      split
      · next here => simp [here, out]
      · rw [List.filter_cons, List.filter_cons, ih]

theorem put_filter {p : String → Bool} {key : String} (inside : p key = true) (value : α)
    (entries : List (String × α)) :
    (put key value entries).filter (fun entry => p entry.1) =
      put key value (entries.filter fun entry => p entry.1) := by
  induction entries with
  | nil => simp [put, inside]
  | cons entry rest ih =>
      rw [put, List.filter_cons]
      split
      · next here => simp [here, inside, put]
      · next other =>
          rw [List.filter_cons, ih]
          split
          · rw [put, if_neg other]
          · rfl

def without (map : OrderedMap α) (key : String) : OrderedMap α where
  entries := map.entries.filter fun entry => entry.1 != key
  nodup := map.nodup.sublist (List.filter_sublist.map Prod.fst)

theorem get?_without_of_ne (map : OrderedMap α) {key other : String} (different : other ≠ key) :
    (map.without key).get? other = map.get? other := by
  obtain ⟨entries, nodup⟩ := map
  show find? other (entries.filter fun entry => entry.1 != key) = find? other entries
  clear nodup
  induction entries with
  | nil => rfl
  | cons entry rest ih =>
      rw [List.filter_cons]
      split
      · rw [find?, find?, ih]
      · next out =>
          have here : entry.1 = key := by simpa using out
          have apart : ¬ entry.1 = other := fun same => different (same.symm.trans here)
          rw [find?, if_neg apart, ih]

theorem insertAll_without (map : OrderedMap α) (entries : List (String × α)) (key : String) :
    (map.insertAll entries).without key =
      (map.without key).insertAll (entries.filter fun entry => entry.1 != key) := by
  induction entries generalizing map with
  | nil => rfl
  | cons entry rest ih =>
      rw [insertAll_cons, ih, List.filter_cons]
      cases kept : entry.1 != key with
      | true =>
          have same : (map.insert entry.1 entry.2).without key =
              (map.without key).insert entry.1 entry.2 :=
            OrderedMap.ext (put_filter (p := fun k => k != key) kept entry.2 map.entries)
          rw [if_pos rfl, insertAll_cons, same]
      | false =>
          have same : (map.insert entry.1 entry.2).without key = map.without key :=
            OrderedMap.ext (filter_put (p := fun k => k != key) kept entry.2 map.entries)
          rw [if_neg Bool.false_ne_true, same]

end OrderedMap
end ClassDiagram
