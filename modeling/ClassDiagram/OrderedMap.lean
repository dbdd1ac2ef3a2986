set_option autoImplicit false

namespace ClassDiagram

/-- Entries in order, no key twice. -/
structure OrderedMap (α : Type) where
  entries : List (String × α)
  nodup : (entries.map Prod.fst).Nodup
deriving DecidableEq

namespace OrderedMap

variable {α : Type}

/-- Replaces the value of `key` where it stands, or puts a new entry at the end. -/
def put (key : String) (value : α) : List (String × α) → List (String × α)
  | [] => [(key, value)]
  | entry :: rest =>
      if entry.1 = key then (key, value) :: rest else entry :: put key value rest

def find? (key : String) : List (String × α) → Option α
  | [] => none
  | entry :: rest => if entry.1 = key then some entry.2 else find? key rest

theorem put_keys (key : String) (value : α) (entries : List (String × α)) :
    (put key value entries).map Prod.fst =
      if key ∈ entries.map Prod.fst then entries.map Prod.fst
      else entries.map Prod.fst ++ [key] := by
  induction entries with
  | nil => simp [put]
  | cons entry rest ih =>
      by_cases h : entry.1 = key
      · simp [put, h]
      · have h' : ¬ key = entry.1 := fun e => h e.symm
        simp only [put, if_neg h, List.map_cons, ih, List.mem_cons, h', false_or]
        split <;> simp

theorem put_keys_nodup (key : String) (value : α) {entries : List (String × α)}
    (h : (entries.map Prod.fst).Nodup) : ((put key value entries).map Prod.fst).Nodup := by
  rw [put_keys]
  split
  · exact h
  · next hk =>
      rw [List.nodup_append]
      exact ⟨h, by simp, by intro a ha b hb; simp only [List.mem_singleton] at hb; grind⟩

theorem find?_put (key other : String) (value : α) (entries : List (String × α)) :
    find? other (put key value entries) =
      if key = other then some value else find? other entries := by
  induction entries with
  | nil => simp [put, find?]
  | cons entry rest ih =>
      by_cases h : entry.1 = key
      · by_cases ho : key = other <;> simp [put, find?, h, ho]
      · by_cases he : entry.1 = other
        · subst he
          have : ¬ key = entry.1 := fun e => h e.symm
          simp [put, find?, h, this]
        · simp [put, find?, h, he, ih]

def empty : OrderedMap α := ⟨[], by simp⟩

instance : EmptyCollection (OrderedMap α) := ⟨empty⟩
instance : Inhabited (OrderedMap α) := ⟨empty⟩

/-- The map in which `key` has the value `value` and all else is as before. -/
def insert (map : OrderedMap α) (key : String) (value : α) : OrderedMap α :=
  ⟨put key value map.entries, put_keys_nodup key value map.nodup⟩

def get? (map : OrderedMap α) (key : String) : Option α := find? key map.entries

def keys (map : OrderedMap α) : List String := map.entries.map Prod.fst

def insertAll (map : OrderedMap α) (entries : List (String × α)) : OrderedMap α :=
  entries.foldl (fun m entry => m.insert entry.1 entry.2) map

/-- The map that arises by inserting entries one after the other. -/
def ofList (entries : List (String × α)) : OrderedMap α := empty.insertAll entries

/-- All of `first`, then the entries of `second` inserted in order. -/
def merge (first second : OrderedMap α) : OrderedMap α := first.insertAll second.entries

@[ext] theorem ext {first second : OrderedMap α} (h : first.entries = second.entries) :
    first = second := by
  cases first; cases second; cases h; rfl

@[simp] theorem get?_empty (key : String) : (empty : OrderedMap α).get? key = none := rfl

theorem get?_insert (map : OrderedMap α) (key other : String) (value : α) :
    (map.insert key value).get? other = if key = other then some value else map.get? other :=
  find?_put key other value map.entries

theorem keys_insert (map : OrderedMap α) (key : String) (value : α) :
    (map.insert key value).keys = if key ∈ map.keys then map.keys else map.keys ++ [key] :=
  put_keys key value map.entries

@[simp] theorem insertAll_cons (map : OrderedMap α) (entry : String × α)
    (rest : List (String × α)) :
    map.insertAll (entry :: rest) = (map.insert entry.1 entry.2).insertAll rest := rfl

theorem keys_nodup (map : OrderedMap α) : map.keys.Nodup := map.nodup

theorem find?_isSome_iff (key : String) (entries : List (String × α)) :
    (find? key entries).isSome = true ↔ key ∈ entries.map Prod.fst := by
  induction entries with
  | nil => simp [find?]
  | cons entry rest ih =>
      by_cases h : entry.1 = key
      · simp [find?, h]
      · have h' : ¬ key = entry.1 := fun e => h e.symm
        simp only [find?, if_neg h, ih, List.map_cons, List.mem_cons, h', false_or]

end OrderedMap
end ClassDiagram
