import ClassDiagram.Number.Double
set_option autoImplicit false

/-!
A table remembers how it came about, because that decides whether later lines may add to it.
-/
namespace ClassDiagram.Toml

inductive Origin where
  /-- Named in a header of its own. -/
  | header
  /-- Named only on the way to a table in a header. -/
  | path
  /-- Named on the way to a value by a dotted key. -/
  | dotted
  /-- Written as a value between braces. -/
  | inline
deriving DecidableEq, Repr

/-- A value. Dates and times are kept as they are written. A number that has the form of one and
yet stands for none is kept without a value. -/
inductive Value where
  | text (value : String)
  | bool (value : Bool)
  | integer (value : Option Int)
  | float (value : Option Double)
  | moment (value : String)
  | array (items : List Value)
  | table (origin : Origin) (entries : List (String × Value))
  | tables (items : List (List (String × Value)))

abbrev Entries := List (String × Value)

namespace Value

mutual

/-- Whether every number in a value has a value. -/
def isSound : Value → Bool
  | .integer value => value.isSome
  | .float value => value.isSome
  | .array items => itemsSound items
  | .table _ entries => entriesSound entries
  | .tables items => tablesSound items
  | _ => true

def itemsSound : List Value → Bool
  | [] => true
  | item :: rest => item.isSound && itemsSound rest

def entriesSound : List (String × Value) → Bool
  | [] => true
  | entry :: rest => entry.2.isSound && entriesSound rest

def tablesSound : List (List (String × Value)) → Bool
  | [] => true
  | entries :: rest => entriesSound entries && tablesSound rest

end

end Value

namespace Entries

def replace (key : String) (value : Value) (entries : Entries) : Entries :=
  entries.map fun entry => if entry.1 = key then (key, value) else entry

/-- Puts in a value under a key that must be new. -/
def add? (key : String) (value : Value) (entries : Entries) : Option Entries :=
  match entries.lookup key with
  | none => some (entries ++ [(key, value)])
  | some _ => none

/-- Changes the table at the end of a path, making the tables on the way that are missing. An array
of tables stands for its last table. No path leads into a table between braces. A path of a dotted
key does not lead into a table that has a header of its own, nor does it end at an array of tables;
a table on it that was named only on the way to another counts as named by a dotted key from then
on. -/
def modify? (dotted : Bool) : List String → (Entries → Option Entries) → Entries → Option Entries
  | [], change, entries => change entries
  | key :: path, change, entries =>
      match entries.lookup key with
      | none =>
          (modify? dotted path change []).map fun inner =>
            entries ++ [(key, .table (if dotted then .dotted else .path) inner)]
      | some (.table origin inner) =>
          if origin = .inline || (dotted && origin = .header) then none
          else (modify? dotted path change inner).map fun inner =>
            replace key (.table (if dotted then .dotted else origin) inner) entries
      | some (.tables items) =>
          if dotted && path.isEmpty then none
          else
            match items.getLast? with
            | none => none
            | some last =>
                (modify? dotted path change last).map fun last =>
                  replace key (.tables (items.dropLast ++ [last])) entries
      | some _ => none

def assign? (keys : List String) (value : Value) (entries : Entries) : Option Entries :=
  match keys.getLast? with
  | none => none
  | some last => modify? true keys.dropLast (add? last value) entries

/-- Makes the table that a header names. A table that was named only on the way to another is
completed; any other table of the name is a mistake. -/
def openTable? (name : String) (entries : Entries) : Option Entries :=
  match entries.lookup name with
  | none => some (entries ++ [(name, .table .header [])])
  | some (.table .path inner) => some (replace name (.table .header inner) entries)
  | some _ => none

/-- Makes one more table in the array of tables that a header names. -/
def openNext? (name : String) (entries : Entries) : Option Entries :=
  match entries.lookup name with
  | none => some (entries ++ [(name, .tables [[]])])
  | some (.tables items) => some (replace name (.tables (items ++ [[]])) entries)
  | some _ => none

end Entries
end ClassDiagram.Toml
