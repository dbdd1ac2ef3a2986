import ClassDiagram.Proofs.Settings.Styles

set_option autoImplicit false

namespace ClassDiagram.Settings

def isStyleKey (key : String) : Bool := key.toList.head? == some '.'

/-- What stands behind the point of a key, in upper case. -/
def classOf (key : String) : String := String.ofList (Text.upper key.toList.tail)

theorem styledClass?_eq (key : String) :
    styledClass? key = if isStyleKey key then some (classOf key) else none := by
  rw [styledClass?, isStyleKey, classOf]
  split
  · next name shape => simp [shape]
  · next other =>
      rw [if_neg]
      intro point
      obtain ⟨name, shape⟩ := List.head?_eq_some_iff.1 (beq_iff_eq.1 point)
      exact other name shape

theorem isStyleOf_eq (name key : String) :
    isStyleOf name key = (isStyleKey key && classOf key == name) := by
  rw [isStyleOf, styledClass?_eq]
  cases isStyleKey key <;> rfl

/-- The classes that directives define, one for each directive. -/
def definedClasses (directives : Directives) : List String :=
  (directives.keys.filter isStyleKey).map classOf

theorem definedStyles_eq (entries : List (String × String)) :
    definedStyles entries =
      (entries.filter fun entry => isStyleKey entry.1).map
        fun entry => (classOf entry.1, Style.ofText entry.2) := by
  induction entries with
  | nil => rfl
  | cons entry rest ih =>
      rw [definedStyles, styledClass?_eq, List.filter_cons]
      cases isStyleKey entry.1 with
      | true => exact congrArg (_ :: ·) ih
      | false => exact ih

theorem definedStyles_keys (entries : List (String × String)) :
    (definedStyles entries).map Prod.fst =
      ((entries.map Prod.fst).filter isStyleKey).map classOf := by
  rw [definedStyles_eq, List.filter_map, List.map_map, List.map_map]
  rfl

theorem stylesOf_keys (directives : Directives) (base : StyleTable) :
    (stylesOf directives base).keys =
      base.keys ++ ((definedClasses directives).filter fun name => name ∉ base.keys).eraseDups := by
  have others : (definedClasses directives).removeAll base.keys =
      (definedClasses directives).filter fun name => name ∉ base.keys := by
    simp [List.removeAll]
  rw [stylesOf, OrderedMap.keys_insertAll, definedStyles_keys, List.eraseDups_append,
    eraseDups_of_nodup base.keys_nodup, ← others]
  rfl

theorem stylesOf_get?_last (directives : Directives) (base : StyleTable) (name : String) :
    (stylesOf directives base).get? name =
      ((directives.entries.filter fun entry =>
          isStyleKey entry.1 && classOf entry.1 == name).getLast?.map
        fun entry => Style.ofText entry.2).or (base.get? name) := by
  rw [stylesOf, OrderedMap.get?_insertAll, last?_definedStyles]
  simp only [isStyleOf_eq]

/-- The styles of a diagram are a base table with the directives laid over it: nothing of the base
table is lost or moved, other classes stand behind it, and the last directive of a class counts. -/
theorem ofDirectives_styles (directives : Directives) (base : StyleTable) :
    let table := (ofDirectives directives base).styles
    base.keys <+: table.keys ∧
      table.keys = base.keys ++
        ((definedClasses directives).filter fun name => name ∉ base.keys).eraseDups ∧
      ∀ name, table.get? name =
        ((directives.entries.filter fun entry =>
            isStyleKey entry.1 && classOf entry.1 == name).getLast?.map
          fun entry => Style.ofText entry.2).or (base.get? name) := by
  have keys := stylesOf_keys directives base
  have kept : base.keys <+: (stylesOf directives base).keys := by
    rw [keys]
    exact List.prefix_append _ _
  exact ⟨kept, keys, stylesOf_get?_last directives base⟩

/-- Two spellings make one class, which stands where the first of them occurs. -/
example :
    (stylesOf ⟨[(".b", "bold"), (".Start", ""), (".a", ""), (".B", "italic")], by decide⟩
      .builtin).keys = StyleTable.builtin.keys ++ ["B", "A"] := by decide +kernel

end ClassDiagram.Settings
