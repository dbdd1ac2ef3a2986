import ClassDiagram.Diagram
import ClassDiagram.Proofs.OrderedMap

set_option autoImplicit false

/-!
The class of a key is read in upper case, but keys that differ in case are different keys, and a key
stays where it first occurred.
-/
namespace ClassDiagram

namespace Settings

/-- Whether the key defines the style of the class with the given name. -/
def isStyleOf (name key : String) : Bool := styledClass? key == some name

/-- The keys that define the style of a class, in the order in which they first occur. -/
def spellings (name : String) (entries : List (String × String)) : List String :=
  (entries.map Prod.fst).eraseDups.filter (isStyleOf name)

theorem definedStyles_cons (name : String) (entry : String × String)
    (rest : List (String × String)) :
    OrderedMap.last? name (definedStyles (entry :: rest)) =
      (OrderedMap.last? name (definedStyles rest)).or
        (if isStyleOf name entry.1 then some (Style.ofText entry.2) else none) := by
  rw [definedStyles, isStyleOf]
  cases styledClass? entry.1 with
  | none => simp
  | some other => rw [OrderedMap.last?_cons]; simp

/-- Of the directives for a class the last one counts. -/
theorem last?_definedStyles (name : String) (entries : List (String × String)) :
    OrderedMap.last? name (definedStyles entries) =
      (entries.filter fun entry => isStyleOf name entry.1).getLast?.map
        fun entry => Style.ofText entry.2 := by
  induction entries with
  | nil => rfl
  | cons entry rest ih =>
      rw [definedStyles_cons, ih, List.filter_cons]
      cases isStyleOf name entry.1 with
      | true =>
          rw [if_pos rfl, if_pos rfl, List.getLast?_cons]
          cases (rest.filter fun entry => isStyleOf name entry.1).getLast? <;> rfl
      | false => rw [if_neg Bool.false_ne_true, if_neg Bool.false_ne_true, Option.or_none]

/-- Of the keys of a class the last one counts. -/
theorem last?_definedStyles_of_nodup (name : String) {entries : List (String × String)}
    (nodup : (entries.map Prod.fst).Nodup) :
    OrderedMap.last? name (definedStyles entries) =
      ((entries.map Prod.fst).filter (isStyleOf name)).getLast?.bind
        fun newest => (OrderedMap.find? newest entries).map Style.ofText := by
  have keys : (entries.map Prod.fst).filter (isStyleOf name) =
      (entries.filter fun entry => isStyleOf name entry.1).map Prod.fst := List.filter_map
  rw [last?_definedStyles, keys, List.getLast?_map]
  cases last : (entries.filter fun entry => isStyleOf name entry.1).getLast? with
  | none => rfl
  | some entry =>
      have inside := (List.mem_filter.1 (List.mem_of_getLast? last)).1
      simp [OrderedMap.find?_of_mem nodup inside]

theorem stylesOf_get? (directives : Directives) (base : StyleTable) (name : String) :
    (stylesOf directives base).get? name =
      ((directives.keys.filter (isStyleOf name)).getLast?.bind
        fun newest => (directives.get? newest).map Style.ofText).or (base.get? name) := by
  rw [stylesOf, OrderedMap.get?_insertAll, last?_definedStyles_of_nodup name directives.nodup]
  rfl

end Settings

/-- The settings of a diagram come from the directives of its source alone. -/
theorem Compiler.compile_settings {ε : Type} {compiler : Compiler ε} {source : String}
    {diagram : Diagram} (accepted : compiler.compile source = .ok diagram) :
    ∃ entries, Source.directiveEntries (Source.lines source) = .ok entries ∧
      diagram.settings = compiler.settings (.ofList entries) := by
  rw [Compiler.compile, Source.prepare] at accepted
  cases given : Source.directiveEntries (Source.lines source) with
  | error malformed =>
      rw [given] at accepted
      cases accepted
  | ok entries =>
      refine ⟨entries, rfl, ?_⟩
      rw [given] at accepted
      simp only at accepted
      split at accepted
      · cases accepted
        rfl
      · split at accepted
        · cases accepted
        · cases accepted
          rfl

open Settings in
/-- The style of a class is the last value of the spelling that occurs first after all others, in
the standing directives and the document together; without a spelling it is that of the table. -/
theorem compile_style_of_newest_spelling (styles : StyleTable) (defaults : Directives)
    (source : String) {diagram : Diagram}
    (accepted : { Compiler.standard with styles, defaults }.compile source = .ok diagram) :
    ∃ entries, Source.directiveEntries (Source.lines source) = .ok entries ∧
      ∀ name, diagram.settings.styles.get? name =
        ((spellings name (defaults.entries ++ entries)).getLast?.bind fun newest =>
          (OrderedMap.last? newest (defaults.entries ++ entries)).map Style.ofText).or
            (styles.get? name) := by
  obtain ⟨entries, given, settings⟩ := Compiler.compile_settings accepted
  refine ⟨entries, given, fun name => ?_⟩
  have styled : diagram.settings.styles = stylesOf (defaults.merge (.ofList entries)) styles :=
    congrArg Settings.styles settings
  rw [styled, stylesOf_get?, OrderedMap.keys_merge_ofList, ← spellings]
  simp only [OrderedMap.get?_merge_ofList]

/-- A spelling that is used again keeps its place, so the last line of a class need not count. -/
theorem compile_three_lines :
    ∃ diagram,
      Compiler.standard.compile "#.foo:bold\n#.FOO:italic\n#.foo:underline" = .ok diagram ∧
      diagram.settings.styles.get? "FOO" = some (Style.ofText "italic") := by
  have counted : (Compiler.standard.compile
      "#.foo:bold\n#.FOO:italic\n#.foo:underline").toOption.map
        (fun diagram => diagram.settings.styles.get? "FOO") =
      some (some (Style.ofText "italic")) := by decide +kernel
  cases accepted : Compiler.standard.compile
      "#.foo:bold\n#.FOO:italic\n#.foo:underline" with
  | error reason =>
      rw [accepted] at counted
      cases counted
  | ok diagram =>
      rw [accepted] at counted
      exact ⟨diagram, rfl, Option.some.inj counted⟩

open Settings in
theorem compile_style_of_two_spellings :
    ∃ diagram,
      Compiler.standard.compile "#.foo:bold\n#.FOO:italic\n#.foo:underline" = .ok diagram ∧
      ∃ entries, Source.directiveEntries
          (Source.lines "#.foo:bold\n#.FOO:italic\n#.foo:underline") = .ok entries ∧
        ∀ name, diagram.settings.styles.get? name =
          ((spellings name entries).getLast?.bind fun newest =>
            (OrderedMap.last? newest entries).map Style.ofText).or
              (StyleTable.builtin.get? name) := by
  obtain ⟨diagram, accepted, -⟩ := compile_three_lines
  exact ⟨diagram, accepted, compile_style_of_newest_spelling .builtin .empty _ accepted⟩

/-- The last line asks for an underlined style, but the one before it counts. -/
theorem compile_style_of_older_spelling :
    ∃ diagram,
      Compiler.standard.compile "#.foo:bold\n#.FOO:italic\n#.foo:underline" = .ok diagram ∧
      (Source.directiveEntries
          (Source.lines "#.foo:bold\n#.FOO:italic\n#.foo:underline")).toOption =
        some [(".foo", "bold"), (".FOO", "italic"), (".foo", "underline")] ∧
      diagram.settings.styles.get? "FOO" ≠ some (Style.ofText "underline") := by
  obtain ⟨diagram, accepted, italic⟩ := compile_three_lines
  refine ⟨diagram, accepted, by decide +kernel, ?_⟩
  rw [italic]
  decide +kernel

end ClassDiagram
