import ClassDiagram.Proofs.OrderedMap
import ClassDiagram.Proofs.Transparent

set_option autoImplicit false

namespace ClassDiagram

namespace OrderedMap

variable {α : Type}

/-- The keys in order and the value of each key are all there is to a map. -/
theorem ext_get? {first second : OrderedMap α} (keys : first.keys = second.keys)
    (values : ∀ key, first.get? key = second.get? key) : first = second := by
  obtain ⟨entries, nodup⟩ := first
  obtain ⟨others, nodup'⟩ := second
  have same : entries = others := by
    induction entries generalizing others with
    | nil => exact (List.map_eq_nil_iff.1 keys.symm).symm
    | cons entry rest ih =>
        obtain ⟨other, more, rfl, head, tail⟩ := List.map_eq_cons_iff.1 keys.symm
        obtain ⟨absent, nodup⟩ := List.nodup_cons.1 nodup
        obtain ⟨absent', nodup'⟩ := List.nodup_cons.1 nodup'
        have value : entry.2 = other.2 := by
          have found := values entry.1
          simpa [OrderedMap.get?, find?, head] using found
        have rests : rest = more := by
          refine ih nodup more nodup' tail.symm fun key => ?_
          by_cases here : entry.1 = key
          · -- the key of the first entry occurs in neither rest
            rw [← find?_isSome_iff, Option.not_isSome_iff_eq_none] at absent absent'
            show find? key rest = find? key more
            rw [← here, absent, ← head, absent']
          · have found := values key
            simpa [OrderedMap.get?, find?, head, here] using found
        rw [rests, Prod.ext head.symm value]
  exact OrderedMap.ext same

/-- It makes no difference whether the entries of a map stand in a map of their own or in front of
those that are merged into it. -/
theorem merge_ofList (map : OrderedMap α) (entries : List (String × α)) :
    map.merge (ofList entries) = empty.merge (ofList (map.entries ++ entries)) := by
  apply ext_get?
  · rw [keys_merge_ofList, keys_merge_ofList]
    rfl
  · intro key
    rw [get?_merge_ofList, get?_merge_ofList]
    rfl

end OrderedMap

namespace Source

/-- A text that can stand in front of or behind the colon of a directive. -/
structure IsField (text : String) : Prop where
  trimmed : Text.trimmed text = text
  colonless : ':' ∉ text.toList
  oneLine : '\n' ∉ text.toList

def directiveLine (entry : String × String) : List Char :=
  '#' :: (entry.1.toList ++ ':' :: entry.2.toList)

/-- The source with one line for each entry in front, in order. -/
def withDirectives (entries : List (String × String)) (source : String) : String :=
  String.ofList (Text.closedBy '\n' (entries.map directiveLine) ++ source.toList)

variable {entries : List (String × String)}

theorem directiveLine_oneLine {entry : String × String} (key : IsField entry.1)
    (value : IsField entry.2) : '\n' ∉ directiveLine entry := by
  simp [directiveLine, key.oneLine, value.oneLine]

theorem directiveLine_wellFormed (entry : String × String) :
    isMalformed (directiveLine entry) = false := by
  simp [directiveLine, isMalformed]

/-- The line of an entry gives that entry. -/
theorem directive?_directiveLine {entry : String × String} (key : IsField entry.1)
    (value : IsField entry.2) : directive? (directiveLine entry) = some entry := by
  rw [directiveLine, directive?, Text.pieces_append_mark key.colonless,
    Text.pieces_of_not_mem value.colonless]
  exact congrArg some (Prod.ext key.trimmed value.trimmed)

theorem pieces_withDirectives
    (fields : ∀ entry ∈ entries, IsField entry.1 ∧ IsField entry.2) (source : String) :
    Text.pieces '\n' (withDirectives entries source).toList =
      entries.map directiveLine ++ Text.pieces '\n' source.toList := by
  rw [withDirectives, String.toList_ofList]
  refine Text.pieces_closedBy_append ?_ source.toList
  intro piece mem
  obtain ⟨entry, inside, rfl⟩ := List.mem_map.1 mem
  exact directiveLine_oneLine (fields entry inside).1 (fields entry inside).2

theorem filterMap_directiveLine
    (fields : ∀ entry ∈ entries, IsField entry.1 ∧ IsField entry.2) :
    (entries.map directiveLine).filterMap directive? = entries := by
  induction entries with
  | nil => rfl
  | cons entry rest ih =>
      obtain ⟨key, value⟩ := fields entry List.mem_cons_self
      rw [List.map_cons, List.filterMap_cons, directive?_directiveLine key value]
      exact congrArg (entry :: ·) (ih fun other mem => fields other (List.mem_cons_of_mem _ mem))

theorem map_contentOf_directiveLine (entries : List (String × String)) :
    (entries.map directiveLine).map contentOf = List.replicate entries.length [] := by
  induction entries with
  | nil => rfl
  | cons entry rest ih =>
      rw [List.map_cons, List.map_cons, ih, directiveLine, contentOf_hash]
      rfl

/-- Lines for directives in front leave as many empty lines behind and put their entries in front of
those of the source. -/
theorem prepare_withDirectives
    (fields : ∀ entry ∈ entries, IsField entry.1 ∧ IsField entry.2) {source : String}
    (fine : ∀ text ∈ Text.pieces '\n' source.toList, isMalformed text = false) :
    prepare (withDirectives entries source) = .ok
      ⟨OrderedMap.ofList (entries ++ (Text.pieces '\n' source.toList).filterMap directive?),
        String.ofList (List.replicate entries.length '\n' ++
          Text.join '\n' ((Text.pieces '\n' source.toList).map contentOf))⟩ := by
  have nonempty : (Text.pieces '\n' source.toList).map contentOf ≠ [] := by
    simp [Text.pieces_ne_nil]
  rw [prepare_of_wellFormed, pieces_withDirectives fields, List.filterMap_append,
    filterMap_directiveLine fields, List.map_append, map_contentOf_directiveLine,
    Text.join_eq_closedBy_append '\n' _ nonempty, Text.closedBy_replicate_nil]
  intro text mem
  rw [pieces_withDirectives fields] at mem
  rcases List.mem_append.1 mem with mem | mem
  · obtain ⟨entry, -, rfl⟩ := List.mem_map.1 mem
    exact directiveLine_wellFormed entry
  · exact fine text mem

/-- The same line is malformed, only that its number has grown by that of the lines in front. -/
theorem prepare_withDirectives_of_malformed
    (fields : ∀ entry ∈ entries, IsField entry.1 ∧ IsField entry.2) {source : String}
    {front back : List (List Char)} {bad : List Char}
    (split : Text.pieces '\n' source.toList = front ++ bad :: back)
    (fine : ∀ other ∈ front, isMalformed other = false) (malformed : isMalformed bad = true) :
    ∃ before after, prepare source = .error before ∧
      prepare (withDirectives entries source) = .error after ∧
      after.line = before.line + entries.length ∧
      lineText? source before.line = some bad ∧
      lineText? (withDirectives entries source) after.line = some bad := by
  have shape : Text.pieces '\n' (withDirectives entries source).toList =
      (entries.map directiveLine ++ front) ++ bad :: back := by
    rw [pieces_withDirectives fields, split, List.append_assoc]
  have fineFront : ∀ other ∈ entries.map directiveLine ++ front, isMalformed other = false := by
    intro other mem
    rcases List.mem_append.1 mem with mem | mem
    · obtain ⟨entry, -, rfl⟩ := List.mem_map.1 mem
      exact directiveLine_wellFormed entry
    · exact fine other mem
  refine ⟨_, _, prepare_of_malformed split fine malformed,
    prepare_of_malformed shape fineFront malformed, ?_, lineText?_eq split, lineText?_eq shape⟩
  simp only [List.length_append, List.length_map]
  omega

end Source

theorem Draft.document_replicate_feed (n : Nat) (s : List Char) :
    document (List.replicate n '\n' ++ s) = document s := by
  induction n with
  | zero => rfl
  | succ n ih => rw [List.replicate_succ, List.cons_append, document_line_feed, ih]

open Source in
/-- What compiling `source` and compiling `longer`, which has `count` directives more in front, come
to: the same diagram, or a refusal that says the same, or a complaint about the same line. -/
inductive Compiler.SameBehind (source longer : String) (count : Nat) :
    Except (CompileError Diagnostic) Diagram → Except (CompileError Diagnostic) Diagram → Prop
  | compiled (diagram : Diagram) : SameBehind source longer count (.ok diagram) (.ok diagram)
  | refused {before after : Diagnostic} (same : before.SaysSame after) :
      SameBehind source longer count (.error (.refused before)) (.error (.refused after))
  | malformed {before after : MalformedDirective} (text : List Char)
      (line : after.line = before.line + count) (here : lineText? source before.line = some text)
      (there : lineText? longer after.line = some text) :
      SameBehind source longer count (.error (.malformedDirective before))
        (.error (.malformedDirective after))

open Source in
/-- Standing directives act like lines in front of the source, be they overridden in it or not. -/
theorem compile_withDirectives (styles : StyleTable) (defaults : Directives) (source : String)
    (fields : ∀ entry ∈ defaults.entries, IsField entry.1 ∧ IsField entry.2) :
    Compiler.SameBehind source (withDirectives defaults.entries source) defaults.entries.length
      ({ Compiler.standard with styles, defaults }.compile source)
      ({ Compiler.standard with styles }.compile (withDirectives defaults.entries source)) := by
  rcases wellFormed_or_malformed (Text.pieces '\n' source.toList) with
    fine | ⟨front, bad, back, split, fineFront, malformed⟩
  · have settings : Compiler.settings { Compiler.standard with styles, defaults }
          (.ofList ((Text.pieces '\n' source.toList).filterMap directive?)) =
        Compiler.settings { Compiler.standard with styles }
          (.ofList (defaults.entries ++ (Text.pieces '\n' source.toList).filterMap directive?)) :=
      congrArg (Settings.ofDirectives · styles) (OrderedMap.merge_ofList defaults _)
    have alike := Draft.ofText?_alike
      (s := .ofList (Text.join '\n' ((Text.pieces '\n' source.toList).map contentOf)))
      (t := .ofList (List.replicate defaults.entries.length '\n' ++ _)) <| by
        rw [String.toList_ofList, String.toList_ofList, Draft.document_replicate_feed]
    simp only [Compiler.compile, prepare_of_wellFormed fine, prepare_withDirectives fields fine,
      settings, Prepared.isEmpty, String.toList_ofList, List.all_append, List.all_replicate]
    split
    · next empty =>
        rw [if_pos (by simp [empty])]
        exact .compiled _
    · next content =>
        rw [if_neg (by simp [content])]
        rcases alike with ⟨draft, hs, hl⟩ | ⟨before, after, hs, hl, same⟩
        · simp only [Compiler.standard, hs, hl]
          exact .compiled _
        · simp only [Compiler.standard, hs, hl]
          exact .refused same
  · obtain ⟨before, after, hb, ha, line, here, there⟩ :=
      prepare_withDirectives_of_malformed fields split fineFront malformed
    simp only [Compiler.compile, hb, ha]
    exact .malformed bad line here there

open Source in
/-- The document overrides one of two standing directives and adds a style of its own. -/
theorem compile_withDirectives_overridden :
    let defaults : Directives := ⟨[("direction", "right"), (".foo", "bold fill=#fff")], by decide⟩
    (∀ entry ∈ defaults.entries, IsField entry.1 ∧ IsField entry.2) ∧
    Compiler.SameBehind "#direction: down\n[<foo> A] -> [B]\n#.bar: italic"
      "#direction:right\n#.foo:bold fill=#fff\n#direction: down\n[<foo> A] -> [B]\n#.bar: italic" 2
      ({ Compiler.standard with defaults }.compile
        "#direction: down\n[<foo> A] -> [B]\n#.bar: italic")
      (Compiler.standard.compile <|
        "#direction:right\n#.foo:bold fill=#fff\n" ++
          "#direction: down\n[<foo> A] -> [B]\n#.bar: italic") := by
  intro defaults
  have fields : ∀ entry ∈ defaults.entries, IsField entry.1 ∧ IsField entry.2 := by
    intro entry mem
    rcases List.mem_cons.1 mem with rfl | mem
    · exact ⟨⟨by decide, by decide, by decide⟩, ⟨by decide, by decide, by decide⟩⟩
    · obtain rfl := List.mem_singleton.1 mem
      exact ⟨⟨by decide, by decide, by decide⟩, ⟨by decide, by decide, by decide⟩⟩
  exact ⟨fields, compile_withDirectives .builtin defaults _ fields⟩

end ClassDiagram
