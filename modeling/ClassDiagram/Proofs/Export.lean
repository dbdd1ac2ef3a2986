import ClassDiagram.Preferences
import ClassDiagram.Proofs.Json.Grammar
import ClassDiagram.Proofs.Json.Layouts
import ClassDiagram.Proofs.Settings.Fields

set_option autoImplicit false

namespace ClassDiagram

namespace Json

/-- No object has two members of one name, and every double is finite. -/
structure Sound (value : Json) : Prop where
  keys : value.KeysDistinct
  finite : value.Finite

@[simp] theorem sound_bool (value : Bool) : Sound (.bool value) := ⟨trivial, trivial⟩

@[simp] theorem sound_whole (value : Nat) : Sound (.whole value) := ⟨trivial, trivial⟩

@[simp] theorem sound_text (value : String) : Sound (.text value) := ⟨trivial, trivial⟩

@[simp] theorem sound_ofOption (value : Option String) : Sound (.ofOption value) := by
  cases value <;> exact ⟨trivial, trivial⟩

@[simp] theorem sound_double {value : Double} : Sound (.double value) ↔ value.IsNormal :=
  ⟨fun sound => sound.finite, fun normal => ⟨trivial, normal⟩⟩

theorem sound_list {items : List Json} (sound : ∀ item ∈ items, Sound item) :
    Sound (.list items) := by
  induction items with
  | nil => exact ⟨trivial, trivial⟩
  | cons item rest ih =>
      obtain ⟨first, others⟩ := List.forall_mem_cons.1 sound
      obtain ⟨keys, finite⟩ := ih others
      exact ⟨⟨first.keys, keys⟩, ⟨first.finite, finite⟩⟩

@[simp] theorem sound_texts (values : List String) : Sound (.texts values) := by
  refine sound_list fun item mem => ?_
  obtain ⟨value, -, rfl⟩ := List.mem_map.1 mem
  exact sound_text value

theorem sound_object {members : List (String × Json)} (distinct : (members.map Prod.fst).Nodup)
    (sound : ∀ member ∈ members, Sound member.2) : Sound (.object members) := by
  have parts : KeysDistinctMembers members ∧ FiniteMembers members := by
    clear distinct
    induction members with
    | nil => exact ⟨trivial, trivial⟩
    | cons member rest ih =>
        obtain ⟨first, others⟩ := List.forall_mem_cons.1 sound
        obtain ⟨keys, finite⟩ := ih others
        exact ⟨⟨first.keys, keys⟩, ⟨first.finite, finite⟩⟩
  exact ⟨⟨distinct, parts.1⟩, parts.2⟩

end Json

open Json (Sound)

theorem Decimal.toDouble_normal {decimal : Decimal} (finite : decimal.toDouble.isFinite = true) :
    decimal.toDouble.IsNormal := by
  cases nearest : decimal.toDouble with
  | infinite negative =>
      rw [nearest] at finite
      cases finite
  | nan =>
      rw [nearest] at finite
      cases finite
  | finite negative significand power =>
      simp only [toDouble] at nearest
      split at nearest
      · cases nearest
        exact Double.isNormal_zero _
      · split at nearest
        · cases nearest
        · exact Double.round_normal nearest

namespace Settings

/-- A number that is read from text is in normal form. -/
theorem isNormal_of_finiteNumber? {text : String} {number : Double}
    (found : finiteNumber? text = some number) : number.IsNormal := by
  have finite := isFinite_of_finiteNumber? found
  simp only [finiteNumber?, Option.filter_eq_some_iff] at found
  have read := found.1
  simp only [Double.ofText?] at read
  split at read
  · cases read
    cases finite
  · split at read
    · cases read
      cases finite
    · obtain ⟨decimal, -, rfl⟩ := Option.map_eq_some_iff.1 read
      exact Decimal.toDouble_normal finite

def numbers (settings : Settings) : List Double :=
  [settings.arrowSize, settings.bendSize, settings.gutter, settings.edgeMargin, settings.gravity,
    settings.fontSize, settings.leading, settings.lineWidth, settings.padding, settings.spacing,
    settings.zoom]

theorem numbers_eq (settings : Settings) :
    settings.numbers = Measure.all.map fun measure => measure.get settings := rfl

theorem Measure.default_normal (measure : Measure) : (measure.get default).IsNormal := by
  cases measure <;> decide +kernel

/-- Whatever directives say, no number among the settings is infinite or undefined. -/
theorem ofDirectives_normal (directives : Directives) (base : StyleTable) :
    ∀ number ∈ (ofDirectives directives base).numbers, number.IsNormal := by
  intro number mem
  rw [numbers_eq] at mem
  obtain ⟨measure, -, rfl⟩ := List.mem_map.1 mem
  rw [measure.get_ofDirectives]
  rcases measure.read_cases (directives.get? measure.name) with same | ⟨_, _, -, found, -, same⟩
  · rw [same]
    exact measure.default_normal
  · rw [same]
    exact isNormal_of_finiteNumber? found

end Settings

theorem Style.toJson_sound (style : Style) : Sound style.toJson :=
  Json.sound_object (by simp) (by simp)

theorem StyleTable.toJson_sound (table : StyleTable) : Sound table.toJson := by
  refine Json.sound_object ?_ fun member mem => ?_
  · rw [List.map_map]
    exact table.nodup
  · obtain ⟨entry, -, rfl⟩ := List.mem_map.1 mem
    exact entry.2.toJson_sound

theorem Settings.toJson_sound {settings : Settings}
    (normal : ∀ number ∈ settings.numbers, number.IsNormal) : Sound settings.toJson := by
  simp only [numbers, List.forall_mem_cons] at normal
  obtain ⟨arrowSize, bendSize, gutter, edgeMargin, gravity, fontSize, leading, lineWidth, padding,
    spacing, zoom, -⟩ := normal
  have styles := settings.styles.toJson_sound
  refine Json.sound_object ?_ ?_
  · cases acyclicer : settings.acyclicer <;> simp [scalarMembers, acyclicer]
  · simp only [scalarMembers, List.forall_mem_append, List.forall_mem_cons]
    refine ⟨⟨⟨?_, ?_⟩, ?_⟩, styles, List.forall_mem_nil _⟩
    · simp [arrowSize, bendSize, gutter, edgeMargin, gravity, fontSize, leading, lineWidth,
        padding, spacing, zoom]
    · simp
    · simp

namespace Tree

theorem labelJson_sound (label : String) : Sound (labelJson label) :=
  Json.sound_object (by simp) (by simp)

theorem Relation.toJson_sound (relation : Relation) : Sound relation.toJson :=
  Json.sound_object (by simp) (by simp [labelJson_sound])

mutual

theorem Compartment.toJson_sound (compartment : Compartment) : Sound compartment.toJson := by
  match compartment with
  | ⟨lines, classifiers, relations⟩ =>
      have inner := classifiersJson_sound classifiers
      have links : ∀ item ∈ relations.map Relation.toJson, Sound item := by
        intro item mem
        obtain ⟨relation, -, rfl⟩ := List.mem_map.1 mem
        exact relation.toJson_sound
      rw [Compartment.toJson]
      refine Json.sound_object (by simp) ?_
      simp only [List.forall_mem_cons]
      exact ⟨Json.sound_texts lines, Json.sound_list inner, Json.sound_list links, nofun⟩

theorem classifiersJson_sound (classifiers : List Classifier) :
    ∀ item ∈ classifiersJson classifiers, Sound item := by
  match classifiers with
  | [] => nofun
  | classifier :: rest =>
      rw [classifiersJson]
      exact List.forall_mem_cons.2 ⟨classifier.toJson_sound, classifiersJson_sound rest⟩

theorem Classifier.toJson_sound (classifier : Classifier) : Sound classifier.toJson := by
  match classifier with
  | ⟨kind, name, compartments⟩ =>
      have inner := compartmentsJson_sound compartments
      rw [Classifier.toJson]
      refine Json.sound_object (by simp) ?_
      simp only [List.forall_mem_cons]
      exact ⟨Json.sound_text kind, Json.sound_text name, Json.sound_list inner, nofun⟩

theorem compartmentsJson_sound (compartments : List Compartment) :
    ∀ item ∈ compartmentsJson compartments, Sound item := by
  match compartments with
  | [] => nofun
  | compartment :: rest =>
      rw [compartmentsJson]
      exact List.forall_mem_cons.2 ⟨compartment.toJson_sound, compartmentsJson_sound rest⟩

end

end Tree

theorem Diagram.toJson_sound {diagram : Diagram}
    (normal : ∀ number ∈ diagram.settings.numbers, number.IsNormal) : Sound diagram.toJson := by
  refine Json.sound_object (by simp) ?_
  simp only [List.forall_mem_cons]
  exact ⟨diagram.root.toJson_sound, Settings.toJson_sound normal, nofun⟩

/-- A keyword that is read back tells its choice apart from all others. -/
theorem Vocabulary.name_injective {α : Type} (vocabulary : Vocabulary α) {name : α → String}
    (read?_name : ∀ choice, vocabulary.read? (name choice) = some choice) {first second : α}
    (same : name first = name second) : first = second := by
  have read := read?_name first
  rw [same, read?_name] at read
  exact (Option.some.inj read).symm

theorem Direction.name_injective {first second : Direction} (same : first.name = second.name) :
    first = second := by
  cases first <;> cases second <;> first | rfl | exact absurd same (by decide)

theorem Json.ofOption_injective {first second : Option String}
    (same : Json.ofOption first = Json.ofOption second) : first = second := by
  cases first <;> cases second <;> cases same <;> rfl

theorem Json.texts_injective {first second : List String}
    (same : Json.texts first = Json.texts second) : first = second :=
  (List.map_inj_right fun _ _ => Json.text.inj).1 (Json.list.inj same)

theorem Style.toJson_injective {first second : Style} (same : first.toJson = second.toJson) :
    first = second := by
  simp only [toJson, Json.object.injEq, List.cons.injEq, Prod.mk.injEq, Json.bool.injEq,
    Json.text.injEq, true_and, and_true] at same
  obtain ⟨bold, underline, italic, dashed, empty, center, fill, stroke, visual, direction⟩ := same
  cases first
  cases second
  simp only [mk.injEq]
  exact ⟨bold, underline, italic, dashed, empty, center, Json.ofOption_injective fill,
    Json.ofOption_injective stroke, Visual.vocabulary.name_injective Visual.read?_name visual,
    Direction.name_injective direction⟩

theorem StyleTable.toJson_injective {first second : StyleTable}
    (same : first.toJson = second.toJson) : first = second := by
  have entries : first.entries = second.entries := by
    refine (List.map_inj_right fun entry other alike => ?_).1 (Json.object.inj same)
    exact Prod.ext (Prod.mk.inj alike).1 (Style.toJson_injective (Prod.mk.inj alike).2)
  cases first
  cases second
  cases entries
  rfl

theorem Settings.toJson_injective {first second : Settings} (same : first.toJson = second.toJson) :
    first = second := by
  simp only [toJson, scalarMembers, Json.object.injEq] at same
  obtain ⟨scalars, styles⟩ := List.append_inj' same rfl
  obtain ⟨others, ranker⟩ := List.append_inj' scalars rfl
  obtain ⟨fixed, acyclicer⟩ := List.append_inj others rfl
  simp only [List.cons.injEq, Prod.mk.injEq, Json.double.injEq, Json.text.injEq, Json.bool.injEq,
    true_and, and_true] at fixed ranker styles
  obtain ⟨arrowSize, bendSize, direction, gutter, edgeMargin, gravity, edges, fill, background,
    fillArrows, font, fontSize, leading, lineWidth, padding, spacing, stroke, title, zoom⟩ := fixed
  have listed : first.acyclicer.toList = second.acyclicer.toList :=
    (List.map_inj_right fun _ _ alike => Acyclicer.vocabulary.name_injective Acyclicer.read?_name
      (Json.text.inj (Prod.mk.inj alike).2)).1 acyclicer
  have cycles : first.acyclicer = second.acyclicer := by
    simpa using congrArg List.head? listed
  cases first
  cases second
  simp only [mk.injEq]
  exact ⟨arrowSize, bendSize, Direction.name_injective direction, gutter, edgeMargin, gravity,
    EdgeStyle.vocabulary.name_injective EdgeStyle.read?_name edges, Json.texts_injective fill,
    background, fillArrows, font, fontSize, leading, lineWidth, padding, spacing, stroke, title,
    zoom, cycles, Ranker.vocabulary.name_injective Ranker.read?_name ranker,
    StyleTable.toJson_injective styles⟩

namespace Tree

theorem Relation.toJson_injective {first second : Relation} (same : first.toJson = second.toJson) :
    first = second := by
  simp only [toJson, labelJson, Json.object.injEq, List.cons.injEq, Prod.mk.injEq, Json.whole.injEq,
    Json.text.injEq, true_and, and_true] at same
  cases first
  cases second
  simpa only [mk.injEq] using same

mutual

theorem Compartment.toJson_injective {first second : Compartment}
    (same : first.toJson = second.toJson) : first = second := by
  match first, second with
  | ⟨lines, classifiers, relations⟩, ⟨lines', classifiers', relations'⟩ =>
      simp only [Compartment.toJson, Json.object.injEq, List.cons.injEq, Prod.mk.injEq,
        Json.list.injEq, true_and, and_true] at same
      obtain ⟨line, classifier, relation⟩ := same
      rw [Json.texts_injective line, classifiersJson_injective classifier,
        (List.map_inj_right fun _ _ => Relation.toJson_injective).1 relation]

theorem classifiersJson_injective {first second : List Classifier}
    (same : classifiersJson first = classifiersJson second) : first = second := by
  match first, second with
  | [], [] => rfl
  | [], classifier :: rest =>
      rw [classifiersJson, classifiersJson] at same
      cases same
  | classifier :: rest, [] =>
      rw [classifiersJson, classifiersJson] at same
      cases same
  | classifier :: rest, classifier' :: rest' =>
      rw [classifiersJson, classifiersJson] at same
      obtain ⟨head, tail⟩ := List.cons.inj same
      rw [Classifier.toJson_injective head, classifiersJson_injective tail]

theorem Classifier.toJson_injective {first second : Classifier}
    (same : first.toJson = second.toJson) : first = second := by
  match first, second with
  | ⟨kind, name, compartments⟩, ⟨kind', name', compartments'⟩ =>
      simp only [Classifier.toJson, Json.object.injEq, List.cons.injEq, Prod.mk.injEq,
        Json.list.injEq, Json.text.injEq, true_and, and_true] at same
      obtain ⟨rfl, rfl, compartment⟩ := same
      rw [compartmentsJson_injective compartment]

theorem compartmentsJson_injective {first second : List Compartment}
    (same : compartmentsJson first = compartmentsJson second) : first = second := by
  match first, second with
  | [], [] => rfl
  | [], compartment :: rest =>
      rw [compartmentsJson, compartmentsJson] at same
      cases same
  | compartment :: rest, [] =>
      rw [compartmentsJson, compartmentsJson] at same
      cases same
  | compartment :: rest, compartment' :: rest' =>
      rw [compartmentsJson, compartmentsJson] at same
      obtain ⟨head, tail⟩ := List.cons.inj same
      rw [Compartment.toJson_injective head, compartmentsJson_injective tail]

end

end Tree

theorem Diagram.toJson_injective {first second : Diagram} (same : first.toJson = second.toJson) :
    first = second := by
  simp only [toJson, Json.object.injEq, List.cons.injEq, Prod.mk.injEq, true_and,
    and_true] at same
  obtain ⟨root, settings⟩ := same
  cases first
  cases second
  cases Tree.Compartment.toJson_injective root
  cases Settings.toJson_injective settings
  rfl

namespace Preferences

variable {preferences : Preferences} {source : String} {diagram : Diagram}

theorem toJson_sound_of_compile (accepted : preferences.compile source = .ok diagram) :
    Sound diagram.toJson := by
  rw [compile] at accepted
  cases compiled : preferences.compiler.compile source with
  | error reason =>
      rw [compiled] at accepted
      cases accepted
  | ok made =>
      rw [compiled] at accepted
      cases accepted
      obtain ⟨entries, -, settings⟩ := Compiler.compile_settings compiled
      refine Diagram.toJson_sound ?_
      rw [settings, Compiler.settings]
      exact Settings.ofDirectives_normal _ _

/-- The export of a diagram is JSON without repeated keys and is read back as the same value, the
indented layout is the compact one with white space between, and no other diagram has the same
export. -/
theorem exportText_lossless (accepted : preferences.compile source = .ok diagram) :
    Json.IsText (preferences.exportText diagram).toList ∧
      Json.ofText? (preferences.exportText diagram) = some diagram.toJson ∧
      diagram.toJson.KeysDistinct ∧
      Json.withoutSpace ({ preferences with layout := .indented }.exportText diagram) =
        { preferences with layout := .compact }.exportText diagram ∧
      ∀ (others : Preferences) (otherSource : String) (other : Diagram),
        others.compile otherSource = .ok other →
        preferences.exportText diagram = others.exportText other → diagram = other := by
  have sound := toJson_sound_of_compile accepted
  have read := Json.ofText?_render preferences.layout sound.finite
  refine ⟨Json.isText_render preferences.layout sound.finite, read, sound.keys,
    Json.withoutSpace_render .indented sound.finite, ?_⟩
  intro others otherSource other otherAccepted same
  have otherSound := toJson_sound_of_compile otherAccepted
  have otherRead := Json.ofText?_render others.layout otherSound.finite
  rw [← exportText, same, exportText, otherRead] at read
  exact (Diagram.toJson_injective (Option.some.inj read)).symm

theorem exportText_lossless_of_one_link :
    let preferences : Preferences := { directives := .ofList [("zoom", "0.1")] }
    let source := "#acyclicer: greedy\n#.odd\"name: bold\n[A|a\tb]-[B]"
    ∃ diagram, preferences.compile source = .ok diagram ∧
      Json.IsText (preferences.exportText diagram).toList ∧
      Json.ofText? (preferences.exportText diagram) = some diagram.toJson ∧
      diagram.toJson.KeysDistinct ∧
      Json.withoutSpace ({ preferences with layout := .indented }.exportText diagram) =
        { preferences with layout := .compact }.exportText diagram ∧
      ∀ (others : Preferences) (otherSource : String) (other : Diagram),
        others.compile otherSource = .ok other →
        preferences.exportText diagram = others.exportText other → diagram = other := by
  intro preferences source
  have passed : (preferences.compile source).toBool = true := by decide +kernel
  cases accepted : preferences.compile source with
  | error trouble =>
      rw [accepted] at passed
      cases passed
  | ok diagram => exact ⟨diagram, rfl, exportText_lossless accepted⟩

end Preferences
end ClassDiagram
