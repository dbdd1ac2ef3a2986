import ClassDiagram.Proofs.Draft.Composition
import ClassDiagram.Proofs.Draft.FirstArrow
import ClassDiagram.Proofs.Text.Escape
import Mathlib.Data.List.Forall2

set_option autoImplicit false

namespace ClassDiagram.Draft

open Text (IsTrimmed isSeparator run unescape)

/-- A text on a single line, without white characters at its ends. -/
structure IsLine (line : String) : Prop where
  trimmed : IsTrimmed line.toList
  unseparated : ∀ c ∈ line.toList, isSeparator c = false

/-- The arrow has the form of an arrow, and the label in front of it could not hold another. -/
structure Relation.WellFormed (relation : Relation) : Prop where
  arrow : IsArrow relation.arrow.toList
  source : IsTrimmed relation.sourceLabel.toList
  target : IsTrimmed relation.targetLabel.toList
  shaftless : ∀ c ∈ relation.sourceLabel.toList, isShaft c = false

/-- The type is in upper case, and the name is the first line of the first compartment. Of all lines
only that one may be empty. -/
structure Classifier.WellFormed (classifier : Classifier) : Prop where
  kind : ∀ c ∈ classifier.kind.toList, c.isUpper = true
  header : ∃ first more, classifier.compartments = first :: more ∧
    classifier.name = first.lines.head?.getD "" ∧
    (∀ line ∈ first.lines.tail, line ≠ "") ∧ ∀ part ∈ more, ∀ line ∈ part.lines, line ≠ ""

/-- The relation runs from the classifier at some place to the next one. -/
def Relation.Joins (classifiers : List Classifier) (place : Nat) (relation : Relation) : Prop :=
  classifiers[place]?.map Classifier.name = some relation.source ∧
    classifiers[place + 1]?.map Classifier.name = some relation.target

namespace Compartment

/-- The relations join neighbours, each of them further on than the one before. -/
def Chained (compartment : Compartment) : Prop :=
  ∃ places : List Nat, places.Pairwise (· < ·) ∧
    List.Forall₂ (Relation.Joins compartment.classifiers) places compartment.relations

/-- What holds of every compartment, whether it is the first one of a classifier or another. -/
structure WellFormed (compartment : Compartment) : Prop where
  lines : ∀ line ∈ compartment.lines, IsLine line
  classifiers : ∀ classifier ∈ compartment.classifiers, classifier.WellFormed
  relations : ∀ relation ∈ compartment.relations, relation.WellFormed
  chained : compartment.Chained

end Compartment

/-- A run goes over no separator, and no separator comes up when the escapes are taken off. -/
theorem isLine_of_run (s : List Char) :
    IsLine (String.ofList (unescape (Text.trim (run s)))) := by
  constructor
  · rw [String.toList_ofList]
    exact (Text.trims_trim (run s)).trimmed.unescape
  · rw [String.toList_ofList]
    have none : (Text.trim (run s)).any isSeparator = false := by
      rw [List.any_eq_false]
      intro c mem
      rw [Text.isSeparator_of_mem_run (Text.mem_of_mem_trim mem)]
      exact Bool.false_ne_true
    rw [← Text.any_unescape (by decide), List.any_eq_false] at none
    exact fun c mem => Bool.eq_false_iff.2 (none c mem)

theorem isUpper_toUpper {c : Char} (lower : isTagLetter c = true) : c.toUpper.isUpper = true := by
  obtain ⟨low, high⟩ : 97 ≤ c.val ∧ c.val ≤ 122 := by
    change (decide (97 ≤ c.val) && decide (c.val ≤ 122)) = true at lower
    simpa using lower
  -- the distance between the two cases is negative, so it is added modulo the size of a word
  have shift : (65 - 97 : UInt32).toNat = 2 ^ 32 - 32 := rfl
  have inside : 65 ≤ c.val + (65 - 97) ∧ c.val + (65 - 97) ≤ 90 := by
    simp only [UInt32.le_iff_toNat_le, UInt32.toNat_add, shift, UInt32.reduceToNat] at low high ⊢
    omega
  delta Char.toUpper
  rw [dif_pos ⟨low, high⟩]
  exact decide_eq_true inside

theorem isUpper_defaultKind : ∀ c ∈ defaultKind.toList, c.isUpper = true := by
  have all : defaultKind.toList.all Char.isUpper = true := rfl
  exact List.all_eq_true.1 all

/-- A header gives a type in upper case, and a name that is as good a line as the header. -/
theorem readHeader_ok {header : String} (line : IsLine header) :
    (∀ c ∈ (readHeader header).1.toList, c.isUpper = true) ∧ IsLine (readHeader header).2 := by
  rw [readHeader]
  split
  · exact ⟨isUpper_defaultKind, line⟩
  · next tag rest cut =>
      obtain ⟨before, whole, letters⟩ := cutTag?_eq_some cut
      refine ⟨?_, ?_, ?_⟩
      · intro c mem
        rw [String.toList_ofList] at mem
        obtain ⟨d, inside, rfl⟩ := List.mem_map.1 mem
        exact isUpper_toUpper (List.all_eq_true.1 letters d inside)
      · rw [String.toList_ofList]
        exact (Text.trims_trim rest).trimmed
      · intro c mem
        rw [String.toList_ofList] at mem
        apply line.unseparated
        rw [whole]
        have inside := Text.mem_of_mem_trim mem
        exact List.mem_append_right _ (List.mem_cons_of_mem _ inside)

theorem Link.relation_wellFormed {s : List Char} {link : Link} (found : Link.ofText? s = some link)
    (source target : String) : (link.relation source target).WellFormed := by
  have cut := Link.ofText?_eq_some_iff.1 found
  refine ⟨?_, ?_, ?_, ?_⟩
  · rw [Link.relation, String.toList_ofList]
    exact cut.isArrow
  · rw [Link.relation, Link.sourceLabel, String.toList_ofList]
    exact (Text.trims_trim link.before).trimmed
  · rw [Link.relation, Link.targetLabel, String.toList_ofList]
    exact (Text.trims_trim link.after).trimmed
  · intro c mem
    rw [Link.relation, Link.sourceLabel, String.toList_ofList] at mem
    exact cut.shaftless_before c (Text.mem_of_mem_trim mem)

namespace Relation.Joins

variable {classifiers more : List Classifier} {place : Nat} {relation : Relation}

theorem place_lt (joins : Joins classifiers place relation) : place < classifiers.length := by
  obtain ⟨classifier, found, -⟩ := Option.map_eq_some_iff.1 joins.1
  exact (List.getElem?_eq_some_iff.1 found).1

theorem append (joins : Joins classifiers place relation) (more : List Classifier) :
    Joins (classifiers ++ more) place relation := by
  obtain ⟨classifier, found, -⟩ := Option.map_eq_some_iff.1 joins.2
  have last : place + 1 < classifiers.length := (List.getElem?_eq_some_iff.1 found).1
  constructor
  · rw [List.getElem?_append_left joins.place_lt]
    exact joins.1
  · rw [List.getElem?_append_left last]
    exact joins.2

theorem behind (joins : Joins more place relation) (classifiers : List Classifier) :
    Joins (classifiers ++ more) (classifiers.length + place) relation := by
  constructor
  · rw [List.getElem?_append_right (Nat.le_add_right _ _), Nat.add_sub_cancel_left]
    exact joins.1
  · rw [Nat.add_assoc, List.getElem?_append_right (Nat.le_add_right _ _), Nat.add_sub_cancel_left]
    exact joins.2

end Relation.Joins

theorem forall₂_behind {places : List Nat} {relations : List Relation} {more : List Classifier}
    (joined : List.Forall₂ (Relation.Joins more) places relations) (classifiers : List Classifier) :
    List.Forall₂ (Relation.Joins (classifiers ++ more)) (places.map (classifiers.length + ·))
      relations := by
  rw [List.forall₂_map_left_iff]
  exact joined.imp fun place relation joins => joins.behind classifiers

theorem Compartment.Chained.append {first second : Compartment} (front : first.Chained)
    (back : second.Chained) : (first ++ second).Chained := by
  obtain ⟨places, sorted, joined⟩ := front
  obtain ⟨further, furtherSorted, furtherJoined⟩ := back
  have inside : ∀ place ∈ places, place < first.classifiers.length :=
    (List.forall₂_and_left _ _ |>.1 (joined.imp fun _ _ joins => ⟨joins.place_lt, joins⟩)).1
  refine ⟨places ++ further.map (first.classifiers.length + ·), ?_, ?_⟩
  · rw [List.pairwise_append]
    refine ⟨sorted, furtherSorted.map _ fun i j less => Nat.add_lt_add_left less _, ?_⟩
    intro i mem j shifted
    obtain ⟨k, -, rfl⟩ := List.mem_map.1 shifted
    exact Nat.lt_of_lt_of_le (inside i mem) (Nat.le_add_right _ _)
  · exact List.rel_append (joined.imp fun place relation joins => joins.append second.classifiers)
      (forall₂_behind furtherJoined first.classifiers)

variable {body : BodyReader}

/-- A chain begins with its source, and each relation in it leads to the next classifier. -/
theorem Chain.chained {source : Classifier} {chain : Compartment}
    (chain_ok : Chain body source chain) :
    chain.classifiers[0]? = some source ∧ chain.Chained := by
  induction chain_ok with
  | last source => exact ⟨rfl, [], List.Pairwise.nil, List.Forall₂.nil⟩
  | @link source target chain _ _ _ link arrow read more ih =>
      obtain ⟨first, places, sorted, joined⟩ := ih
      refine ⟨rfl, 0 :: places.map (1 + ·), ?_, ?_⟩
      · rw [List.pairwise_cons]
        refine ⟨?_, sorted.map _ fun i j less => Nat.add_lt_add_left less 1⟩
        intro i shifted
        obtain ⟨k, -, rfl⟩ := List.mem_map.1 shifted
        exact Nat.lt_of_lt_of_le Nat.one_pos (Nat.le_add_right _ _)
      · refine .cons ⟨rfl, ?_⟩ (forall₂_behind joined [source])
        show chain.classifiers[0]?.map Classifier.name = some target.name
        rw [first, Option.map_some]

theorem Chain.relations {source : Classifier} {chain : Compartment}
    (chain_ok : Chain body source chain) :
    ∀ relation ∈ chain.relations, relation.WellFormed := by
  induction chain_ok with
  | last =>
      intro relation mem
      cases mem
  | link arrow read more ih =>
      intro relation mem
      rcases List.mem_cons.1 mem with rfl | mem
      · exact Link.relation_wellFormed arrow _ _
      · exact ih relation mem

/-- The compartment and all compartments in it are well-formed, and classifiers stand in them only
on the levels that are allowed. -/
def Compartment.ShapedWithin (levels : Nat) (root : Compartment) : Prop :=
  root.AtDepths fun depth compartment =>
    compartment.WellFormed ∧ (compartment.classifiers ≠ [] → depth < levels)

/-- The classifier is well-formed, and one level is left to it less than to what is around it. -/
structure Classifier.ShapedWithin (levels : Nat) (classifier : Classifier) : Prop where
  wellFormed : classifier.WellFormed
  levels_pos : 0 < levels
  parts : ∀ part ∈ classifier.compartments, part.ShapedWithin (levels - 1)

namespace Compartment

variable {levels : Nat}

theorem shapedWithin_iff {root : Compartment} :
    root.ShapedWithin levels ↔ (∀ line ∈ root.lines, IsLine line) ∧
      (∀ relation ∈ root.relations, relation.WellFormed) ∧ root.Chained ∧
      ∀ classifier ∈ root.classifiers, classifier.ShapedWithin levels := by
  rw [ShapedWithin, atDepths_iff]
  constructor
  · rintro ⟨⟨here, room⟩, below⟩
    refine ⟨here.lines, here.relations, here.chained, fun classifier mem => ?_⟩
    refine ⟨here.classifiers classifier mem, room (List.ne_nil_of_mem mem), ?_⟩
    intro part inside path compartment leads
    obtain ⟨ok, less⟩ := below classifier mem part inside path compartment leads
    exact ⟨ok, fun some => Nat.lt_sub_of_add_lt (less some)⟩
  · rintro ⟨lines, relations, chained, classifiers⟩
    refine ⟨⟨⟨lines, fun classifier mem => (classifiers classifier mem).wellFormed, relations,
      chained⟩, fun some => ?_⟩, fun classifier mem part inside path compartment leads => ?_⟩
    · obtain ⟨classifier, mem⟩ := List.exists_mem_of_ne_nil _ some
      exact (classifiers classifier mem).levels_pos
    · obtain ⟨ok, less⟩ := (classifiers classifier mem).parts part inside path compartment leads
      exact ⟨ok, fun some => Nat.add_lt_of_lt_sub (less some)⟩

theorem ShapedWithin.append {first second : Compartment} (front : first.ShapedWithin levels)
    (back : second.ShapedWithin levels) : (first ++ second).ShapedWithin levels := by
  rw [shapedWithin_iff] at front back ⊢
  obtain ⟨lines, relations, chained, classifiers⟩ := front
  obtain ⟨moreLines, moreRelations, moreChained, moreClassifiers⟩ := back
  exact ⟨List.forall_mem_append.2 ⟨lines, moreLines⟩,
    List.forall_mem_append.2 ⟨relations, moreRelations⟩, chained.append moreChained,
    List.forall_mem_append.2 ⟨classifiers, moreClassifiers⟩⟩

theorem shapedWithin_of_lines {lines : List String} (ok : ∀ line ∈ lines, IsLine line) :
    (Compartment.mk lines [] []).ShapedWithin levels := by
  rw [shapedWithin_iff]
  refine ⟨ok, fun relation mem => ?_, ⟨[], .nil, .nil⟩, fun classifier mem => ?_⟩
  · cases mem
  · cases mem

/-- A compartment as it is read has no empty line. -/
structure Read (levels : Nat) (compartment : Compartment) : Prop where
  shaped : compartment.ShapedWithin levels
  lines : ∀ line ∈ compartment.lines, line ≠ ""

theorem Read.append {first second : Compartment} (front : first.Read levels)
    (back : second.Read levels) : (first ++ second).Read levels :=
  ⟨front.shaped.append back.shaped, List.forall_mem_append.2 ⟨front.lines, back.lines⟩⟩

end Compartment

theorem textLine_read (levels : Nat) (s : List Char) : (textLine (run s)).Read levels := by
  rw [textLine]
  split
  · refine ⟨Compartment.shapedWithin_of_lines ?_, ?_⟩ <;> exact List.forall_mem_nil _
  · next some =>
      have line := isLine_of_run s
      refine ⟨Compartment.shapedWithin_of_lines ?_, ?_⟩
      · rwa [List.forall_mem_singleton]
      · rw [List.forall_mem_singleton]
        exact fun nothing => some (String.ofList_eq_empty_iff.1 nothing)

variable {levels : Nat}

theorem Chain.read (yields : body.Yields (Classifier.ShapedWithin levels))
    {source : Classifier} {chain : Compartment} (chain_ok : Chain body source chain)
    (first : source.ShapedWithin levels) : chain.Read levels := by
  have lineless : ∀ line, line ∉ chain.lines := by simp [chain_ok.lines_eq]
  refine ⟨Compartment.shapedWithin_iff.2 ⟨fun line mem => absurd mem (lineless line),
    chain_ok.relations, chain_ok.chained.2, chain_ok.classifiers yields first⟩, ?_⟩
  exact fun line mem => absurd mem (lineless line)

theorem slots_read (yields : body.Yields (Classifier.ShapedWithin levels)) {s rest : List Char}
    {compartment : Compartment} (read : slots body s = .ok (compartment, rest)) :
    compartment.Read levels :=
  slots_induction yields (textLine_read levels) (Chain.read yields) Compartment.Read.append read

/-- The name takes the place of the header among the lines, and may be empty. -/
theorem ofCompartments_shapedWithin {parts : List Compartment} (something : parts ≠ [])
    (all : ∀ part ∈ parts, part.Read levels) :
    (Classifier.ofCompartments parts).ShapedWithin (levels + 1) := by
  fun_cases Classifier.ofCompartments parts with
  | case1 => exact absurd rfl something
  | case2 first rest lineless =>
      obtain ⟨-, others⟩ := List.forall_mem_cons.1 all
      refine ⟨⟨isUpper_defaultKind, first, rest, rfl, ?_, ?_, fun part mem => (others part mem).lines⟩,
        Nat.succ_pos levels, fun part mem => (all part mem).shaped⟩
      · rw [lineless]
        rfl
      · rw [lineless]
        exact List.forall_mem_nil _
  | case3 first rest header lines written kind name same =>
      obtain ⟨before, others⟩ := List.forall_mem_cons.1 all
      have shaped := Compartment.shapedWithin_iff.1 before.shaped
      have filled := before.lines
      rw [written, List.forall_mem_cons] at shaped filled
      obtain ⟨upper, line⟩ := readHeader_ok shaped.1.1
      rw [same] at upper line
      refine ⟨⟨upper, _, rest, rfl, rfl, filled.2, fun part mem => (others part mem).lines⟩,
        Nat.succ_pos levels, List.forall_mem_cons.2 ⟨?_, fun part mem => (others part mem).shaped⟩⟩
      exact Compartment.shapedWithin_iff.2 ⟨List.forall_mem_cons.2 ⟨line, shaped.1.2⟩, shaped.2⟩

theorem classifier_shapedWithin (levels : Nat) :
    (classifier levels).Yields (Classifier.ShapedWithin levels) := by
  apply classifier_yields
  intro levels yields parts something each
  apply ofCompartments_shapedWithin something
  intro part mem
  obtain ⟨text, left, read⟩ := each part mem
  exact slots_read yields read

theorem document_read {s : List Char} {root : Compartment} (read : document s = .ok root) :
    root.Read nestingLimit := by
  obtain ⟨rest, found, -⟩ := exists_of_document read
  exact slots_read (classifier_shapedWithin nestingLimit) found

/-- In what is read of an accepted text no line of the outermost compartment is empty. Every
compartment in it is well-formed, and no classifier in it stands inside more than 99 others. -/
theorem ofText?_shape {text : String} {root : Compartment} (read : ofText? text = .ok root) :
    (∀ line ∈ root.lines, line ≠ "") ∧
      ∀ path compartment, root.follow? path = some compartment →
        compartment.WellFormed ∧ (compartment.classifiers ≠ [] → path.length ≤ 99) := by
  have shape := document_read (ofText?_eq_ok_iff.1 read)
  refine ⟨shape.lines, fun path compartment leads => ?_⟩
  obtain ⟨ok, less⟩ := shape.shaped path compartment leads
  exact ⟨ok, fun some => Nat.le_of_lt_succ (less some)⟩

/-- A classifier with a type tag around a chain, and a classifier without a name. -/
theorem ofText?_shape_package :
    ∃ root inner, ofText? "shop; [<package> cart|[item] 1 <:- n [price]; [ ]|]" = .ok root ∧
      root.lines = ["shop"] ∧ root.follow? [⟨0, 1⟩] = some inner ∧
      inner.classifiers.map Classifier.name = ["item", "price", ""] ∧
      inner.relations = [⟨"<:-", "item", "price", "1", "n"⟩] ∧ inner.WellFormed := by
  have found : (ofText? "shop; [<package> cart|[item] 1 <:- n [price]; [ ]|]").toOption.map
      (fun root => (root.lines, (root.follow? [⟨0, 1⟩]).map fun inner =>
        (inner.classifiers.map Classifier.name, inner.relations))) =
      some (["shop"], some (["item", "price", ""], [⟨"<:-", "item", "price", "1", "n"⟩])) := by
    decide +kernel
  cases read : ofText? "shop; [<package> cart|[item] 1 <:- n [price]; [ ]|]" with
  | error diagnostic =>
      rw [read] at found
      cases found
  | ok root =>
      rw [read] at found
      obtain ⟨lines, below⟩ := Prod.mk.inj (Option.some.inj found)
      obtain ⟨inner, leads, same⟩ := Option.map_eq_some_iff.1 below
      obtain ⟨names, relations⟩ := Prod.mk.inj same
      exact ⟨root, inner, rfl, lines, leads, names, relations,
        ((ofText?_shape read).2 _ inner leads).1⟩

end ClassDiagram.Draft
