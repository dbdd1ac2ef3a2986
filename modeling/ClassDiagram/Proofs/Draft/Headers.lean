import ClassDiagram.Proofs.Draft.Written
import ClassDiagram.Proofs.Tree.Image

set_option autoImplicit false

namespace ClassDiagram.Draft

open Text (Trims trim)
open Written (Untagged)

/-- The first stretch of the form `<[a-z]*>` in a header, with what stands on both sides of it. -/
structure FirstTag (header before tag rest : List Char) : Prop where
  whole : header = before ++ '<' :: (tag ++ '>' :: rest)
  letters : ∀ c ∈ tag, isTagLetter c = true
  first : ∀ front letters back, header = front ++ '<' :: (letters ++ '>' :: back) →
    (∀ c ∈ letters, isTagLetter c = true) → before.length ≤ front.length

structure LeadingTag (header tag rest : List Char) : Prop where
  whole : header = '<' :: (tag ++ '>' :: rest)
  something : tag ≠ []
  letters : ∀ c ∈ tag, isTagLetter c = true

theorem LeadingTag.firstTag {header tag rest : List Char} (leading : LeadingTag header tag rest) :
    FirstTag header [] tag rest :=
  ⟨leading.whole, leading.letters, fun _ _ _ _ _ => Nat.zero_le _⟩

variable {s before tag rest : List Char}

theorem cutTag?_here (letters : ∀ c ∈ tag, isTagLetter c = true) (rest : List Char) :
    cutTag? ('<' :: (tag ++ '>' :: rest)) = some (tag, rest) := by
  have stop : ∀ c ∈ ('>' :: rest).head?, isTagLetter c = false := by
    rintro c ⟨⟩
    decide
  rw [cutTag?, Text.dropWhile_run letters stop, Text.takeWhile_run letters stop]
  rfl

theorem cutTag?_further {c : Char} {r : List Char}
    (elsewhere : ∀ tag rest, (∀ d ∈ tag, isTagLetter d = true) →
      c :: r ≠ '<' :: (tag ++ '>' :: rest)) : cutTag? (c :: r) = cutTag? r := by
  rw [cutTag?]
  split
  · next opens =>
      split
      · next rest closes =>
          have cut := List.takeWhile_append_dropWhile (p := isTagLetter) (l := r)
          rw [closes] at cut
          exact absurd (by rw [opens, cut]) (elsewhere _ rest (List.all_eq_true.1 List.all_takeWhile))
      · rfl
  · rfl

theorem FirstTag.cutTag?_eq (found : FirstTag s before tag rest) :
    cutTag? s = some (tag, rest) := by
  obtain ⟨rfl, letters, first⟩ := found
  induction before with
  | nil => exact cutTag?_here letters rest
  | cons c before ih =>
      rw [List.cons_append, cutTag?_further, ih]
      · intro front others back same all
        have behind := first (c :: front) others back (congrArg (c :: ·) same) all
        exact Nat.le_of_succ_le_succ behind
      · intro others back all same
        exact absurd (first [] others back same all) (Nat.not_succ_le_zero _)

theorem exists_firstTag (cut : cutTag? s = some (tag, rest)) :
    ∃ before, FirstTag s before tag rest := by
  induction s with
  | nil => cases cut
  | cons c r ih =>
      by_cases here : ∃ tag rest, (∀ d ∈ tag, isTagLetter d = true) ∧
          c :: r = '<' :: (tag ++ '>' :: rest)
      · obtain ⟨others, back, letters, whole⟩ := here
        rw [whole, cutTag?_here letters] at cut
        cases cut
        exact ⟨[], whole, letters, fun _ _ _ _ _ => Nat.zero_le _⟩
      · have elsewhere : ∀ tag rest, (∀ d ∈ tag, isTagLetter d = true) →
            c :: r ≠ '<' :: (tag ++ '>' :: rest) :=
          fun others back letters same => here ⟨others, back, letters, same⟩
        rw [cutTag?_further elsewhere] at cut
        obtain ⟨before, whole, letters, first⟩ := ih cut
        refine ⟨c :: before, congrArg (c :: ·) whole, letters, fun front others back same all => ?_⟩
        cases front with
        | nil => exact absurd same (elsewhere others back all)
        | cons d front =>
            exact Nat.succ_le_succ (first front others back (List.cons.inj same).2 all)

theorem cutTag?_eq_none_iff : cutTag? s = none ↔ Untagged s := by
  constructor
  · intro none
    induction s with
    | nil => exact fun front letters back same => absurd same (by simp)
    | cons c r ih =>
        have elsewhere : ∀ tag rest, (∀ d ∈ tag, isTagLetter d = true) →
            c :: r ≠ '<' :: (tag ++ '>' :: rest) := by
          intro tag rest letters same
          rw [same, cutTag?_here letters] at none
          cases none
        rw [cutTag?_further elsewhere] at none
        intro front letters back same all
        cases front with
        | nil => exact elsewhere letters back all same
        | cons d front => exact ih none front letters back (List.cons.inj same).2 all
  · intro plain
    cases cut : cutTag? s with
    | none => rfl
    | some found =>
        obtain ⟨before, whole, letters, -⟩ := exists_firstTag cut
        exact absurd letters (plain before found.1 found.2 whole)

theorem readHeader_of_untagged {header : String} (plain : Untagged header.toList) :
    readHeader header = (defaultKind, header) := by
  rw [readHeader, cutTag?_eq_none_iff.2 plain]

theorem FirstTag.readHeader_eq {header : String}
    (found : FirstTag header.toList before tag rest) :
    readHeader header = (String.ofList (tag.map Char.toUpper), String.ofList (trim rest)) := by
  rw [readHeader, found.cutTag?_eq]

/-- With its tag a header loses at least the two angle brackets. -/
theorem FirstTag.trim_ne (found : FirstTag s before tag rest) : trim rest ≠ s := by
  intro same
  obtain ⟨front, back, -, -, whole⟩ := (Text.trims_trim rest).blanks
  have short := congrArg List.length whole
  have long := congrArg List.length found.whole
  rw [same] at short
  simp only [List.length_append, List.length_cons] at short long
  omega

/-- The classifier whose first compartment is `first` below the given header. -/
def Classifier.under (header : String) (first : Compartment) (more : List Compartment) :
    Classifier :=
  .ofCompartments ({ first with lines := header :: first.lines } :: more)

theorem Classifier.under_eq (header : String) (first : Compartment) (more : List Compartment) :
    Classifier.under header first more =
      ⟨(readHeader header).1, (readHeader header).2,
        { first with lines := (readHeader header).2 :: first.lines } :: more⟩ := rfl

/-- What is documented of headers: a tag in front is the type, in upper case, and what follows it is
the name; without such a tag the header itself is the name, under the default type. -/
structure TakesLeadingTag (header kind name : List Char) : Prop where
  tagged : ∀ tag rest, LeadingTag header tag rest →
    kind = tag.map Char.toUpper ∧ Trims rest name
  untagged : (∀ tag rest, ¬ LeadingTag header tag rest) →
    kind = defaultKind.toList ∧ name = header

theorem takesLeadingTag_iff (header : String) :
    TakesLeadingTag header.toList (readHeader header).1.toList (readHeader header).2.toList ↔
      (∃ tag rest, LeadingTag header.toList tag rest) ∨ Untagged header.toList := by
  constructor
  · intro law
    by_cases leading : ∃ tag rest, LeadingTag header.toList tag rest
    · exact .inl leading
    · right
      obtain ⟨-, named⟩ := law.untagged fun tag rest tagged => leading ⟨tag, rest, tagged⟩
      rw [← cutTag?_eq_none_iff]
      cases cut : cutTag? header.toList with
      | none => rfl
      | some found =>
          obtain ⟨before, first⟩ := exists_firstTag cut
          rw [first.readHeader_eq, String.toList_ofList] at named
          exact absurd named first.trim_ne
  · rintro (⟨tag, rest, leading⟩ | plain)
    · rw [leading.firstTag.readHeader_eq, String.toList_ofList, String.toList_ofList]
      refine ⟨fun others back other => ?_, fun none => absurd leading (none tag rest)⟩
      obtain ⟨rfl, rfl⟩ := Prod.mk.inj (Option.some.inj
        (leading.firstTag.cutTag?_eq.symm.trans other.firstTag.cutTag?_eq))
      exact ⟨rfl, Text.trims_trim rest⟩
    · rw [readHeader_of_untagged plain]
      refine ⟨fun tag rest leading => ?_, fun _ => ⟨rfl, rfl⟩⟩
      exact absurd leading.letters (plain [] tag rest leading.whole)

/-- Classifiers of different names are never taken for one another. -/
theorem exists_classifier?_of_ne {draft : Compartment} {classifier other : Classifier}
    (mem : classifier ∈ draft.classifiers) (otherMem : other ∈ draft.classifiers)
    (apart : classifier.name ≠ other.name) (number : Nat) :
    ∃ kept otherKept, (Tree.Compartment.ofDraft number draft).classifier? classifier.name = some kept ∧
      (Tree.Compartment.ofDraft number draft).classifier? other.name = some otherKept ∧
      kept ≠ otherKept := by
  have survives : ∀ node ∈ draft.classifiers,
      ∃ kept, (Tree.Compartment.ofDraft number draft).classifier? node.name = some kept := by
    intro node found
    rw [← Option.isSome_iff_exists, Tree.Compartment.classifier?_isSome_iff,
      Tree.mem_ofDraft_names_iff]
    exact List.mem_map_of_mem found
  obtain ⟨kept, found⟩ := survives classifier mem
  obtain ⟨otherKept, otherFound⟩ := survives other otherMem
  refine ⟨kept, otherKept, found, otherFound, ?_⟩
  rintro rfl
  exact apart ((Tree.Compartment.name_of_classifier? found).symm.trans
    (Tree.Compartment.name_of_classifier? otherFound))

/-- The name always stands in the place of the header, above what stood below it. Type and name are
those that are documented exactly if the header begins with a tag or has none; otherwise the first
stretch of the form `<[a-z]*>` is taken for the tag, and the name is what stands behind it. Different
headers without any tag give different names, which no final form merges. -/
theorem Classifier.under_header (header : String) (first : Compartment) (more : List Compartment) :
    (Classifier.under header first more).compartments =
        { first with lines := (Classifier.under header first more).name :: first.lines } :: more ∧
      (TakesLeadingTag header.toList (Classifier.under header first more).kind.toList
          (Classifier.under header first more).name.toList ↔
        (∃ tag rest, LeadingTag header.toList tag rest) ∨ Untagged header.toList) ∧
      (∀ before tag rest, FirstTag header.toList before tag rest →
        (Classifier.under header first more).kind.toList = tag.map Char.toUpper ∧
          Trims rest (Classifier.under header first more).name.toList) ∧
      ∀ other otherFirst otherMore, Untagged header.toList → Untagged other.toList →
        header ≠ other → ∀ number draft, Classifier.under header first more ∈ draft.classifiers →
          Classifier.under other otherFirst otherMore ∈ draft.classifiers →
          ∃ kept otherKept,
            (Tree.Compartment.ofDraft number draft).classifier? header = some kept ∧
              (Tree.Compartment.ofDraft number draft).classifier? other = some otherKept ∧
              kept ≠ otherKept := by
  refine ⟨rfl, takesLeadingTag_iff header, fun before tag rest found => ?_, ?_⟩
  · rw [Classifier.under_eq, found.readHeader_eq]
    dsimp only
    rw [String.toList_ofList, String.toList_ofList]
    exact ⟨rfl, Text.trims_trim rest⟩
  · intro other otherFirst otherMore plain otherPlain apart number draft mem otherMem
    have name : (Classifier.under header first more).name = header := by
      rw [Classifier.under_eq, readHeader_of_untagged plain]
    have otherName : (Classifier.under other otherFirst otherMore).name = other := by
      rw [Classifier.under_eq, readHeader_of_untagged otherPlain]
    have kept := exists_classifier?_of_ne mem otherMem (by rwa [name, otherName]) number
    rwa [name, otherName] at kept

/-- The arguments of two generic names are taken for type tags: both names become empty, and the
final form merges the two classifiers. -/
theorem ofText?_generic_names :
    ∃ root, ofText? "[List<int>]; [Set<int>]" = .ok root ∧
      root.classifiers.map (fun classifier => (classifier.kind, classifier.name)) =
        [("INT", ""), ("INT", "")] ∧
      (Tree.ofDraft root).classifiers.map Tree.Classifier.name = [""] ∧
      ∀ tag rest, ¬ LeadingTag "List<int>".toList tag rest := by
  have found : (ofText? "[List<int>]; [Set<int>]").toOption.map (fun root =>
      root.classifiers.map fun classifier => (classifier.kind, classifier.name)) =
      some [("INT", ""), ("INT", "")] := by decide +kernel
  cases read : ofText? "[List<int>]; [Set<int>]" with
  | error diagnostic =>
      rw [read] at found
      cases found
  | ok root =>
      rw [read] at found
      have kinds := Option.some.inj found
      have names : root.classifiers.map Classifier.name = ["", ""] := by
        simpa [Function.comp_def] using congrArg (List.map Prod.snd) kinds
      refine ⟨root, rfl, kinds, ?_, fun tag rest leading => absurd leading.whole (by simp)⟩
      rw [Tree.ofDraft_eq, ← List.perm_singleton, List.perm_ext_iff_of_nodup
        (Tree.ofDraft_names_nodup 0 root) (List.nodup_singleton "")]
      intro name
      rw [Tree.mem_ofDraft_names_iff, names]
      simp

end ClassDiagram.Draft
