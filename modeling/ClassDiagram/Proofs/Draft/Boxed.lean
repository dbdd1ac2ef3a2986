import ClassDiagram.Proofs.Draft.Joined
import ClassDiagram.Proofs.Draft.Levels

set_option autoImplicit false

namespace ClassDiagram.Draft

open Text (isWhite isGap isSeparator endsRun cutRun run afterRun escape unescape bare IsTrimmed)

/-- A name in which nothing has a meaning of its own: neither the marks of the text, nor an escape,
nor a type tag. -/
structure IsPlainName (name : List Char) : Prop where
  something : name ≠ []
  trimmed : IsTrimmed name
  unmarked : ∀ c ∈ name, endsRun c = false
  slashless : '\\' ∉ name
  tagless : '<' ∉ name

namespace IsPlainName

variable {name : List Char}

theorem escape_eq (plain : IsPlainName name) : escape name = name := by
  apply Text.escape_eq_self
  intro c mem
  exact (Bool.or_eq_false_iff.1 (plain.unmarked c mem)).1

theorem cutRun_bar (plain : IsPlainName name) (next : List Char) :
    cutRun (name ++ '|' :: next) = (name, '|' :: next) := by
  have inside : ∀ c ∈ name, isSeparator c = false := by
    intro c mem
    exact (Bool.or_eq_false_iff.1 (plain.unmarked c mem)).2
  have stop : ∀ c ∈ ('|' :: next).head?, endsRun c = true := by
    rintro c ⟨⟩
    decide
  have cut := Text.cutRun_escape inside stop fun slash =>
    absurd (List.mem_of_getLast? slash) plain.slashless
  rwa [plain.escape_eq] at cut

theorem textLine_eq (plain : IsPlainName name) :
    textLine name = ⟨[String.ofList name], [], []⟩ := by
  have trim : Text.trim name = name := by
    have around := plain.trimmed.trim_append [] [] rfl rfl
    rwa [List.append_nil, List.nil_append] at around
  have line : unescape name = name := by
    have read := Text.unescape_escape name
    rwa [plain.escape_eq] at read
  rw [textLine, trim, line]
  cases name with
  | nil => exact absurd rfl plain.something
  | cons c u => rfl

theorem cutTag?_eq (plain : IsPlainName name) : cutTag? name = none := by
  cases found : cutTag? name with
  | none => rfl
  | some parts =>
      obtain ⟨before, whole, -⟩ := cutTag?_eq_some found
      exact absurd (by simp [whole]) plain.tagless

theorem ofCompartments_eq (plain : IsPlainName name) (parts : List Compartment) :
    Classifier.ofCompartments (⟨[String.ofList name], [], []⟩ :: parts) =
      ⟨defaultKind, String.ofList name, ⟨[String.ofList name], [], []⟩ :: parts⟩ := by
  have header : readHeader (String.ofList name) = (defaultKind, String.ofList name) := by
    rw [readHeader, String.toList_ofList, plain.cutTag?_eq]
  simp only [Classifier.ofCompartments, header]

/-- A plain name in front of a bar is a compartment of one line. -/
theorem slots_bar (plain : IsPlainName name) (body : BodyReader) (next : List Char) :
    slots body (name ++ '|' :: next) = .ok (⟨[String.ofList name], [], []⟩, '|' :: next) := by
  obtain ⟨c, u, rfl⟩ := List.exists_cons_of_ne_nil plain.something
  have goes := plain.unmarked c List.mem_cons_self
  have dark : isWhite c = false := plain.trimmed.head c rfl
  have space : Text.isSpace c = false := by
    cases space : Text.isSpace c with
    | false => rfl
    | true =>
        rw [Text.isWhite_of_isGap (Text.isGap_of_isSpace space)] at dark
        cases dark
  have kept : isSlotGap c = false := by
    rw [isSlotGap, space, (Bool.or_eq_false_iff.1 goes).2]
    rfl
  have markless : ¬ (c = ']' ∨ c = '|') := by
    rintro (rfl | rfl) <;> cases goes
  have other : c ≠ '[' := by
    rintro rfl
    cases goes
  have cut := plain.cutRun_bar next
  have boundary : atBoundary (skipSeparators ('|' :: next)) = true := rfl
  rw [List.cons_append] at cut ⊢
  rw [slots_line kept (atBoundary_of_dark dark markless _) other, slotsFromLine, run, afterRun, cut,
    plain.textLine_eq, endsSlot, atBoundary_of_mark (.inr rfl), Bool.or_true, if_pos rfl,
    slots_end boundary, Outcome.andThen_ok, Compartment.append_empty]
  rfl

end IsPlainName

variable {body : BodyReader} {name s rest : List Char} {root : Compartment}

/-- Behind a bar a compartment is read as anywhere, unless it begins with stray white characters. -/
theorem slots_skipGap (body : BodyReader) (free : ¬ Stray s) :
    Outcome.Agree SameGap (slots body (skipGap s)) (slots body s) := by
  have whole : s.takeWhile isGap ++ skipGap s = s := List.takeWhile_append_dropWhile
  have agree := slots_blank_append body (isBlank_of_isGap List.all_takeWhile) (whole.symm ▸ free)
  rw [whole] at agree
  exact agree.symm

/-- What stands behind the opening bracket of a classifier with the given name and body. -/
def boxed (name s : List Char) : List Char := name ++ '|' :: '\n' :: (s ++ '\n' :: [']'])

theorem slots_before_bracket (stays : body.Stays ('\n' :: [']']))
    (read : slots body s = .ok (root, rest)) (whole : Exhausted rest) :
    ∃ left, slots body (s ++ '\n' :: [']']) = .ok (root, left) ∧ skipGap left = [']'] := by
  have bracket : slots body [']'] = .ok (.empty, [']']) := slots_end rfl
  obtain ⟨left, both, same⟩ := slots_append_feed stays (.of_atBoundary rfl s) read whole bracket
  rw [Compartment.append_empty] at both
  exact ⟨left, both, same⟩

theorem compartments_boxed (plain : IsPlainName name) (body : BodyReader) (s : List Char) :
    compartments body (boxed name s) =
      (compartments body (skipGap (s ++ '\n' :: [']']))).andThen fun parts rest =>
        .ok (⟨[String.ofList name], [], []⟩ :: parts, rest) := by
  rw [compartments_eq, boxed, plain.slots_bar body, Outcome.andThen_ok]
  rfl

/-- A body that is read by itself is read between a bar and a bracket. -/
theorem closed_boxed (stays : body.Stays ('\n' :: [']'])) (plain : IsPlainName name)
    (read : slots body s = .ok (root, rest)) (whole : Exhausted rest) :
    closed body (boxed name s) =
      .ok (⟨defaultKind, String.ofList name, [⟨[String.ofList name], [], []⟩, root]⟩, []) := by
  obtain ⟨left, both, bracket⟩ := slots_before_bracket stays read whole
  obtain ⟨left', inside, same⟩ :=
    (slots_skipGap body (not_stray_of_slots both)).symm.exists_of_ok both
  rw [bracket] at same
  have parts := compartments_boxed plain body s
  rw [compartments_end inside (by simp [same]), Outcome.andThen_ok] at parts
  rw [closed_bracket parts same, plain.ofCompartments_eq]

/-- A body that is refused by itself is refused between a bar and a bracket, for the same cause. -/
theorem closed_boxed_error (stays : body.Stays ('\n' :: [']'])) (plain : IsPlainName name)
    {fault : Fault} (refused : slots body s = .error fault)
    (closing : fault.cause ≠ .unclosedClassifier) (free : ¬ Stray (s ++ '\n' :: [']'])) :
    ∃ found, closed body (boxed name s) = .error found ∧ found.cause = fault.cause := by
  have kept := slots_kept stays s
  rw [refused] at kept
  have agree := (slots_skipGap body free).symm
  generalize slots body (s ++ '\n' :: [']']) = longer at kept agree
  generalize inside : slots body (skipGap (s ++ '\n' :: [']'])) = skipped at agree
  cases kept with
  | unclosed cause _ => exact absurd cause closing
  | error =>
      cases agree with
      | @error _ found same =>
          refine ⟨found, ?_, same.symm⟩
          rw [closed_eq, compartments_boxed plain, compartments_eq, inside]
          rfl

/-- A classifier with nothing in front of it and nothing behind it is a compartment. -/
theorem slots_bracket {classifier : Classifier} {inner : List Char}
    (read : body.read inner = .ok (classifier, rest))
    (ended : rest = [] ∨ ∃ left, rest = ']' :: left) :
    slots body ('[' :: inner) = .ok (⟨[], [classifier], []⟩, rest) := by
  have chain := slot_chain read
  rcases ended with rfl | ⟨left, rfl⟩
  · rw [links_blank rfl] at chain
    exact slots_last (s := '[' :: inner) rfl chain rfl rfl
  · have nothing : run (']' :: left) = [] := by rw [run, Text.cutRun_stop (by decide)]
    rw [links_blank (by rw [nothing]; rfl)] at chain
    exact slots_last (s := '[' :: inner) rfl chain rfl rfl

theorem closed_single (read : slots body s = .ok (root, ']' :: rest)) :
    closed body s = .ok (.ofCompartments [root], rest) := by
  have bracket : skipGap (']' :: rest) = ']' :: rest := rfl
  exact closed_bracket (compartments_end read (by simp [bracket])) bracket

/-- Brackets may be nested as deep as there are levels. -/
theorem exists_of_nested {n levels : Nat} (within : n < levels) (rest : List Char) :
    ∃ found, (classifier levels).read
      (List.replicate n '[' ++ (List.replicate (n + 1) ']' ++ rest)) = .ok (found, rest) := by
  induction n generalizing levels rest with
  | zero =>
      obtain ⟨levels, rfl⟩ := Nat.exists_eq_add_one_of_ne_zero (Nat.ne_of_gt within)
      have empty : slots (classifier levels) (']' :: rest) = .ok (.empty, ']' :: rest) :=
        slots_end rfl
      exact ⟨_, closed_single empty⟩
  | succ n ih =>
      obtain ⟨levels, rfl⟩ := Nat.exists_eq_add_one_of_ne_zero (Nat.ne_zero_of_lt within)
      obtain ⟨found, read⟩ := ih (Nat.lt_of_succ_lt_succ within) (']' :: rest)
      have inner := closed_single (slots_bracket read (.inr ⟨rest, rfl⟩))
      have shape : List.replicate (n + 2) ']' ++ rest =
          List.replicate (n + 1) ']' ++ ']' :: rest := by
        rw [List.replicate_succ', List.append_assoc, List.singleton_append]
      rw [List.replicate_succ, shape]
      exact ⟨_, inner⟩

theorem document_bracket {classifier : Classifier} {inner : List Char}
    (read : (Draft.classifier nestingLimit).read inner = .ok (classifier, [])) :
    document ('[' :: inner) = .ok ⟨[], [classifier], []⟩ :=
  document_end (slots_bracket read (.inl rfl)) rfl

theorem document_bracket_error {fault : Fault} {inner : List Char}
    (refused : (classifier nestingLimit).read inner = .error fault) :
    document ('[' :: inner) = .error fault := by
  have slot_error : slot (classifier nestingLimit) ('[' :: inner) = .error fault := by
    simp only [slot_eq, refused, Outcome.andThen_error]
  have slots_error : slots (classifier nestingLimit) ('[' :: inner) = .error fault := by
    rw [slots_step (s := '[' :: inner) rfl]
    exact congrArg (Outcome.andThen · _) slot_error
  rw [document.eq_def, slots_error]

/-- Within a classifier a text is read as it is by itself: its root is the compartment behind the
bar. Only the level that the classifier takes may be missing. -/
theorem ofText?_boxed {name text : String} {root : Compartment} (plain : IsPlainName name.toList)
    (accepted : ofText? text = .ok root) :
    ((∀ part, part <+: text.toList → (bare part).count '[' ≤ (bare part).count ']' + 99) →
        ofText? ("[" ++ name ++ "|\n" ++ text ++ "\n]") =
          .ok ⟨[], [⟨"CLASS", name, [⟨[name], [], []⟩, root]⟩], []⟩) ∧
      ((∃ part, part <+: text.toList ∧ (bare part).count '[' = (bare part).count ']' + 100) →
        ∃ diagnostic, ofText? ("[" ++ name ++ "|\n" ++ text ++ "\n]") = .error diagnostic ∧
          diagnostic.message = Cause.nestedTooDeeply.message ∧
          diagnostic.code = some Cause.nestedTooDeeply.code) := by
  have letters : ("[" ++ name ++ "|\n" ++ text ++ "\n]").toList =
      '[' :: boxed name.toList text.toList := by
    simp [boxed, String.toList_append]
  have stays := classifier_stays 99 [']']
  rw [ofText?_eq_ok_iff] at accepted
  obtain ⟨rest, read, whole⟩ := exists_of_document accepted
  constructor
  · intro shallow
    have inner := closed_boxed stays plain (slots_of_shallow read shallow) whole
    rw [String.ofList_toList] at inner
    rw [ofText?_eq_ok_iff, letters]
    exact document_bracket inner
  · rintro ⟨part, first, deep⟩
    have missing : ¬ Shallow 99 text.toList := by
      intro shallow
      have opened := shallow part first
      omega
    obtain ⟨fault, refused, cause⟩ := exists_tooDeep_of_not_shallow read whole missing
    obtain ⟨left, both, -⟩ := slots_before_bracket (classifier_stays 100 [']']) read whole
    obtain ⟨found, inner, same⟩ := closed_boxed_error stays plain refused (by simp [cause])
      (not_stray_of_slots both)
    have outer : document ('[' :: boxed name.toList text.toList) = .error found :=
      document_bracket_error inner
    rw [← letters] at outer
    refine ⟨_, ofText?_eq_error_iff.2 ⟨found, outer, rfl⟩, ?_, ?_⟩
    · rw [Fault.toDiagnostic, same, cause]
    · rw [Fault.toDiagnostic, same, cause]

/-- A body that ends in a backslash, and one that opens as many brackets as may be open. -/
theorem ofText?_boxed_of_full_depth :
    (∃ root, ofText? "[A|[B]] -> [C]\nnote \\" = .ok root ∧
      ofText? ("[" ++ "Shop" ++ "|\n" ++ "[A|[B]] -> [C]\nnote \\" ++ "\n]") =
        .ok ⟨[], [⟨"CLASS", "Shop", [⟨["Shop"], [], []⟩, root]⟩], []⟩) ∧
    ∃ root deep, ofText? deep = .ok root ∧
      deep = String.ofList (List.replicate 100 '[' ++ List.replicate 100 ']') ∧
      ∃ diagnostic, ofText? ("[" ++ "Shop" ++ "|\n" ++ deep ++ "\n]") = .error diagnostic ∧
        diagnostic.message = Cause.nestedTooDeeply.message ∧
        diagnostic.code = some Cause.nestedTooDeeply.code := by
  have unmarked : "Shop".toList.all (fun c => !endsRun c) = true := by decide +kernel
  have plain : IsPlainName "Shop".toList := by
    refine ⟨by decide +kernel, by decide +kernel, ?_, by decide +kernel, by decide +kernel⟩
    intro c mem
    simpa using List.all_eq_true.1 unmarked c mem
  constructor
  · have few : (bare "[A|[B]] -> [C]\nnote \\".toList).length = 7 := by decide +kernel
    have read : (ofText? "[A|[B]] -> [C]\nnote \\").isOk = true := by decide +kernel
    obtain ⟨root, accepted⟩ := exists_of_isOk read
    refine ⟨root, accepted, (ofText?_boxed plain accepted).1 ?_⟩
    intro part first
    have marks := (Text.bare_prefix first).length_le
    have brackets := List.count_le_length (a := '[') (l := bare part)
    omega
  · generalize whole : String.ofList (List.replicate 100 '[' ++ List.replicate 100 ']') = deep
    obtain ⟨found, read⟩ := exists_of_nested (show 99 < nestingLimit by decide) []
    have accepted : ofText? deep = .ok ⟨[], [found], []⟩ := by
      rw [ofText?_eq_ok_iff, ← whole, String.toList_ofList]
      simpa [List.replicate_succ] using document_bracket read
    refine ⟨_, deep, accepted, rfl, (ofText?_boxed plain accepted).2 ?_⟩
    refine ⟨List.replicate 100 '[', ?_, by decide +kernel⟩
    rw [← whole, String.toList_ofList]
    exact List.prefix_append _ _

end ClassDiagram.Draft
