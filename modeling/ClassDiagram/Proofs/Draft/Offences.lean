import ClassDiagram.Proofs.Draft.Blanks
import ClassDiagram.Proofs.Draft.Faults
import ClassDiagram.Proofs.Draft.Passage

set_option autoImplicit false

namespace ClassDiagram.Draft

open Text (isBlank isGap isSpace isSeparator isDelimiter cutRun run afterRun bare Loose)

/-! ### Where constructs begin and end -/

def EndsClassifier (s : List Char) : Prop :=
  ∃ front content, s = front ++ '[' :: content ++ [']'] ∧ front.getLast? ≠ some '\\' ∧
    Content content

/-- Behind the text a slot may begin: nothing is in front of it, or a bracket or bar that is not
escaped, or a separator, with blanks in between. -/
def BeginsSlot (s : List Char) : Prop :=
  ∃ front gap, s = front ++ gap ∧ (∀ c ∈ gap, isGap c = true ∨ isSeparator c = true) ∧
    (front = [] ∨ (∃ c ∈ gap, isSeparator c = true) ∨
      ∃ base mark, front = base ++ [mark] ∧ (mark = '[' ∨ mark = '|') ∧
        base.getLast? ≠ some '\\')

/-- Classifiers with links between them. No further link follows in `rest`. -/
inductive IsChain : List Char → List Char → Prop
  | last {content rest : List Char} (inside : Content content)
      (ended : isBlank (run rest) = true) : IsChain ('[' :: content ++ [']']) rest
  | link {content link chain rest : List Char} (inside : Content content)
      (text : isBlank link = false) (arrow : link.any isShaft = true)
      (whole : cutRun (link ++ (chain ++ rest)) = (link, chain ++ rest))
      (more : IsChain chain rest) : IsChain ('[' :: content ++ ']' :: (link ++ chain)) rest

/-- A whole line of text or a whole chain, with `rest` behind it. -/
inductive IsSlot : List Char → List Char → Prop
  | line {line rest : List Char} (something : line ≠ [])
      (whole : cutRun (line ++ rest) = (line, rest)) : IsSlot line rest
  | chain {chain rest : List Char} (whole : IsChain chain rest) : IsSlot chain rest

/-! ### What may be wrong -/

/-- `marked` is what is wrong for a cause, with `before` in front of it and `after` behind it, when
`limit` classifiers may be open at once. -/
inductive Offence (limit : Nat) : Cause → List Char → List Char → List Char → Prop
  /-- From the last bracket that is never closed to the end of the text. -/
  | unclosedClassifier {before inner : List Char} (unescaped : before.getLast? ≠ some '\\')
      (innermost : Balanced (bare inner)) :
      Offence limit .unclosedClassifier before ('[' :: inner) []
  /-- The run of text behind a classifier, with no classifier behind it. -/
  | missingTarget {before link after : List Char} (source : EndsClassifier before)
      (whole : cutRun (link ++ after) = (link, after)) (text : isBlank link = false)
      (other : after.head? ≠ some '[') : Offence limit .missingTarget before link after
  /-- The run of text behind a classifier and the classifier behind it. -/
  | missingArrow {before link content after : List Char} (source : EndsClassifier before)
      (whole : cutRun (link ++ ('[' :: content ++ ']' :: after)) =
        (link, '[' :: content ++ ']' :: after))
      (text : isBlank link = false) (arrowless : '-' ∉ link ∧ '_' ∉ link)
      (target : Content content) :
      Offence limit .missingArrow before (link ++ ('[' :: content ++ [']'])) after
  /-- A bracket that opens where as many as allowed are open. -/
  | nestedTooDeeply {before after : List Char} (unescaped : before.getLast? ≠ some '\\')
      (depth : (bare before).count '[' = (bare before).count ']' + limit) :
      Offence limit .nestedTooDeeply before ['['] after
  /-- A bracket that closes, or a bar, where none is open. -/
  | unexpected {found : Char} {before after : List Char} (mark : found = ']' ∨ found = '|')
      (unescaped : before.getLast? ≠ some '\\') (balanced : Balanced (bare before)) :
      Offence limit (.unexpected found) before [found] after
  /-- The first character behind a slot and spaces, if it begins neither a separator nor, behind
  blanks, the end of a compartment. -/
  | missingSeparator {front slot spaces : List Char} {c : Char} {after : List Char}
      (begins : BeginsSlot front) (whole : IsSlot slot (spaces ++ c :: after))
      (blank : ∀ d ∈ spaces, isSpace d = true) (dark : isSpace c = false)
      (joined : isSeparator c = false) (inside : atBoundary (c :: after) = false) :
      Offence limit .missingSeparator (front ++ slot ++ spaces) [c] after

/-- The fault is an offence of its cause, which `text` holds from its start to its stop. A missing
separator is noticed before the character in its place is read. -/
def Fault.Offends (fault : Fault) (limit : Nat) (text : List Char) : Prop :=
  ∃ before marked after, text = before ++ (marked ++ after) ∧ fault.start = marked ++ after ∧
    fault.stop = (if fault.cause = .missingSeparator then fault.start else after) ∧
    Offence limit fault.cause before marked after

/-! ### Where reading stands -/

/-- Reading has come to `s` behind `before`, where `levels` of `limit` levels are still allowed. -/
structure Stands (limit levels : Nat) (before s : List Char) : Prop where
  loose : Loose before s
  depth : (bare before).count '[' + levels = (bare before).count ']' + limit

variable {limit levels : Nat} {before s rest : List Char}

theorem Stands.behind {read : List Char} (stands : Stands limit levels before (read ++ rest))
    (passes : Passes (read ++ rest) rest) : Stands limit levels (before ++ read) rest := by
  obtain ⟨read', whole, loose, balanced⟩ := passes
  obtain rfl : read = read' := List.append_cancel_right whole
  have even := balanced.count_eq
  have depth := stands.depth
  refine ⟨stands.loose.append loose, ?_⟩
  rw [Text.bare_append stands.loose.of_append, List.count_append, List.count_append]
  omega

theorem Stands.open {inner : List Char} (stands : Stands limit (levels + 1) before ('[' :: inner)) :
    Stands limit levels (before ++ ['[']) inner := by
  have unescaped : before.getLast? ≠ some '\\' := stands.loose.last (by decide)
  obtain ⟨opening, closing⟩ := count_bare_concat_open unescaped
  have depth := stands.depth
  refine ⟨.of_last (by rw [List.getLast?_concat]; decide) inner, ?_⟩
  omega

theorem Stands.run (stands : Stands limit levels before s) :
    Stands limit levels (before ++ run s) (afterRun s) := by
  have cut := Text.run_append_afterRun s
  apply Stands.behind
  · rwa [cut]
  · rw [cut]
    exact .run s

theorem Stands.dropWhile {p : Char → Bool}
    (plain : ∀ c, p c = true → isDelimiter c = false ∧ c ≠ '\\')
    (stands : Stands limit levels before s) :
    Stands limit levels (before ++ s.takeWhile p) (s.dropWhile p) := by
  have cut := List.takeWhile_append_dropWhile (p := p) (l := s)
  apply Stands.behind
  · rwa [cut]
  · rw [cut]
    exact .dropWhile plain s

theorem Stands.skipSeparators (stands : Stands limit levels before s) :
    Stands limit levels (before ++ s.takeWhile isSlotGap) (skipSeparators s) :=
  stands.dropWhile fun _ => plain_of_isSlotGap

theorem Stands.skipGap (stands : Stands limit levels before s) :
    Stands limit levels (before ++ s.takeWhile isGap) (skipGap s) :=
  stands.dropWhile fun _ => plain_of_isGap

theorem Stands.bracket {content : List Char}
    (stands : Stands limit levels before ('[' :: content ++ ']' :: rest))
    (inside : Content content) :
    Stands limit levels (before ++ ('[' :: content ++ [']'])) rest := by
  have shape : '[' :: content ++ ']' :: rest = ('[' :: content ++ [']']) ++ rest := by simp
  have passes := Passes.bracket inside rest
  rw [shape] at stands passes
  exact stands.behind passes

theorem Stands.unescaped {c : Char} (stands : Stands limit levels before (c :: s))
    (mark : isDelimiter c = true) : before.getLast? ≠ some '\\' :=
  stands.loose.last mark

theorem EndsClassifier.of_stands {content : List Char}
    (stands : Stands limit levels before ('[' :: content ++ ']' :: rest))
    (inside : Content content) : EndsClassifier (before ++ ('[' :: content ++ [']'])) :=
  ⟨before, content, by simp, stands.unescaped (by decide), inside⟩

/-! ### Where slots begin -/

theorem BeginsSlot.append_gap (begins : BeginsSlot before) {gap : List Char}
    (skipped : ∀ c ∈ gap, isGap c = true ∨ isSeparator c = true) : BeginsSlot (before ++ gap) := by
  obtain ⟨front, gap', rfl, skipped', origin⟩ := begins
  refine ⟨front, gap' ++ gap, List.append_assoc .., ?_, ?_⟩
  · intro c mem
    exact (List.mem_append.1 mem).elim (skipped' c) (skipped c)
  · refine origin.imp_right (Or.imp_left ?_)
    rintro ⟨c, mem, separator⟩
    exact ⟨c, List.mem_append_left gap mem, separator⟩

theorem gap_or_separator_of_isSlotGap {c : Char} (skipped : isSlotGap c = true) :
    isGap c = true ∨ isSeparator c = true := by
  rw [isSlotGap, Bool.or_eq_true] at skipped
  exact skipped.imp_left Text.isGap_of_isSpace

theorem isSlotGap_of_mem_takeWhile {c : Char} (mem : c ∈ s.takeWhile isSlotGap) :
    isSlotGap c = true :=
  List.all_eq_true.1 List.all_takeWhile c mem

/-- Where a slot may begin it may also begin behind separators and spaces. -/
theorem BeginsSlot.append_skipped (begins : BeginsSlot before) (s : List Char) :
    BeginsSlot (before ++ s.takeWhile isSlotGap) :=
  begins.append_gap fun _ mem => gap_or_separator_of_isSlotGap (isSlotGap_of_mem_takeWhile mem)

theorem beginsSlot_of_separated (apart : separated s = true) (before : List Char) :
    BeginsSlot (before ++ s.takeWhile isSlotGap) := by
  refine ⟨before, _, rfl, ?_, .inr (.inl ?_)⟩
  · intro c mem
    exact gap_or_separator_of_isSlotGap (isSlotGap_of_mem_takeWhile mem)
  · exact List.any_eq_true.1 apart

theorem beginsSlot_of_mark {mark : Char} (kind : mark = '[' ∨ mark = '|')
    (unescaped : before.getLast? ≠ some '\\') : BeginsSlot (before ++ [mark]) :=
  ⟨before ++ [mark], [], (List.append_nil _).symm, fun _ mem => absurd mem List.not_mem_nil,
    .inr (.inr ⟨before, mark, rfl, kind, unescaped⟩)⟩

/-! ### Slots that are read whole -/

variable {body : BodyReader}

theorem links_isChain (closes : body.Closes) {source : Classifier} {chain : Compartment}
    {content : List Char} (inside : Content content)
    (read : links body source s = .ok (chain, rest)) :
    ∃ tail, s = tail ++ rest ∧ IsChain ('[' :: content ++ ']' :: tail) rest := by
  fun_induction links body source s generalizing chain rest content with
  | case1 source s blank =>
      cases read
      exact ⟨[], rfl, .last inside blank⟩
  | case2 => cases read
  | case3 => cases read
  | case4 => cases read
  | case5 source s text inner opens target middle hr link hl more left hm ih =>
      cases read
      obtain ⟨content', rfl, inside'⟩ := closes hr
      obtain ⟨tail, rfl, chained⟩ := ih inside' hm
      have cut : run s ++ afterRun s = s := Text.run_append_afterRun s
      have behind : afterRun s = '[' :: content' ++ ']' :: tail ++ left := by
        rw [opens]
        simp
      have arrow : (run s).any isShaft = true := by
        rw [← Text.any_unescape (by decide), ← Link.ofText?_isSome, hl]
        rfl
      refine ⟨run s ++ ('[' :: content' ++ ']' :: tail), ?_, ?_⟩
      · rw [List.append_assoc, ← behind, cut]
      · refine .link inside (by simpa using text) arrow ?_ chained
        rw [← behind, cut]
        rfl
  | case6 => cases read

theorem slot_isSlot (closes : body.Closes) {piece : Compartment}
    (inside : atBoundary (skipSeparators s) = false)
    (read : slot body (skipSeparators s) = .ok (piece, rest)) :
    ∃ text, skipSeparators s = text ++ rest ∧ IsSlot text rest := by
  have something := run_ne_nil inside
  generalize skipSeparators s = t at something read
  rw [slot.eq_def] at read
  split at read
  · next inner =>
      split at read
      · cases read
      · next first middle hr =>
          obtain ⟨content, rfl, bracketed⟩ := closes hr
          obtain ⟨tail, rfl, chained⟩ := links_isChain closes bracketed read
          exact ⟨_, by simp, .chain chained⟩
  · next other =>
      cases read
      refine ⟨run t, (Text.run_append_afterRun t).symm, .line (something other) ?_⟩
      rw [Text.run_append_afterRun]
      rfl

/-! ### The readers -/

/-- A fault of a reader of bodies is an offence in the text from the bracket on. -/
def BodyReader.Offends (body : BodyReader) (limit levels : Nat) : Prop :=
  ∀ {before inner : List Char} {fault : Fault}, body.read inner = .error fault →
    Stands limit levels before ('[' :: inner) → fault.Offends limit (before ++ '[' :: inner)

theorem links_offends (closes : body.Closes) (offends : body.Offends limit levels)
    {source : Classifier} {fault : Fault} (refused : links body source s = .error fault)
    (stands : Stands limit levels before s) (ended : EndsClassifier before) :
    fault.Offends limit (before ++ s) := by
  have cut (s : List Char) : run s ++ afterRun s = s := Text.run_append_afterRun s
  fun_induction links body source s generalizing before with
  | case1 => cases refused
  | case2 source s text inner opens found hr =>
      cases refused
      have behind := stands.run
      rw [opens] at behind
      rw [← cut s, opens, ← List.append_assoc]
      exact offends hr behind
  | case3 source s text inner opens target rest hr arrow =>
      cases refused
      obtain ⟨content, rfl, inside⟩ := closes hr
      have shaftless : (run s).any isShaft = false := by
        rw [← Text.any_unescape (by decide), ← Link.ofText?_isSome, arrow]
        rfl
      rw [List.any_eq_false] at shaftless
      have whole : run s ++ ('[' :: content ++ ']' :: rest) = s := by
        rw [List.cons_append, ← opens, cut]
      refine ⟨before, run s ++ ('[' :: content ++ [']']), rest, ?_, ?_, rfl, ?_⟩
      · simpa using whole.symm
      · simpa using whole.symm
      · refine .missingArrow ended ?_ (by simpa using text) ⟨?_, ?_⟩ inside
        · rw [whole, List.cons_append, ← opens]
          rfl
        · exact fun dash => shaftless '-' dash rfl
        · exact fun line => shaftless '_' line rfl
  | case4 source s text inner opens target rest hr link hl found more ih =>
      cases refused
      obtain ⟨content, rfl, inside⟩ := closes hr
      have behind := stands.run
      rw [opens, ← List.cons_append] at behind
      have offence := ih more (behind.bracket inside) (.of_stands behind inside)
      rw [← cut s, opens]
      simpa using offence
  | case5 => cases refused
  | case6 source s text other =>
      cases refused
      refine ⟨before, run s, afterRun s, by rw [cut], (cut s).symm, rfl,
        .missingTarget ended ?_ (by simpa using text) ?_⟩
      · rw [cut]
        rfl
      · intro opens
        obtain ⟨inner, opens⟩ := List.head?_eq_some_iff.1 opens
        exact other inner opens

theorem slot_offends (closes : body.Closes) (offends : body.Offends limit levels) {fault : Fault}
    (refused : slot body s = .error fault) (stands : Stands limit levels before s) :
    fault.Offends limit (before ++ s) := by
  rw [slot.eq_def] at refused
  split at refused
  · next inner =>
      split at refused
      · next found hr =>
          cases refused
          exact offends hr stands
      · next first rest hr =>
          obtain ⟨content, rfl, inside⟩ := closes hr
          rw [← List.cons_append] at stands
          have offence := links_offends closes offends refused (stands.bracket inside)
            (.of_stands stands inside)
          simpa using offence
  · cases refused

theorem slots_offends (closes : body.Closes) (offends : body.Offends limit levels) {fault : Fault}
    (refused : slots body s = .error fault) (stands : Stands limit levels before s)
    (begins : BeginsSlot (before ++ s.takeWhile isSlotGap)) :
    fault.Offends limit (before ++ s) := by
  have cut (s : List Char) : s.takeWhile isSlotGap ++ skipSeparators s = s :=
    List.takeWhile_append_dropWhile
  fun_induction slots body s generalizing before with
  | case1 => cases refused
  | case2 s inside found hp =>
      cases refused
      rw [← cut s, ← List.append_assoc]
      exact slot_offends closes offends hp stands.skipSeparators
  | case3 s inside piece rest hp apart found more ih =>
      cases refused
      obtain ⟨text, whole, -⟩ := slot_isSlot closes (by simpa using inside) hp
      have start := stands.skipSeparators
      rw [whole] at start
      have passes := slot_passes closes hp
      rw [whole] at passes
      have offence := ih more (start.behind passes) (beginsSlot_of_separated apart _)
      rw [← cut s, whole]
      simpa using offence
  | case4 => cases refused
  | case5 => cases refused
  | case6 s inside piece rest hp apart other =>
      cases refused
      obtain ⟨text, whole, complete⟩ := slot_isSlot closes (by simpa using inside) hp
      obtain ⟨something, -⟩ := skipSeparators_inside other
      obtain ⟨c, after, shape⟩ := List.exists_cons_of_ne_nil something
      have kept : isSlotGap c = false := by
        have dark := List.head?_dropWhile_not isSlotGap rest
        rw [show rest.dropWhile isSlotGap = c :: after from shape] at dark
        simpa using dark
      have spaces : ∀ d ∈ rest.takeWhile isSlotGap, isSpace d = true := by
        intro d mem
        have skipped := isSlotGap_of_mem_takeWhile mem
        rw [separated, Bool.not_eq_true, List.any_eq_false] at apart
        simpa [isSlotGap, apart d mem] using skipped
      have behind : rest.takeWhile isSlotGap ++ c :: after = rest := by rw [← shape, cut]
      rw [isSlotGap, Bool.or_eq_false_iff] at kept
      refine ⟨before ++ s.takeWhile isSlotGap ++ text ++ rest.takeWhile isSlotGap, [c], after,
        ?_, shape, rfl, ?_⟩
      · rw [List.append_assoc _ _ ([c] ++ after), List.singleton_append, behind,
          List.append_assoc _ text, ← whole, List.append_assoc, cut]
      · refine .missingSeparator begins ?_ spaces kept.1 kept.2 ?_
        · rwa [behind]
        · rw [← shape]
          simpa using other

/-- Where the compartment begins a slot may begin. -/
theorem compartments_offends (closes : body.Closes) (offends : body.Offends limit levels)
    {fault : Fault} (refused : compartments body s = .error fault)
    (stands : Stands limit levels before s) (begins : BeginsSlot before) :
    fault.Offends limit (before ++ s) := by
  have cut (s : List Char) : s.takeWhile isGap ++ skipGap s = s := List.takeWhile_append_dropWhile
  fun_induction compartments body s generalizing before with
  | case1 s found hs =>
      cases refused
      exact slots_offends closes offends hs stands (begins.append_skipped s)
  | case2 s first rest hs next bar found more ih =>
      cases refused
      obtain ⟨read, whole, -⟩ := slots_passes closes hs
      have passes := slots_passes closes hs
      rw [whole] at stands passes
      have front := (stands.behind passes).skipGap
      rw [bar] at front
      have divided : Stands limit levels (_ ++ ['|']) next := front.behind (.bar next)
      have behind := divided.skipGap
      have gaps : ∀ c ∈ next.takeWhile isGap, isGap c = true ∨ isSeparator c = true := by
        intro c mem
        exact .inl (List.all_eq_true.1 List.all_takeWhile c mem)
      have opened := (beginsSlot_of_mark (.inr rfl) (front.unescaped (by decide))).append_gap gaps
      have offence := ih more behind opened
      have shape : rest.takeWhile isGap ++ '|' :: (next.takeWhile isGap ++ skipGap next) = rest := by
        rw [cut next, ← bar, cut rest]
      rw [whole, ← shape]
      simpa using offence
  | case3 => cases refused
  | case4 => cases refused

theorem closed_offends (closes : body.Closes) (offends : body.Offends limit levels) {fault : Fault}
    (refused : closed body s = .error fault)
    (stands : Stands limit (levels + 1) before ('[' :: s)) :
    fault.Offends limit (before ++ '[' :: s) := by
  have unescaped := stands.unescaped (by decide)
  rw [closed.eq_def] at refused
  split at refused
  · next found hc =>
      cases refused
      have offence := compartments_offends closes offends hc stands.open
        (beginsSlot_of_mark (.inl rfl) unescaped)
      simpa using offence
  · next parts rest hc =>
      split at refused
      · cases refused
      · next other =>
          cases refused
          have nothing : skipGap rest = [] := by
            rcases compartments_stop hc with nothing | ⟨left, bracket⟩
            · exact nothing
            · exact absurd bracket (other left)
          have passes := (compartments_passes closes hc).trans (.skipGap rest)
          rw [nothing] at passes
          obtain ⟨read, whole, -, balanced⟩ := passes
          rw [List.append_nil] at whole
          subst whole
          exact ⟨before, '[' :: s, [], by simp, by simp, nothing, .unclosedClassifier unescaped
            balanced⟩

/-- A bracket that opens with no level left is nested too deeply; in any other classifier the
brackets are one level deeper. -/
theorem classifier_offends (limit levels : Nat) : (classifier levels).Offends limit levels := by
  induction levels with
  | zero =>
      intro before inner fault refused stands
      cases refused
      exact ⟨before, ['['], inner, rfl, rfl, rfl,
        .nestedTooDeeply (stands.unescaped (by decide)) stands.depth⟩
  | succ levels ih =>
      intro before inner fault refused stands
      exact closed_offends (classifier_closes levels) ih refused stands

/-- Whatever the number of levels, a compartment that stands by itself goes wrong at an offence. -/
theorem slots_classifier_offends {fault : Fault}
    (refused : slots (classifier levels) s = .error fault) : fault.Offends levels s := by
  have start : Stands levels levels [] s := ⟨.of_last (by simp) s, rfl⟩
  have begins : BeginsSlot ([] ++ s.takeWhile isSlotGap) :=
    BeginsSlot.append_skipped ⟨[], [], rfl, fun _ mem => absurd mem List.not_mem_nil, .inl rfl⟩ s
  exact slots_offends (classifier_closes levels) (classifier_offends levels levels) refused start
    begins

theorem document_offends {fault : Fault} (refused : document s = .error fault) :
    fault.Offends nestingLimit s := by
  rcases slots_of_document_error refused with inside | ⟨root, rest, found, left, hs, more, rfl⟩
  · exact slots_classifier_offends inside
  · have boundary := slots_atBoundary hs
    rw [atBoundary, more] at boundary
    have mark : found = ']' ∨ found = '|' := by simpa using boundary
    have passes := (slots_passes (classifier_closes nestingLimit) hs).trans (.skipGap rest)
    rw [more] at passes
    obtain ⟨read, rfl, loose, balanced⟩ := passes
    have kind : isDelimiter found = true := by rcases mark with rfl | rfl <;> decide
    exact ⟨read, [found], left, rfl, rfl, rfl, .unexpected mark (loose.last kind) balanced⟩

/-! ### Labels -/

/-- Something is marked, whatever the cause. -/
theorem Offence.marked_ne_nil {cause : Cause} {marked after : List Char}
    (offence : Offence limit cause before marked after) : marked ≠ [] := by
  cases offence with
  | missingTarget source whole text other =>
      rintro rfl
      cases text
  | _ => simp

theorem Fault.Offends.span {fault : Fault} (offends : fault.Offends limit s) :
    ∃ before marked after, s = before ++ marked ++ after ∧
      (fault.span s).start = Text.byteLength before ∧
      (fault.span s).stop = (if fault.cause = .missingSeparator then Text.byteLength before + 1
        else Text.byteLength (before ++ marked)) ∧
      Offence limit fault.cause before marked after := by
  obtain ⟨before, marked, after, whole, start, stop, offence⟩ := offends
  have something := List.length_pos_iff.2 offence.marked_ne_nil
  have width := Text.length_le_byteLength marked
  have total : Text.byteLength s =
      Text.byteLength before + (Text.byteLength marked + Text.byteLength after) := by
    rw [whole, Text.byteLength_append, Text.byteLength_append]
  have first : offset s fault.start = Text.byteLength before := by
    rw [whole, start, offset_of_append]
  refine ⟨before, marked, after, by rw [whole, List.append_assoc], first, ?_, offence⟩
  rw [Fault.span, first, stop]
  split
  · rw [first, Span.between_stop (by omega)]
    omega
  · have last : offset s after = Text.byteLength (before ++ marked) := by
      rw [whole, ← List.append_assoc, offset_of_append]
    rw [last, Text.byteLength_append, Span.between_stop (by omega)]
    omega

/-- The label of a refusal marks the construct that its message names: exactly that construct, or
the first byte of it where a separator is missing. -/
theorem ofText?_offence {text : String} {diagnostic : Diagnostic}
    (refused : ofText? text = .error diagnostic) :
    ∃ cause label before marked after,
      diagnostic.message = cause.message ∧ diagnostic.code = some cause.code ∧
      diagnostic.labels = [label] ∧ text.toList = before ++ marked ++ after ∧
      label.span.start = Text.byteLength before ∧
      label.span.stop = (if cause = .missingSeparator then Text.byteLength before + 1
        else Text.byteLength (before ++ marked)) ∧
      Offence 100 cause before marked after := by
  obtain ⟨fault, found, rfl⟩ := ofText?_eq_error_iff.1 refused
  obtain ⟨before, marked, after, whole, start, stop, offence⟩ := (document_offends found).span
  exact ⟨fault.cause, _, before, marked, after, rfl, rfl, rfl, whole, start, stop, offence⟩

/-- Two classifiers are open at the end of the text, and the label marks the inner one. -/
theorem ofText?_offence_of_open :
    ∃ diagnostic, ofText? "[A|[B] -> [C" = .error diagnostic ∧
      ∃ cause label before marked after,
        diagnostic.message = cause.message ∧ diagnostic.code = some cause.code ∧
        diagnostic.labels = [label] ∧ "[A|[B] -> [C".toList = before ++ marked ++ after ∧
        label.span.start = Text.byteLength before ∧
        label.span.stop = (if cause = .missingSeparator then Text.byteLength before + 1
          else Text.byteLength (before ++ marked)) ∧
        Offence 100 cause before marked after := by
  have unread : (ofText? "[A|[B] -> [C").isOk = false := by decide +kernel
  obtain ⟨diagnostic, refused⟩ := exists_of_not_isOk unread
  exact ⟨diagnostic, refused, ofText?_offence refused⟩

end ClassDiagram.Draft
