import ClassDiagram.Proofs.Draft.Final
import ClassDiagram.Proofs.Draft.Widened.Readers
import Mathlib.Data.List.TakeWhile

set_option autoImplicit false

namespace ClassDiagram.Draft

open Text (isBlank isWhite isGap isSpace isDelimiter isSeparator endsRun run marks)

/-- A place in front of a separator, of the end of the text, or of a closing bracket or a bar that
is not escaped. -/
def Place (before after : List Char) : Prop :=
  ∀ c ∈ after.head?,
    isSeparator c = true ∨ (c = ']' ∨ c = '|') ∧ before.getLast? ≠ some '\\'

/-- The text ends in the bracket or bar `mark`, which is not escaped, and in the blanks `gap`. -/
def EndsIn (mark : Char) (gap before : List Char) : Prop :=
  ∃ front, before = front ++ mark :: gap ∧ front.getLast? ≠ some '\\' ∧ gap.all isGap = true

/-- Whether the character is not seen at the place between the two texts. Behind a classifier a
space or a tab is skipped, and a carriage return if the compartment ends there. Behind a bar all
blanks are skipped; any other white character begins a slot, and a carriage return further on is not
skipped any more. -/
def Fits (before : List Char) (w : Char) (after : List Char) : Prop :=
  (∀ gap, EndsIn ']' gap before → separated gap = false →
      isSpace w = true ∨ w = '\r' ∧ atBoundary after = true) ∧
    ∀ gap, EndsIn '|' gap before → isGap w = true ∨ ¬ Stray after

variable {before after s : List Char} {c w : Char}

theorem Place.pauses (place : Place before after) : Pauses after := by
  intro c first
  rcases place c first with separator | ⟨rfl | rfl, -⟩
  · refine ⟨by rw [endsRun, separator, Bool.or_true], ?_⟩
    rintro rfl
    cases separator
  · decide
  · decide

/-- No bracket opens at the place, and none there is escaped. -/
theorem Place.loose (place : Place before after) (first : c ∈ after.head?)
    (mark : isDelimiter c = true) : before.getLast? ≠ some '\\' := by
  rcases place c first with separator | ⟨-, loose⟩
  · have skipped : isSlotGap c = true := by rw [isSlotGap, separator, Bool.or_true]
    rw [(plain_of_isSlotGap skipped).1] at mark
    cases mark
  · exact loose

theorem Place.of_suffix {mid : List Char} (place : Place before after) (tail : mid <:+ before) :
    Place mid after := by
  intro c first
  refine (place c first).imp_right fun ⟨mark, loose⟩ => ⟨mark, ?_⟩
  obtain ⟨front, rfl⟩ := tail
  cases mid with
  | nil => simp
  | cons d mid => simpa [List.getLast?_append] using loose

theorem Place.widened (place : Place before after) (white : isWhite w = true) (line : w ≠ '\n') :
    Widened (before ++ after) (before ++ w :: after) := by
  induction before with
  | nil => exact .put white line place.pauses (.refl after)
  | cons c before ih =>
      refine .cons c (ih (place.of_suffix (List.suffix_cons c before))) ?_
      rintro rfl d first mark
      cases before with
      | cons e before => exact first
      | nil => exact absurd rfl (place.loose first mark)

theorem settles_iff (s : List Char) :
    Settles s ↔ ∀ front c rest, s = front ++ c :: rest → isDelimiter c = true →
      front.getLast? ≠ some '\\' → Settled c rest := by
  constructor
  · intro settles front c rest whole mark loose
    exact settles (c, rest) ((Text.mem_marks_iff s c rest).2 ⟨mark, front, whole, loose⟩)
  · rintro all ⟨c, rest⟩ mem
    obtain ⟨mark, front, whole, loose⟩ := (Text.mem_marks_iff s c rest).1 mem
    exact all front c rest whole mark loose

/-- A separator that is found is found whatever follows. -/
theorem separated_append_of {gap : List Char} (found : separated gap = true) (rest : List Char) :
    separated (gap ++ rest) = true := by
  induction gap with
  | nil => cases found
  | cons c gap ih =>
      rw [separated_cons, Bool.and_eq_true, Bool.or_eq_true] at found
      rw [List.cons_append, separated_cons, Bool.and_eq_true, Bool.or_eq_true]
      exact ⟨found.1, found.2.imp_right ih⟩

/-- Where none is found, one that is found with more text stands in that. -/
theorem separated_of_append {gap rest : List Char} (none : separated gap = false)
    (found : separated (gap ++ rest) = true) : separated rest = true := by
  induction gap with
  | nil => exact found
  | cons c gap ih =>
      rw [List.cons_append, separated_cons, Bool.and_eq_true] at found
      rw [separated_cons, found.1, Bool.true_and, Bool.or_eq_false_iff] at none
      rw [none.1, Bool.false_or] at found
      exact ih none.2 found.2

theorem atBoundary_append_gap {gap : List Char} (blank : gap.all isGap = true) (rest : List Char) :
    atBoundary (gap ++ rest) = atBoundary rest := by
  rw [List.all_eq_true] at blank
  rw [atBoundary, atBoundary, skipGap, List.dropWhile_append_of_pos blank]
  rfl

theorem exhausted_iff (gap : List Char) : Exhausted gap ↔ gap.all isGap = true := by
  rw [Exhausted, skipGap, List.dropWhile_eq_nil_iff, List.all_eq_true]

/-- Nothing but spaces is skipped where no separator is found. -/
theorem all_isGap_of_skipSeparators {gap : List Char} (none : separated gap = false)
    (skipped : skipSeparators gap = []) : gap.all isGap = true := by
  rw [List.all_eq_true]
  rw [skipSeparators, List.dropWhile_eq_nil_iff] at skipped
  intro c mem
  rw [separated, List.takeWhile_eq_self_iff.2 skipped, List.any_eq_false] at none
  have space : isSpace c = true := by simpa [isSlotGap, none c mem] using skipped c mem
  exact Text.isGap_of_isSpace space

/-- Blanks in front of a place where runs end are a run of their own. -/
theorem isBlank_run_append {gap : List Char} (blank : isBlank gap = true) (place : Pauses s) :
    isBlank (run (gap ++ s)) = true := by
  induction gap with
  | nil =>
      rw [List.nil_append, run, place.cutRun]
      rfl
  | cons c gap ih =>
      rw [isBlank, List.all_cons, Bool.and_eq_true] at blank
      by_cases feed : c = '\n'
      · subst feed
        rw [List.cons_append, run, Text.cutRun_stop (by decide)]
        rfl
      · rw [List.cons_append, (run_white blank.1 feed _).1, isBlank_cons blank.1]
        exact ih blank.2

theorem isBlank_of_isGap {gap : List Char} (blank : gap.all isGap = true) : isBlank gap = true := by
  rw [List.all_eq_true] at blank
  rw [isBlank, List.all_eq_true]
  exact fun c mem => Text.isWhite_of_isGap (blank c mem)

theorem isSpace_of_isSlotGap (white : isWhite w = true) (line : w ≠ '\n')
    (skipped : isSlotGap w = true) : isSpace w = true := by
  cases separator : isSeparator w with
  | false => simpa [isSlotGap, separator] using skipped
  | true =>
      have ends := endsRun_of_white white line
      rw [endsRun, separator, Bool.or_true] at ends
      cases ends

/-- A blank that is no space is skipped only in front of a boundary. -/
theorem fits_of_finished {gap : List Char} (blank : gap.all isGap = true)
    (none : separated gap = false) (white : isWhite w = true) (line : w ≠ '\n')
    (place : Pauses after) (finished : Finished (gap ++ w :: after)) :
    isSpace w = true ∨ w = '\r' ∧ atBoundary after = true := by
  have front : isBlank (gap ++ [w]) = true := by
    rw [isBlank, List.all_append, List.all_cons, white, ← isBlank, isBlank_of_isGap blank]
    rfl
  have ended := finished (by
    rw [List.append_cons]
    exact isBlank_run_append front place)
  rw [endsSlot, Bool.or_eq_true] at ended
  rcases ended with apart | boundary
  · have behind := separated_of_append none apart
    rw [separated_cons, Bool.and_eq_true] at behind
    exact .inl (isSpace_of_isSlotGap white line behind.1)
  · rw [atBoundary_append_gap blank] at boundary
    rcases isGap_or_mark_of_atBoundary boundary with ⟨gap, more⟩ | rfl | rfl
    · cases space : isSpace w with
      | true => exact .inl rfl
      | false =>
          simp only [isGap, space, Bool.false_or, Bool.or_eq_true, beq_iff_eq] at gap
          exact .inr ⟨gap.resolve_right line, more⟩
    · cases white
    · cases white

theorem separated_insert {mid : List Char} (skipped : isSlotGap w = true)
    (found : separated (mid ++ after) = true) : separated (mid ++ w :: after) = true := by
  induction mid with
  | nil =>
      rw [List.nil_append] at found ⊢
      rw [separated_cons, skipped, found, Bool.or_true, Bool.and_true]
  | cons c mid ih =>
      rw [List.cons_append, separated_cons, Bool.and_eq_true, Bool.or_eq_true] at found ⊢
      exact ⟨found.1, found.2.imp_right ih⟩

/-- Behind a classifier a space is not seen, nor a carriage return in front of a boundary; and what
is put in further on is not looked at. -/
theorem finished_insert {mid : List Char} (finished : Finished (mid ++ after))
    (place : Place mid after) (white : isWhite w = true) (line : w ≠ '\n')
    (fits : mid.all isGap = true → separated mid = false →
      isSpace w = true ∨ w = '\r' ∧ atBoundary after = true) : Finished (mid ++ w :: after) := by
  intro blank
  rw [(place.widened white line).isBlank_run] at blank
  have ended := finished blank
  cases none : separated mid with
  | true => rw [endsSlot, separated_append_of none, Bool.true_or]
  | false =>
      by_cases gap : mid.all isGap = true
      · rw [endsSlot, atBoundary_append_gap gap, Bool.or_eq_true] at ended ⊢
        rcases fits gap none with space | ⟨rfl, boundary⟩
        · rw [atBoundary_cons (Text.isGap_of_isSpace space)]
          exact ended.imp_left (separated_insert (by rw [isSlotGap, space, Bool.true_or]))
        · rw [atBoundary_cons (by decide)]
          exact .inr boundary
      · have more : ¬ Exhausted mid := fun none => gap ((exhausted_iff mid).1 none)
        have kept : skipSeparators mid ≠ [] := fun skipped =>
          gap (all_isGap_of_skipSeparators none skipped)
        rw [endsSlot, separated_append kept, atBoundary_append more] at ended ⊢
        exact ended

/-- What is put in behind a bar is skipped or makes nothing stray. -/
theorem not_stray_insert {mid : List Char} (free : ¬ Stray (skipGap (mid ++ after)))
    (place : Place mid after) (white : isWhite w = true) (line : w ≠ '\n')
    (fits : mid.all isGap = true → isGap w = true ∨ ¬ Stray after) :
    ¬ Stray (skipGap (mid ++ w :: after)) := by
  by_cases gap : mid.all isGap = true
  · have skipped : ∀ rest, skipGap (mid ++ rest) = skipGap rest := fun rest =>
      List.dropWhile_append_of_pos (List.all_eq_true.1 gap)
    rw [skipped] at free ⊢
    cases blank : isGap w with
    | true => rwa [skipGap_cons blank]
    | false =>
        have here := (place.of_suffix List.nil_suffix).widened white line
        rw [skipGap_eq_self blank]
        exact fun stray => (fits gap).resolve_left (by simp [blank]) (here.stray stray)
  · have more : ¬ Exhausted mid := fun none => gap ((exhausted_iff mid).1 none)
    have here := (place.of_suffix (skipGap_suffix mid)).widened white line
    rw [skipGap_append more] at free ⊢
    exact fun stray => free (here.stray stray)

/-- What follows a bracket or bar of the wider text follows it in the text as well, but for the
character that is put in. -/
theorem settles_insert (settles : Settles (before ++ after)) (place : Place before after)
    (white : isWhite w = true) (line : w ≠ '\n') (fits : Fits before w after) :
    Settles (before ++ w :: after) := by
  rw [settles_iff] at settles ⊢
  intro front c rest whole mark loose
  have dark : c ≠ w := by
    rintro rfl
    have goes := endsRun_of_white white line
    rw [endsRun, mark] at goes
    cases goes
  rcases List.append_eq_append_iff.1 whole with ⟨mid, rfl, behind⟩ | ⟨mid, rfl, behind⟩
  · -- the mark stands behind the character
    cases mid with
    | nil => exact absurd (List.cons.inj behind).1.symm dark
    | cons d mid =>
        obtain ⟨rfl, rfl⟩ := List.cons.inj behind
        apply settles (before ++ mid) c rest (by simp) mark
        cases mid with
        | nil => simpa using place.loose rfl mark
        | cons e mid => simpa [List.getLast?_append] using loose
  · -- the mark stands in front of the character
    cases mid with
    | nil => exact absurd (List.cons.inj behind).1 dark
    | cons d mid =>
        obtain ⟨rfl, rfl⟩ := List.cons.inj behind
        have there : Place mid after :=
          place.of_suffix ⟨front ++ [c], by simp⟩
        obtain ⟨closed, bar⟩ := settles front c (mid ++ after) (by simp) mark loose
        constructor
        · rintro rfl
          exact finished_insert (closed rfl) there white line fun gap none =>
            fits.1 mid ⟨front, rfl, loose, gap⟩ none
        · rintro rfl
          exact not_stray_insert (bar rfl) there white line fun gap =>
            fits.2 mid ⟨front, rfl, loose, gap⟩

theorem fits_of_settles (settles : Settles (before ++ w :: after)) (place : Place before after)
    (white : isWhite w = true) (line : w ≠ '\n') : Fits before w after := by
  rw [settles_iff] at settles
  constructor
  · rintro gap ⟨front, rfl, loose, blank⟩ none
    have settled := settles front ']' (gap ++ w :: after) (by simp) (by decide) loose
    exact fits_of_finished blank none white line place.pauses (settled.1 rfl)
  · rintro gap ⟨front, rfl, loose, blank⟩
    have settled := settles front '|' (gap ++ w :: after) (by simp) (by decide) loose
    cases skipped : isGap w with
    | true => exact .inl rfl
    | false =>
        right
        intro stray
        apply settled.2 rfl
        rw [skipGap, List.dropWhile_append_of_pos (List.all_eq_true.1 blank)]
        rw [show List.dropWhile isGap (w :: after) = w :: after from skipGap_eq_self skipped after]
        exact stray_cons_iff.2 ⟨white, .inl stray⟩

/-- One white character more is not seen where it fits, and is not allowed where it does not. -/
theorem document_insert {root : Compartment} (accepted : document (before ++ after) = .ok root)
    (place : Place before after) (white : isWhite w = true) (line : w ≠ '\n') :
    (Fits before w after → document (before ++ w :: after) = .ok root) ∧
      (¬ Fits before w after → ∃ fault, document (before ++ w :: after) = .error fault) := by
  obtain ⟨same, refused⟩ := document_widened (place.widened white line) accepted
  constructor
  · intro fits
    exact same (settles_insert (document_settles accepted) place white line fits)
  · intro misfit
    exact refused fun settles => misfit (fits_of_settles settles place white line)

end ClassDiagram.Draft
