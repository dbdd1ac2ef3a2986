import ClassDiagram.Proofs.Draft.Lockstep
import ClassDiagram.Proofs.Text.Marks

set_option autoImplicit false

namespace ClassDiagram.Draft

open Text (isBlank isWhite isGap isSpace isSeparator isDelimiter endsRun run afterRun unescape)

variable {body : BodyReader} {s u : List Char} {c : Char}

/-! ### Skipping -/

theorem skipSeparators_cons (skipped : isSlotGap c = true) (r : List Char) :
    skipSeparators (c :: r) = skipSeparators r :=
  List.dropWhile_cons_of_pos skipped

theorem skipSeparators_eq_self (kept : isSlotGap c = false) (r : List Char) :
    skipSeparators (c :: r) = c :: r :=
  List.dropWhile_cons_of_neg (by simp [kept])

theorem skipGap_cons (skipped : isGap c = true) (r : List Char) : skipGap (c :: r) = skipGap r :=
  List.dropWhile_cons_of_pos skipped

theorem skipGap_eq_self (kept : isGap c = false) (r : List Char) : skipGap (c :: r) = c :: r :=
  List.dropWhile_cons_of_neg (by simp [kept])

theorem atBoundary_cons (skipped : isGap c = true) (r : List Char) :
    atBoundary (c :: r) = atBoundary r := by
  rw [atBoundary, atBoundary, skipGap_cons skipped]

theorem separated_cons (c : Char) (r : List Char) :
    separated (c :: r) = (isSlotGap c && (isSeparator c || separated r)) := by
  cases skipped : isSlotGap c with
  | true =>
      rw [separated, List.takeWhile_cons_of_pos skipped, List.any_cons, Bool.true_and, separated]
  | false =>
      rw [separated, List.takeWhile_cons_of_neg (by simp [skipped]), Bool.false_and]
      rfl

theorem atBoundary_of_mark (mark : c = ']' ∨ c = '|') (r : List Char) :
    atBoundary (c :: r) = true := by
  rcases mark with rfl | rfl <;> rfl

/-- Of what stands in front of a boundary only blanks may be skipped. -/
theorem isGap_or_mark_of_atBoundary (boundary : atBoundary (c :: u) = true) :
    isGap c = true ∧ atBoundary u = true ∨ c = ']' ∨ c = '|' := by
  cases gap : isGap c with
  | true => exact .inl ⟨rfl, by rwa [atBoundary_cons gap] at boundary⟩
  | false =>
      rw [atBoundary, skipGap_eq_self gap] at boundary
      exact .inr (by simpa using boundary)

theorem atBoundary_of_dark (dark : isWhite c = false) (markless : ¬ (c = ']' ∨ c = '|'))
    (r : List Char) : atBoundary (c :: r) = false := by
  cases boundary : atBoundary (c :: r) with
  | false => rfl
  | true =>
      rcases isGap_or_mark_of_atBoundary boundary with ⟨gap, -⟩ | mark
      · rw [Text.isWhite_of_isGap gap] at dark
        cases dark
      · exact absurd mark markless

theorem skipGap_skipSeparators (boundary : atBoundary s = true) :
    skipGap (skipSeparators s) = skipGap s := by
  induction s with
  | nil => rfl
  | cons c r ih =>
      cases skipped : isSlotGap c with
      | false => rw [skipSeparators_eq_self skipped]
      | true =>
          rcases isGap_or_mark_of_atBoundary boundary with ⟨gap, more⟩ | rfl | rfl
          · rw [skipSeparators_cons skipped, ih more, skipGap_cons gap]
          · cases skipped
          · cases skipped

theorem atBoundary_skipSeparators (boundary : atBoundary s = true) :
    atBoundary (skipSeparators s) = true := by
  rw [atBoundary, skipGap_skipSeparators boundary]
  exact boundary

/-- Spaces do not hide a boundary. -/
theorem atBoundary_skipSeparators_of_not_separated (apart : separated s = false) :
    atBoundary (skipSeparators s) = atBoundary s := by
  induction s with
  | nil => rfl
  | cons c r ih =>
      cases skipped : isSlotGap c with
      | false => rw [skipSeparators_eq_self skipped]
      | true =>
          rw [separated_cons, skipped, Bool.true_and, Bool.or_eq_false_iff] at apart
          have space : isSpace c = true := by simpa [isSlotGap, apart.1] using skipped
          rw [skipSeparators_cons skipped, atBoundary_cons (Text.isGap_of_isSpace space),
            ih apart.2]

/-! ### The slots behind a slot -/

/-- Whether a slot may end in front of `s`: a separator or the end of the compartment follows. -/
def endsSlot (s : List Char) : Bool := separated s || atBoundary s

/-- A compartment goes on behind a slot as it would begin there, up to its end. -/
theorem slots_step (inside : atBoundary (skipSeparators s) = false) :
    slots body s =
      (slot body (skipSeparators s)).andThen fun piece rest =>
        if endsSlot rest then
          (slots body rest).andThen fun more left => .ok (piece ++ more, left)
        else .error ⟨.missingSeparator, skipSeparators rest, skipSeparators rest⟩ := by
  rw [slots_eq, if_neg (by simp [inside])]
  congr 1
  funext piece rest
  cases apart : separated rest with
  | false =>
      rw [endsSlot, apart, Bool.false_or, atBoundary_skipSeparators_of_not_separated apart]
      split
      · next boundary =>
          rw [← atBoundary_skipSeparators_of_not_separated apart] at boundary
          rw [slots_end boundary, Outcome.andThen_ok, Compartment.append_empty]
      · rfl
  | true =>
      rw [endsSlot, apart, Bool.true_or]
      split
      · next boundary =>
          rw [slots_end boundary, if_pos rfl, Outcome.andThen_ok, Compartment.append_empty]
      · rfl

/-- The slots of a compartment that begins with a line of text. -/
def slotsFromLine (body : BodyReader) (s : List Char) : Outcome Compartment :=
  if endsSlot (afterRun s) then
    (slots body (afterRun s)).andThen fun more left => .ok (textLine (run s) ++ more, left)
  else .error ⟨.missingSeparator, skipSeparators (afterRun s), skipSeparators (afterRun s)⟩

theorem slots_line (kept : isSlotGap c = false) (inside : atBoundary (c :: u) = false)
    (other : c ≠ '[') : slots body (c :: u) = slotsFromLine body (c :: u) := by
  have self := skipSeparators_eq_self kept u
  have line : ∀ inner, c :: u ≠ '[' :: inner := fun _ same => other (List.cons.inj same).1
  rw [slots_step (by rw [self, inside]), self, slot_line line]
  rfl

/-! ### White characters -/

theorem endsRun_of_white (white : isWhite c = true) (line : c ≠ '\n') : endsRun c = false := by
  cases ends : endsRun c with
  | false => rfl
  | true =>
      simp only [endsRun, isDelimiter, isSeparator, Bool.or_eq_true, beq_iff_eq] at ends
      rcases ends with ((rfl | rfl) | rfl) | (rfl | rfl)
      · cases white
      · cases white
      · cases white
      · cases white
      · exact absurd rfl line

theorem ne_bracket_of_white (white : isWhite c = true) : c ≠ '[' := by
  rintro rfl
  cases white

theorem ne_feed_of_kept (kept : isSlotGap c = false) : c ≠ '\n' := by
  rintro rfl
  cases kept

theorem run_white (white : isWhite c = true) (line : c ≠ '\n') (u : List Char) :
    run (c :: u) = c :: run u ∧ afterRun (c :: u) = afterRun u := by
  have goes := endsRun_of_white white line
  have slashless : c ≠ '\\' := by
    rintro rfl
    cases white
  rw [run, afterRun, Text.cutRun_cons goes fun slash => absurd slash slashless]
  exact ⟨rfl, rfl⟩

theorem isBlank_cons (white : isWhite c = true) (u : List Char) : isBlank (c :: u) = isBlank u := by
  rw [isBlank, List.all_cons, white, Bool.true_and, isBlank]

theorem textLine_white (white : isWhite c = true) (u : List Char) :
    textLine (c :: u) = textLine u := by
  have same : Text.trim (c :: u) = Text.trim u := by
    rw [Text.trim, Text.trim, Text.trimStart, Text.trimStart, List.dropWhile_cons_of_pos white]
  rw [textLine, textLine, same]

theorem textLine_blank (blank : isBlank u = true) : textLine u = .empty := by
  rw [textLine, (Text.trim_eq_nil_iff u).2 blank]
  rfl

/-- What stands in front of a boundary is a blank line of text. -/
theorem run_of_atBoundary (boundary : atBoundary s = true) :
    isBlank (run s) = true ∧ atBoundary (afterRun s) = true ∧ skipGap (afterRun s) = skipGap s := by
  induction s with
  | nil => exact ⟨rfl, rfl, rfl⟩
  | cons c r ih =>
      rcases isGap_or_mark_of_atBoundary boundary with ⟨gap, more⟩ | mark
      · by_cases feed : c = '\n'
        · subst feed
          have stop := Text.cutRun_stop (show endsRun '\n' = true by decide) r
          rw [run, afterRun, stop]
          exact ⟨rfl, boundary, rfl⟩
        · have white := Text.isWhite_of_isGap gap
          obtain ⟨cut, rest⟩ := run_white white feed r
          rw [cut, rest, isBlank_cons white, skipGap_cons gap]
          exact ih more
      · have ends : endsRun c = true := by rcases mark with rfl | rfl <;> decide
        rw [run, afterRun, Text.cutRun_stop ends]
        exact ⟨rfl, boundary, rfl⟩

/-- White characters on one line, if any, and then a bracket that opens. -/
def Blocked (s : List Char) : Prop :=
  ∃ line inner, s = line ++ '[' :: inner ∧ isBlank line = true ∧ '\n' ∉ line

theorem blocked_cons_iff :
    Blocked (c :: u) ↔ c = '[' ∨ isWhite c = true ∧ c ≠ '\n' ∧ Blocked u := by
  constructor
  · rintro ⟨_ | ⟨d, line⟩, inner, whole, blank, feedless⟩
    · exact .inl (List.cons.inj whole).1
    · cases whole
      rw [isBlank, List.all_cons, Bool.and_eq_true] at blank
      rw [List.mem_cons, not_or] at feedless
      exact .inr ⟨blank.1, fun feed => feedless.1 feed.symm, line, inner, rfl, blank.2, feedless.2⟩
  · rintro (rfl | ⟨white, line, front, inner, rfl, blank, feedless⟩)
    · exact ⟨[], u, rfl, rfl, List.not_mem_nil⟩
    · refine ⟨c :: front, inner, rfl, by rwa [isBlank_cons white], ?_⟩
      rw [List.mem_cons, not_or]
      exact ⟨fun feed => line feed.symm, feedless⟩

theorem not_blocked_nil : ¬ Blocked [] := by
  rintro ⟨line, inner, whole, -⟩
  cases line <;> cases whole

theorem exists_run_eq_cons (goes : endsRun c = false) (u : List Char) :
    ∃ more, run (c :: u) = c :: more := by
  cases u with
  | nil => exact ⟨[], by simp [run, Text.cutRun, goes]⟩
  | cons d r =>
      rw [run, Text.cutRun]
      split
      · exact ⟨_, rfl⟩
      · rw [goes]
        exact ⟨_, rfl⟩

/-- Where a slot begins and no bracket opens, some text stands. -/
theorem run_ne_nil (inside : atBoundary (skipSeparators s) = false)
    (other : ∀ inner, skipSeparators s ≠ '[' :: inner) : run (skipSeparators s) ≠ [] := by
  cases skipped : skipSeparators s with
  | nil =>
      rw [skipped] at inside
      cases inside
  | cons c r =>
      rw [skipped] at inside other
      have goes := endsRun_eq_false skipped inside fun bracket => other r (by rw [bracket])
      obtain ⟨more, shape⟩ := exists_run_eq_cons goes r
      rw [shape]
      exact List.cons_ne_nil c more

theorem blocked_iff (s : List Char) :
    Blocked s ↔ isBlank (run s) = true ∧ ∃ inner, afterRun s = '[' :: inner := by
  induction s with
  | nil => exact iff_of_false not_blocked_nil fun ⟨_, _, opens⟩ => List.cons_ne_nil _ _ opens.symm
  | cons c r ih =>
      rw [blocked_cons_iff]
      cases ends : endsRun c with
      | true =>
          rw [run, afterRun, Text.cutRun_stop ends]
          constructor
          · rintro (rfl | ⟨white, line, -⟩)
            · exact ⟨rfl, r, rfl⟩
            · rw [endsRun_of_white white line] at ends
              cases ends
          · rintro ⟨-, inner, opens⟩
            exact .inl (List.cons.inj opens).1
      | false =>
          have bracket : c ≠ '[' := by
            rintro rfl
            cases ends
          have line : c ≠ '\n' := by
            rintro rfl
            cases ends
          cases white : isWhite c with
          | true =>
              obtain ⟨cut, rest⟩ := run_white white line r
              rw [cut, rest, isBlank_cons white, ← ih]
              simp [bracket, line]
          | false =>
              obtain ⟨more, cut⟩ := exists_run_eq_cons ends r
              simp [cut, isBlank, white, bracket]

theorem Blocked.atBoundary_eq (blocked : Blocked s) : atBoundary s = false := by
  cases boundary : atBoundary s with
  | false => rfl
  | true =>
      obtain ⟨-, inner, opens⟩ := (blocked_iff s).1 blocked
      have behind := (run_of_atBoundary boundary).2.1
      rw [opens] at behind
      cases behind

/-! ### A white character more -/

/-- The texts that are left differ in nothing but blanks in front of them. -/
def SameGap (s t : List Char) : Prop := skipGap s = skipGap t

namespace Outcome.Agree

variable {α : Type} {first second third : Outcome α}

theorem refl (outcome : Outcome α) : Outcome.Agree SameGap outcome outcome := by
  cases outcome with
  | error fault => exact .error rfl
  | ok value => exact .ok value.1 rfl

theorem symm (agree : Outcome.Agree SameGap first second) :
    Outcome.Agree SameGap second first := by
  cases agree with
  | error cause => exact .error cause.symm
  | ok value left => exact .ok value (Eq.symm left)

theorem trans (front : Outcome.Agree SameGap first second)
    (back : Outcome.Agree SameGap second third) : Outcome.Agree SameGap first third := by
  cases front with
  | error cause =>
      cases back with
      | error cause' => exact .error (cause.trans cause')
  | ok value left =>
      cases back with
      | ok _ left' => exact .ok _ (Eq.trans left left')

theorem exists_of_ok (agree : Outcome.Agree SameGap first second) {value : α} {s : List Char}
    (read : first = .ok (value, s)) : ∃ t, second = .ok (value, t) ∧ skipGap t = skipGap s := by
  subst read
  cases agree with
  | ok _ left => exact ⟨_, rfl, Eq.symm left⟩

theorem exists_of_error (agree : Outcome.Agree SameGap first second)
    (refused : ∃ fault, first = .error fault) : ∃ fault, second = .error fault := by
  obtain ⟨fault, rfl⟩ := refused
  cases agree with
  | error cause => exact ⟨_, rfl⟩

end Outcome.Agree

theorem endsSlot_of_endsRun (ends : endsRun c = true) (other : c ≠ '[') (u : List Char) :
    endsSlot (c :: u) = true := by
  simp only [endsRun, isDelimiter, Bool.or_eq_true, beq_iff_eq, other, false_or] at ends
  rw [endsSlot, Bool.or_eq_true]
  rcases ends with mark | separator
  · exact .inr (atBoundary_of_mark mark u)
  · left
    rw [separated_cons, isSlotGap, separator, Bool.or_true, Bool.true_or, Bool.and_true]

theorem slotsFromLine_of_endsRun (ends : endsRun c = true) (other : c ≠ '[') (u : List Char) :
    slotsFromLine body (c :: u) = slots body (c :: u) := by
  rw [slotsFromLine, run, afterRun, Text.cutRun_stop ends,
    if_pos (endsSlot_of_endsRun ends other u), show textLine ([], c :: u).1 = .empty from rfl]
  cases slots body (c :: u) with
  | error fault => rfl
  | ok value =>
      obtain ⟨compartment, left⟩ := value
      rw [Outcome.andThen_ok, Compartment.empty_append]

/-- Text up to a separator or to the end is a line of its own, if anything is left of it. -/
theorem slotsFromLine_agree (body : BodyReader) (free : ¬ Blocked s) :
    Outcome.Agree SameGap (slotsFromLine body s) (slots body s) := by
  induction s with
  | nil =>
      have nothing : slots body [] = .ok (.empty, []) := slots_end rfl
      have line : slotsFromLine body [] = .ok (.empty ++ .empty, []) := by
        rw [slotsFromLine, show afterRun [] = [] from rfl, nothing]
        rfl
      rw [line, nothing]
      exact .ok _ rfl
  | cons c r ih =>
      have bracket : c ≠ '[' := fun opens => free (blocked_cons_iff.2 (.inl opens))
      cases ends : endsRun c with
      | true =>
          rw [slotsFromLine_of_endsRun ends bracket]
          exact .refl _
      | false =>
          cases kept : isSlotGap c with
          | true =>
              have space : isSpace c = true := by
                simp only [endsRun, Bool.or_eq_false_iff] at ends
                simpa [isSlotGap, ends.2] using kept
              have white := Text.isWhite_of_isGap (Text.isGap_of_isSpace space)
              have line : c ≠ '\n' := by
                rintro rfl
                cases ends
              obtain ⟨cut, rest⟩ := run_white white line r
              have free' : ¬ Blocked r := fun blocked =>
                free (blocked_cons_iff.2 (.inr ⟨white, line, blocked⟩))
              rw [slots_congr body (skipSeparators_cons kept r), slotsFromLine, cut, rest,
                textLine_white white]
              exact ih free'
          | false =>
              cases boundary : atBoundary (c :: r) with
              | false =>
                  rw [slots_line kept boundary bracket]
                  exact .refl _
              | true =>
                  obtain ⟨blank, behind, same⟩ := run_of_atBoundary boundary
                  have here := skipSeparators_eq_self kept r
                  rw [slotsFromLine, endsSlot, behind, Bool.or_true, if_pos rfl,
                    textLine_blank blank, slots_end (atBoundary_skipSeparators behind),
                    slots_end (by rw [here, boundary]), here]
                  refine .ok _ ?_
                  rw [SameGap, skipGap_skipSeparators behind, same]

/-- A white character in front of a compartment is not seen, unless a bracket follows on the same
line and the character is neither a space nor a separator. -/
theorem slots_white (body : BodyReader) (white : isWhite c = true)
    (free : isSlotGap c = true ∨ ¬ Blocked u) :
    Outcome.Agree SameGap (slots body (c :: u)) (slots body u) := by
  cases kept : isSlotGap c with
  | true =>
      rw [slots_congr body (skipSeparators_cons kept u)]
      exact .refl _
  | false =>
      have free : ¬ Blocked u := free.resolve_left (by simp [kept])
      cases boundary : atBoundary (c :: u) with
      | false =>
          obtain ⟨cut, rest⟩ := run_white white (ne_feed_of_kept kept) u
          rw [slots_line kept boundary (ne_bracket_of_white white), slotsFromLine, cut, rest,
            textLine_white white]
          exact slotsFromLine_agree body free
      | true =>
          rcases isGap_or_mark_of_atBoundary boundary with ⟨gap, more⟩ | rfl | rfl
          · have here := skipSeparators_eq_self kept u
            rw [slots_end (by rw [here, boundary]), slots_end (atBoundary_skipSeparators more),
              here]
            refine .ok _ ?_
            rw [SameGap, skipGap_cons gap, skipGap_skipSeparators more]
          · cases white
          · cases white

/-- White text up to a bracket is a slot that nothing separates from the next one. -/
theorem slots_blocked (body : BodyReader) (white : isWhite c = true) (kept : isSlotGap c = false)
    (blocked : Blocked u) : ∃ fault, slots body (c :: u) = .error fault := by
  have whole : Blocked (c :: u) :=
    blocked_cons_iff.2 (.inr ⟨white, ne_feed_of_kept kept, blocked⟩)
  obtain ⟨-, inner, opens⟩ := (blocked_iff _).1 whole
  rw [slots_line kept whole.atBoundary_eq (ne_bracket_of_white white), slotsFromLine, opens]
  exact ⟨_, rfl⟩

/-- White characters and then a bracket that opens, where one of them on the line of the bracket is
neither a space nor a tab. -/
def Stray (s : List Char) : Prop :=
  ∃ front c rest, s = front ++ c :: rest ∧ isBlank front = true ∧ isWhite c = true ∧
    isSlotGap c = false ∧ Blocked rest

theorem stray_cons_iff :
    Stray (c :: u) ↔ isWhite c = true ∧ (Stray u ∨ isSlotGap c = false ∧ Blocked u) := by
  constructor
  · rintro ⟨_ | ⟨d, front⟩, e, rest, whole, blank, white, kept, blocked⟩
    · cases whole
      exact ⟨white, .inr ⟨kept, blocked⟩⟩
    · cases whole
      rw [isBlank, List.all_cons, Bool.and_eq_true] at blank
      exact ⟨blank.1, .inl ⟨front, e, rest, rfl, blank.2, white, kept, blocked⟩⟩
  · rintro ⟨white, ⟨front, e, rest, rfl, blank, white', kept, blocked⟩ | ⟨kept, blocked⟩⟩
    · exact ⟨c :: front, e, rest, rfl, by rwa [isBlank_cons white], white', kept, blocked⟩
    · exact ⟨[], c, u, rfl, rfl, white, kept, blocked⟩

theorem not_stray_nil : ¬ Stray [] := by
  rintro ⟨front, c, rest, whole, -⟩
  cases front <;> cases whole

/-- No amount of white characters in front of a compartment is seen, unless they are stray. -/
theorem slots_blank_append (body : BodyReader) {front : List Char} (blank : isBlank front = true)
    (free : ¬ Stray (front ++ s)) :
    Outcome.Agree SameGap (slots body (front ++ s)) (slots body s) := by
  induction front with
  | nil => exact .refl _
  | cons c front ih =>
      rw [isBlank, List.all_cons, Bool.and_eq_true] at blank
      rw [List.cons_append, stray_cons_iff, not_and, not_or, not_and] at free
      obtain ⟨free, unblocked⟩ := free blank.1
      refine (slots_white body blank.1 ?_).trans (ih blank.2 free)
      cases kept : isSlotGap c with
      | true => exact .inl rfl
      | false => exact .inr (unblocked kept)

/-- A compartment does not begin with stray white characters. -/
theorem slots_stray (body : BodyReader) (stray : Stray s) :
    ∃ fault, slots body s = .error fault := by
  induction s with
  | nil => exact absurd stray not_stray_nil
  | cons c r ih =>
      obtain ⟨white, more⟩ := stray_cons_iff.1 stray
      by_cases here : isSlotGap c = false ∧ Blocked r
      · exact slots_blocked body white here.1 here.2
      · have free : isSlotGap c = true ∨ ¬ Blocked r := by
          cases kept : isSlotGap c with
          | true => exact .inl rfl
          | false => exact .inr fun blocked => here ⟨kept, blocked⟩
        exact (slots_white body white free).symm.exists_of_error (ih (more.resolve_right here))

end ClassDiagram.Draft
