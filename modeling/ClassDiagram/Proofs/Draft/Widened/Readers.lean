import ClassDiagram.Proofs.Draft.Widened

set_option autoImplicit false

namespace ClassDiagram.Draft

open Text (isBlank isWhite run afterRun unescape)

/-- What `body` reads, it reads as well from a widened text that is settled. -/
def BodyReader.Widening (body : BodyReader) : Prop :=
  ∀ s t, Widened s t → Settles t → ∀ classifier rest, body.read s = .ok (classifier, rest) →
    ∃ rest', body.read t = .ok (classifier, rest') ∧ Widened rest rest' ∧ Finished rest' ∧
      Settles rest'

variable {body : BodyReader} {s t left : List Char}

theorem links_widened (widening : body.Widening) {source : Classifier} {chain : Compartment}
    (widened : Widened s t) (finished : Finished t) (settles : Settles t)
    (read : links body source s = .ok (chain, left)) :
    ∃ left', links body source t = .ok (chain, left') ∧ Widened left left' ∧
      endsSlot left' = true ∧ Settles left' := by
  fun_induction links body source s generalizing t chain left with
  | case1 source s blank =>
      cases read
      have blank' : isBlank (run t) = true := by rw [widened.isBlank_run, blank]
      exact ⟨t, links_blank blank', widened, finished blank', settles⟩
  | case2 => cases read
  | case3 => cases read
  | case4 => cases read
  | case5 source s text inner opens target middle hr link hl more left hm ih =>
      cases read
      rcases widened.afterRun.cases with ⟨nothing, -⟩ | ⟨c, r, inner', shape, opens', behind⟩
      · rw [opens] at nothing
        cases nothing
      · rw [opens] at shape
        cases shape
        have marked := settles.of_marks_eq (Text.marks_afterRun t).symm
        rw [opens', settles_cons (by decide)] at marked
        obtain ⟨middle', hr', after, finished', settles'⟩ :=
          widening _ _ behind marked.2 _ _ hr
        obtain ⟨left', hm', widened', rest⟩ := ih after finished' settles' hm
        have text' : isBlank (run t) = false := by
          rw [widened.isBlank_run]
          simpa using text
        have arrow : Link.ofText? (unescape (run t)) = some link := by
          rw [widened.run_eq opens]
          exact hl
        exact ⟨left', links_target text' opens' hr' arrow hm', widened', rest⟩
  | case6 => cases read

/-- What stands behind a slot that begins in both texts with the same character. -/
theorem slot_widened (widening : body.Widening) {c : Char} {r u mid : List Char}
    {piece : Compartment} (widened : Widened (c :: r) (c :: u)) (settles : Settles (c :: u))
    (read : slot body (c :: r) = .ok (piece, mid)) (ended : endsSlot mid = true) :
    ∃ mid', slot body (c :: u) = .ok (piece, mid') ∧ Widened mid mid' ∧ endsSlot mid' = true ∧
      Settles mid' := by
  by_cases opens : c = '['
  · subst opens
    rw [settles_cons (by decide)] at settles
    rw [slot_eq] at read
    cases hr : body.read r with
    | error fault =>
        simp only [hr, Outcome.andThen_error] at read
        cases read
    | ok value =>
        obtain ⟨first, middle⟩ := value
        simp only [hr, Outcome.andThen_ok] at read
        obtain ⟨middle', hr', after, finished, settles'⟩ :=
          widening _ _ widened.tail settles.2 _ _ hr
        obtain ⟨mid', linked, rest⟩ := links_widened widening after finished settles' read
        exact ⟨mid', by rw [slot_chain hr', linked], rest⟩
  · have line : ∀ t inner, c :: t ≠ '[' :: inner := fun _ _ same => opens (List.cons.inj same).1
    rw [slot_line (line r)] at read
    cases read
    refine ⟨afterRun (c :: u), by rw [slot_line (line u), widened.textLine_eq],
      widened.afterRun.1, ?_, settles.of_marks_eq (Text.marks_afterRun _).symm⟩
    rcases widened.afterRun.cases with ⟨-, nothing⟩ | ⟨d, _, v, shape, shape', -⟩
    · rw [nothing]
      rfl
    · have bracket : d ≠ '[' := by
        rintro rfl
        rw [shape] at ended
        cases ended
      rw [shape']
      exact endsSlot_of_endsRun (Text.endsRun_of_afterRun shape) bracket v

/-- White characters that are read do not stand in front of a bracket. -/
theorem not_blocked_of_slots {c : Char} {u : List Char} {compartment : Compartment}
    (white : isWhite c = true) (kept : isSlotGap c = false)
    (read : slots body (c :: u) = .ok (compartment, left)) : ¬ Blocked u := by
  intro blocked
  obtain ⟨fault, refused⟩ := slots_blocked body white kept blocked
  rw [read] at refused
  cases refused

theorem slots_step_ok {piece more : Compartment} {mid : List Char}
    (inside : atBoundary (skipSeparators s) = false)
    (read : slot body (skipSeparators s) = .ok (piece, mid)) (ended : endsSlot mid = true)
    (next : slots body mid = .ok (more, left)) : slots body s = .ok (piece ++ more, left) := by
  rw [slots_step inside, read, Outcome.andThen_ok, if_pos ended, next, Outcome.andThen_ok]

theorem exists_of_slots_step {compartment : Compartment}
    (inside : atBoundary (skipSeparators s) = false)
    (read : slots body s = .ok (compartment, left)) :
    ∃ piece mid more, slot body (skipSeparators s) = .ok (piece, mid) ∧ endsSlot mid = true ∧
      slots body mid = .ok (more, left) ∧ compartment = piece ++ more := by
  rw [slots_step inside] at read
  cases hp : slot body (skipSeparators s) with
  | error fault =>
      rw [hp] at read
      cases read
  | ok value =>
      obtain ⟨piece, mid⟩ := value
      rw [hp, Outcome.andThen_ok] at read
      split at read
      · next ended =>
          cases hm : slots body mid with
          | error fault =>
              rw [hm] at read
              cases read
          | ok value =>
              obtain ⟨more, left⟩ := value
              rw [hm] at read
              cases read
              exact ⟨piece, mid, more, rfl, ended, hm, rfl⟩
      · cases read

/-- What is read from `t` is the compartment as well, and behind blanks it goes on as `left`
does. -/
def Rereads (body : BodyReader) (t : List Char) (compartment : Compartment) (left : List Char) :
    Prop :=
  ∃ left', slots body t = .ok (compartment, left') ∧ Abreast (skipGap left) (skipGap left') ∧
    Settles left'

theorem Rereads.cons_white {c : Char} {compartment : Compartment} (white : isWhite c = true)
    (free : ¬ Blocked t) (rereads : Rereads body t compartment left) :
    Rereads body (c :: t) compartment left := by
  obtain ⟨after, read, abreast, settled⟩ := rereads
  obtain ⟨left', wider, same⟩ := (slots_white body white (.inr free)).symm.exists_of_ok read
  refine ⟨left', wider, by rwa [same], settled.of_marks_eq ?_⟩
  rw [← marks_skipGap, ← same, marks_skipGap]

/-- The slots of a wider text that settles are those of the text, by induction on the length of the
wider text: a blank put in or skipped goes before the rest, a closing mark ends the slots, and
anything else starts a slot that is read in both texts. -/
theorem slots_widened (widening : body.Widening) {s t left : List Char}
    (widened : Widened s t) (settles : Settles t) {compartment : Compartment}
    (read : slots body s = .ok (compartment, left)) : Rereads body t compartment left := by
  cases widened with
  | nil =>
      have nothing : slots body [] = .ok (.empty, []) := slots_end rfl
      rw [nothing] at read
      cases read
      exact ⟨[], nothing, ⟨.nil, rfl⟩, settles⟩
  | @put w _ t white line place rest =>
      have settles' := settles.of_marks_eq (Text.marks_white white t)
      have free : ¬ Blocked t := fun blocked => place.not_blocked (rest.blocked_iff.1 blocked)
      exact (slots_widened widening rest settles' read).cons_white white free
  | @cons c s t rest escape =>
      cases skipped : isSlotGap c with
      | true =>
          obtain ⟨markless, slashless⟩ := plain_of_isSlotGap skipped
          have settles' := settles.of_marks_eq (Text.marks_cons_plain markless slashless t)
          rw [slots_congr body (skipSeparators_cons skipped s)] at read
          rw [Rereads, slots_congr body (skipSeparators_cons skipped t)]
          exact slots_widened widening rest settles' read
      | false =>
          have self := skipSeparators_eq_self skipped
          cases white : isWhite c with
          | true =>
              have settles' := settles.of_marks_eq (Text.marks_white white t)
              have free := not_blocked_of_slots white skipped read
              obtain ⟨before, behind, same⟩ :=
                (slots_white body white (.inr free)).exists_of_ok read
              have rereads : Rereads body t compartment left := by
                rw [Rereads, ← same]
                exact slots_widened widening rest settles' behind
              exact rereads.cons_white white fun blocked => free (rest.blocked_iff.1 blocked)
          | false =>
              by_cases mark : c = ']' ∨ c = '|'
              · have boundary := atBoundary_of_mark mark
                have kept : Text.isGap c = false := by rcases mark with rfl | rfl <;> rfl
                rw [slots_end (by rw [self, boundary]), self] at read
                cases read
                refine ⟨c :: t, by rw [slots_end (by rw [self, boundary]), self], ?_, settles⟩
                rw [skipGap_eq_self kept, skipGap_eq_self kept]
                exact ⟨.cons c rest escape, rfl⟩
              · -- a classifier or a line of text: both slots end, and the next ones are read again
                have inside : ∀ r, atBoundary (skipSeparators (c :: r)) = false := fun r => by
                  rw [self, atBoundary_of_dark white mark]
                obtain ⟨piece, mid, more, first, ended, next, rfl⟩ :=
                  exists_of_slots_step (inside s) read
                rw [self] at first
                obtain ⟨mid', first', after, ended', settles'⟩ :=
                  slot_widened widening (.cons c rest escape) settles first ended
                rw [← self t] at first'
                have shorter := (slot_progress (by simp [inside t]) first').2
                obtain ⟨left', next', found⟩ := slots_widened widening after settles' next
                exact ⟨left', slots_step_ok (inside t) first' ended' next', found⟩
termination_by t.length

/-- Compartments are told apart by blanks at the start of the first one only in what is left. -/
theorem compartments_agree (agree : Outcome.Agree SameGap (slots body s) (slots body t)) :
    Outcome.Agree SameGap (compartments body s) (compartments body t) := by
  rw [compartments_eq, compartments_eq]
  apply agree.andThen
  intro first rest rest' _ same
  rw [show skipGap rest = skipGap rest' from same]
  split
  · exact .refl _
  · exact .ok _ same

theorem compartments_widened (widening : body.Widening) (widened : Widened s t)
    (settles : Settles t) {parts : List Compartment}
    (read : compartments body s = .ok (parts, left)) :
    ∃ left', compartments body t = .ok (parts, left') ∧ Abreast (skipGap left) (skipGap left') ∧
      Settles left' := by
  fun_induction compartments body s generalizing t parts left with
  | case1 => cases read
  | case2 => cases read
  | case3 s first middle hs next bar more left hm ih =>
      cases read
      obtain ⟨middle', hs', abreast, settled⟩ := slots_widened widening widened settles hs
      rcases abreast.cases with ⟨nothing, -⟩ | ⟨c, r, next', shape, bar', behind⟩
      · rw [bar] at nothing
        cases nothing
      · rw [bar] at shape
        cases shape
        have marked := settled.of_marks_eq (marks_skipGap middle').symm
        rw [bar', settles_cons (by decide)] at marked
        have free := marked.1.2 rfl
        obtain ⟨front, back, spread, blank, after⟩ := behind.exists_of_skipGap_both
        have settles' := marked.2.of_marks_eq (marks_skipGap next').symm
        rw [spread] at settles' free
        have settled' := settles'.of_marks_eq (Text.marks_blank_append blank back)
        obtain ⟨left', hm', abreast', rest⟩ := ih after settled' hm
        have agree := compartments_agree (slots_blank_append body blank free)
        obtain ⟨left'', wider, same⟩ := agree.symm.exists_of_ok hm'
        rw [← spread] at wider
        refine ⟨left'', compartments_bar hs' bar' wider, by rwa [same], rest.of_marks_eq ?_⟩
        rw [← marks_skipGap, ← same, marks_skipGap]
  | case4 s first middle hs barless =>
      cases read
      obtain ⟨middle', hs', abreast, settled⟩ := slots_widened widening widened settles hs
      refine ⟨middle', compartments_end hs' fun next bar => ?_, abreast, settled⟩
      rcases abreast.cases with ⟨-, nothing⟩ | ⟨c, r, u, shape, shape', -⟩
      · rw [bar] at nothing
        cases nothing
      · rw [bar] at shape'
        cases shape'
        exact barless r shape

theorem closed_widened (widening : body.Widening) (widened : Widened s t) (settles : Settles t)
    {classifier : Classifier} {rest : List Char}
    (read : closed body s = .ok (classifier, rest)) :
    ∃ rest', closed body t = .ok (classifier, rest') ∧ Widened rest rest' ∧ Finished rest' ∧
      Settles rest' := by
  rw [closed.eq_def] at read
  split at read
  · cases read
  · next parts middle hc =>
      split at read
      · next left bracket =>
          cases read
          obtain ⟨middle', hc', abreast, settled⟩ :=
            compartments_widened widening widened settles hc
          rcases abreast.cases with ⟨nothing, -⟩ | ⟨c, r, left', shape, bracket', behind⟩
          · rw [bracket] at nothing
            cases nothing
          · rw [bracket] at shape
            cases shape
            have marked := settled.of_marks_eq (marks_skipGap middle').symm
            rw [bracket', settles_cons (by decide)] at marked
            exact ⟨left', closed_bracket hc' bracket', behind, marked.1.1 rfl, marked.2⟩
      · cases read

theorem classifier_widening (levels : Nat) : (classifier levels).Widening := by
  induction levels with
  | zero =>
      intro s t _ _ found rest read
      cases read
  | succ levels ih =>
      intro s t widened settles found rest read
      exact closed_widened ih widened settles read

/-- A widened text is read as the same diagram if all is settled in it, and else it is refused. -/
theorem document_widened (widened : Widened s t) {root : Compartment}
    (accepted : document s = .ok root) :
    (Settles t → document t = .ok root) ∧
      (¬ Settles t → ∃ fault, document t = .error fault) := by
  constructor
  · intro settles
    obtain ⟨rest, read, nothing⟩ := exists_of_document accepted
    obtain ⟨rest', read', abreast, -⟩ :=
      slots_widened (classifier_widening nestingLimit) widened settles read
    rcases abreast.cases with ⟨-, nothing'⟩ | ⟨c, r, u, shape, -⟩
    · exact document_end read' nothing'
    · rw [nothing] at shape
      cases shape
  · intro unsettled
    cases read : document t with
    | error fault => exact ⟨fault, rfl⟩
    | ok found => exact absurd (document_settles read) unsettled

end ClassDiagram.Draft
