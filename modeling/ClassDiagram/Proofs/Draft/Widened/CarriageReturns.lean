import ClassDiagram.Proofs.Draft.Widened.Places

set_option autoImplicit false

namespace ClassDiagram.Draft

open Text (isBlank isWhite isGap isSpace isDelimiter isSeparator run marks)

variable {s : List Char} {c : Char}

def crlf (s : List Char) : List Char := s.flatMap fun c => if c = '\n' then ['\r', '\n'] else [c]

/-- Whether every line that ends in a classifier is the last one of its compartment. -/
def LinesFit (s : List Char) : Prop :=
  ∀ before after, s = before ++ '\n' :: after →
    ∀ gap, EndsIn ']' gap before → separated gap = false → atBoundary after = true

theorem crlf_feed (s : List Char) : crlf ('\n' :: s) = '\r' :: '\n' :: crlf s := rfl

theorem crlf_cons (other : c ≠ '\n') (s : List Char) : crlf (c :: s) = c :: crlf s := by
  simp [crlf, other]

theorem crlf_append (s t : List Char) : crlf (s ++ t) = crlf s ++ crlf t :=
  List.flatMap_append

theorem pauses_feed (s : List Char) : Pauses ('\n' :: s) := by
  rintro c ⟨⟩
  decide

theorem widened_crlf (s : List Char) : Widened s (crlf s) := by
  induction s with
  | nil => exact .nil
  | cons c r ih =>
      by_cases feed : c = '\n'
      · subst feed
        have more : Widened ('\n' :: r) ('\n' :: crlf r) :=
          .cons '\n' ih fun slash => absurd slash (by decide)
        exact .put (by decide) (by decide) (pauses_feed r) more
      · rw [crlf_cons feed]
        refine .cons c ih fun _ d first mark => ?_
        obtain ⟨u, rfl⟩ := List.head?_eq_some_iff.1 first
        have other : d ≠ '\n' := by
          rintro rfl
          cases mark
        rw [crlf_cons other]
        rfl

theorem marksBehind_crlf (slash : Bool) (s : List Char) :
    Text.marksBehind slash (crlf s) =
      (Text.marksBehind slash s).map fun mark => (mark.1, crlf mark.2) := by
  induction s generalizing slash with
  | nil => rfl
  | cons c r ih =>
      by_cases feed : c = '\n'
      · subst feed
        exact ih false
      · rw [crlf_cons feed, Text.marksBehind, Text.marksBehind, ih, ih]
        split
        · rfl
        · rfl

theorem mem_marks_crlf (s : List Char) (c : Char) (rest : List Char) :
    (c, rest) ∈ marks (crlf s) ↔ ∃ r, (c, r) ∈ marks s ∧ crlf r = rest := by
  rw [marks, marks, marksBehind_crlf, List.mem_map]
  constructor
  · rintro ⟨⟨d, r⟩, mem, same⟩
    cases same
    exact ⟨r, mem, rfl⟩
  · rintro ⟨r, mem, rfl⟩
    exact ⟨(c, r), mem, rfl⟩

theorem skipGap_crlf (s : List Char) : skipGap (crlf s) = crlf (skipGap s) := by
  induction s with
  | nil => rfl
  | cons c r ih =>
      by_cases feed : c = '\n'
      · subst feed
        exact ih
      · rw [crlf_cons feed]
        cases skipped : isGap c with
        | true => rw [skipGap_cons skipped, skipGap_cons skipped, ih]
        | false => rw [skipGap_eq_self skipped, skipGap_eq_self skipped, crlf_cons feed]

theorem atBoundary_crlf (s : List Char) : atBoundary (crlf s) = atBoundary s := by
  rw [atBoundary, atBoundary, skipGap_crlf]
  cases skipGap s with
  | nil => rfl
  | cons c r =>
      by_cases feed : c = '\n'
      · subst feed
        rfl
      · rw [crlf_cons feed]

theorem all_isGap_crlf {gap : List Char} (blank : gap.all isGap = true) :
    (crlf gap).all isGap = true := by
  rw [← exhausted_iff, Exhausted] at blank ⊢
  rw [skipGap_crlf, blank]
  rfl

theorem separated_of_crlf (found : separated (crlf s) = true) : separated s = true := by
  induction s with
  | nil => exact found
  | cons c r ih =>
      by_cases feed : c = '\n'
      · subst feed
        rfl
      · rw [crlf_cons feed, separated_cons, Bool.and_eq_true, Bool.or_eq_true] at found
        rw [separated_cons, Bool.and_eq_true, Bool.or_eq_true]
        exact ⟨found.1, found.2.imp_right ih⟩

/-- A separator is hidden by a carriage return if it is the line feed behind that. -/
theorem separated_crlf (found : separated s = true) :
    separated (crlf s) = true ∨
      ∃ gap rest, s = gap ++ '\n' :: rest ∧ gap.all isGap = true ∧ separated gap = false := by
  induction s with
  | nil => cases found
  | cons c r ih =>
      by_cases feed : c = '\n'
      · subst feed
        exact .inr ⟨[], r, rfl, rfl, rfl⟩
      · rw [separated_cons, Bool.and_eq_true] at found
        rw [crlf_cons feed, separated_cons, found.1, Bool.true_and]
        cases separator : isSeparator c with
        | true => exact .inl rfl
        | false =>
            have space : isSpace c = true := by simpa [isSlotGap, separator] using found.1
            rw [separator, Bool.false_or] at found
            refine (ih found.2).imp_right fun hidden => ?_
            obtain ⟨gap, rest, whole, blank, unparted⟩ := hidden
            refine ⟨c :: gap, rest, by rw [whole]; rfl, ?_, ?_⟩
            · rw [List.all_cons, Text.isGap_of_isSpace space, blank]
              rfl
            · rw [separated_cons, separator, unparted]
              exact Bool.and_false _

theorem settles_crlf (settles : Settles s) (fit : LinesFit s) : Settles (crlf s) := by
  rintro ⟨c, rest⟩ found
  obtain ⟨r, mem, rfl⟩ := (mem_marks_crlf s c rest).1 found
  obtain ⟨mark, front, rfl, loose⟩ := (Text.mem_marks_iff s c r).1 mem
  obtain ⟨closed, bar⟩ : Settled c r := settles (c, r) mem
  constructor
  · rintro rfl blank
    rw [(widened_crlf r).isBlank_run] at blank
    have ended := closed rfl blank
    rw [endsSlot, Bool.or_eq_true] at ended
    rw [endsSlot, atBoundary_crlf, Bool.or_eq_true]
    rcases ended with found | boundary
    · refine (separated_crlf found).imp_right fun hidden => ?_
      obtain ⟨gap, more, whole, blank, unparted⟩ := hidden
      have boundary := fit (front ++ ']' :: gap) more (by simp [whole]) gap
        ⟨front, rfl, loose, blank⟩ unparted
      rw [whole, atBoundary_append_gap blank, atBoundary_cons (by decide), boundary]
    · exact .inr boundary
  · rintro rfl stray
    apply bar rfl
    rw [skipGap_crlf] at stray
    exact (widened_crlf _).stray stray

theorem linesFit_of_settles (settles : Settles (crlf s)) : LinesFit s := by
  rintro before after rfl gap ⟨front, rfl, loose, blank⟩ none
  have mem : (']', gap ++ '\n' :: after) ∈ marks (front ++ ']' :: gap ++ '\n' :: after) :=
    (Text.mem_marks_iff _ _ _).2 ⟨by decide, front, by simp, loose⟩
  have settled := settles _ ((mem_marks_crlf _ _ _).2 ⟨_, mem, rfl⟩)
  have finished := settled.1 rfl
  rw [crlf_append, crlf_feed] at finished
  have none' : separated (crlf gap) = false := by
    cases found : separated (crlf gap) with
    | false => rfl
    | true => rw [separated_of_crlf found] at none; exact none
  rcases fits_of_finished (all_isGap_crlf blank) none' (by decide) (by decide) (pauses_feed _)
    finished with space | ⟨-, boundary⟩
  · cases space
  · rwa [atBoundary_cons (by decide), atBoundary_crlf] at boundary

theorem document_crlf {root : Compartment} (accepted : document s = .ok root) :
    (LinesFit s → document (crlf s) = .ok root) ∧
      (¬ LinesFit s → ∃ fault, document (crlf s) = .error fault) := by
  obtain ⟨same, refused⟩ := document_widened (widened_crlf s) accepted
  constructor
  · intro fit
    exact same (settles_crlf (document_settles accepted) fit)
  · intro misfit
    exact refused fun settles => misfit (linesFit_of_settles settles)

/-- What is known of a document is known of a text. -/
theorem ofText?_of_document {fit : Prop} {root : Compartment}
    (read : (fit → document s = .ok root) ∧ (¬ fit → ∃ fault, document s = .error fault)) :
    (fit → ofText? (String.ofList s) = .ok root) ∧
      (¬ fit → ∃ diagnostic, ofText? (String.ofList s) = .error diagnostic) := by
  constructor
  · intro fits
    rw [ofText?_eq_ok_iff, String.toList_ofList]
    exact read.1 fits
  · intro misfit
    obtain ⟨fault, refused⟩ := read.2 misfit
    rw [ofText?, String.toList_ofList, refused]
    exact ⟨_, rfl⟩

/-- In an accepted text one white character more in front of a bracket, bar, separator or the end is
not seen, if it fits there; if not, the text is refused. Carriage returns in front of all line feeds
are not seen either, if every line that ends in a classifier is the last one of its compartment; if
not, the text is refused. -/
theorem ofText?_insert_white {text : String} {root : Compartment}
    (accepted : ofText? text = .ok root) :
    (∀ before w after, text.toList = before ++ after → Place before after → isWhite w = true →
        w ≠ '\n' →
        (Fits before w after → ofText? (String.ofList (before ++ w :: after)) = .ok root) ∧
          (¬ Fits before w after →
            ∃ diagnostic, ofText? (String.ofList (before ++ w :: after)) = .error diagnostic)) ∧
      (LinesFit text.toList → ofText? (String.ofList (crlf text.toList)) = .ok root) ∧
      (¬ LinesFit text.toList →
        ∃ diagnostic, ofText? (String.ofList (crlf text.toList)) = .error diagnostic) := by
  rw [ofText?_eq_ok_iff] at accepted
  refine ⟨fun before w after whole place white line => ?_, ?_⟩
  · rw [whole] at accepted
    exact ofText?_of_document (document_insert accepted place white line)
  · exact ofText?_of_document (document_crlf accepted)

/-- An ideographic space in front of a bar, and a carriage return behind the last classifier. -/
theorem ofText?_insert_white_of_last_line :
    ∃ root, ofText? "[A|x]\n" = .ok root ∧ ofText? "[A\u3000|x]\n" = .ok root ∧
      ofText? "[A|x]\r\n" = .ok root := by
  have read : (ofText? "[A|x]\n").isOk = true := by decide +kernel
  cases accepted : ofText? "[A|x]\n" with
  | error reason =>
      rw [accepted] at read
      cases read
  | ok root =>
      obtain ⟨insert, lines, -⟩ := ofText?_insert_white accepted
      have place : Place "[A".toList "|x]\n".toList := by
        rintro c ⟨⟩
        decide
      have fits : Fits "[A".toList '\u3000' "|x]\n".toList := by
        constructor
        · rintro gap ⟨front, whole, -⟩
          have mem : ']' ∈ "[A".toList := by
            rw [whole]
            exact List.mem_append_right _ List.mem_cons_self
          exact absurd mem (by decide)
        · rintro gap ⟨front, whole, -⟩
          have mem : '|' ∈ "[A".toList := by
            rw [whole]
            exact List.mem_append_right _ List.mem_cons_self
          exact absurd mem (by decide)
      have wide := (insert _ '\u3000' _ rfl place (by decide) (by decide)).1 fits
      have fit : LinesFit "[A|x]\n".toList := by
        intro before after whole gap _ _
        cases after with
        | nil => rfl
        | cons c after =>
            have mem : '\n' ∈ "[A|x]\n".toList.dropLast := by
              rw [whole, List.dropLast_append_of_ne_nil (List.cons_ne_nil _ _)]
              exact List.mem_append_right _ List.mem_cons_self
            exact absurd mem (by decide)
      have returned := lines fit
      have shape : String.ofList ("[A".toList ++ '\u3000' :: "|x]\n".toList) = "[A\u3000|x]\n" := by
        decide +kernel
      have shape' : String.ofList (crlf "[A|x]\n".toList) = "[A|x]\r\n" := by decide +kernel
      rw [shape] at wide
      rw [shape'] at returned
      exact ⟨root, rfl, wide, returned⟩

/-- Behind a classifier a line feed may follow, but no carriage return in front of it. -/
theorem ofText?_crlf_behind_classifier :
    (ofText? "[A]\n[B]").isOk = true ∧ (ofText? "[A]\r\n[B]").isOk = false ∧
      String.ofList (crlf "[A]\n[B]".toList) = "[A]\r\n[B]" := by
  decide +kernel

end ClassDiagram.Draft
