import ClassDiagram.Proofs.Draft.Widened.Places
import ClassDiagram.Proofs.Text.Pieces

set_option autoImplicit false

/-!
A compartment that ends with its text goes on behind a line feed, unless a carriage return behind a
classifier keeps the line feed from being seen.
-/
namespace ClassDiagram.Draft

open Text (isBlank isWhite isGap pieces IsTrimmed)

variable {body : BodyReader} {s more rest left : List Char}

/-- A slot that reaches up to the blanks at the end of `s` may end there when `more` follows on the
next line. -/
def Joint (s more : List Char) : Prop :=
  ∀ gap, gap <:+ s → gap.all isGap = true → endsSlot (gap ++ '\n' :: more) = true

theorem Joint.of_suffix {t : List Char} (joint : Joint s more) (tail : t <:+ s) : Joint t more :=
  fun gap last => joint gap (last.trans tail)

/-- In front of the end of a compartment blanks are skipped, whatever they are. -/
theorem Joint.of_atBoundary (boundary : atBoundary more = true) (s : List Char) : Joint s more := by
  intro gap _ blank
  rw [endsSlot, atBoundary_append_gap blank, atBoundary_cons (by decide), boundary, Bool.or_true]

/-- At the end of a text with trimmed lines stand no blanks but line feeds. -/
theorem head?_gap_of_trimmed {gap : List Char}
    (trimmed : ∀ line ∈ pieces '\n' s, ∀ c ∈ line.getLast?, isWhite c = false) (last : gap <:+ s)
    (blank : gap.all isGap = true) : ∀ c ∈ gap.head?, c = '\n' := by
  induction s with
  | nil =>
      rw [List.suffix_nil.1 last]
      simp
  | cons d r ih =>
      by_cases feed : d = '\n'
      · subst feed
        rw [Text.pieces_mark] at trimmed
        rcases List.suffix_cons_iff.1 last with rfl | inside
        · rintro c ⟨⟩
          rfl
        · exact ih (fun line mem => trimmed line (List.mem_cons_of_mem _ mem)) inside
      · obtain ⟨first, others, cut, whole⟩ := Text.pieces_cons_of_ne feed r
        rw [whole] at trimmed
        rcases List.suffix_cons_iff.1 last with rfl | inside
        · -- the first line would be blank
          have close := List.getLast?_eq_some_getLast (List.cons_ne_nil d first)
          have mem := Text.mem_of_mem_first_piece whole (List.mem_of_getLast? close)
          have dark := trimmed _ List.mem_cons_self _ close
          rw [Text.isWhite_of_isGap (List.all_eq_true.1 blank _ mem)] at dark
          cases dark
        · refine ih (fun line mem => ?_) inside
          rw [cut] at mem
          rcases List.mem_cons.1 mem with rfl | mem
          · intro c edge
            apply trimmed _ List.mem_cons_self
            rw [List.getLast?_cons, Option.mem_def.1 edge]
            rfl
          · exact trimmed line (List.mem_cons_of_mem _ mem)

theorem Joint.of_trimmed (trimmed : ∀ line ∈ pieces '\n' s, IsTrimmed line) (more : List Char) :
    Joint s more := by
  intro gap last blank
  have feeds := head?_gap_of_trimmed (fun line mem => (trimmed line mem).last) last blank
  have apart : ∀ t, separated ('\n' :: t) = true := fun t => by rw [separated_cons]; rfl
  rw [endsSlot, Bool.or_eq_true]
  left
  cases gap with
  | nil => exact apart more
  | cons c gap =>
      rw [feeds c rfl]
      exact apart _

theorem not_blocked_feed {front : List Char} (blank : isBlank front = true) :
    ¬ Blocked (front ++ '\n' :: more) := by
  induction front with
  | nil =>
      rw [List.nil_append, blocked_cons_iff]
      simp
  | cons c front ih =>
      rw [isBlank, List.all_cons, Bool.and_eq_true] at blank
      rw [List.cons_append, blocked_cons_iff]
      rintro (rfl | ⟨-, -, behind⟩)
      · cases blank.1
      · exact ih blank.2 behind

/-- White characters that are stray below a blank line are stray without it. -/
theorem Stray.of_feed {front : List Char} (blank : isBlank front = true)
    (stray : Stray (front ++ '\n' :: more)) : Stray more := by
  induction front with
  | nil =>
      rw [List.nil_append, stray_cons_iff] at stray
      exact stray.2.resolve_right fun here => absurd here.1 (by decide)
  | cons c front ih =>
      rw [isBlank, List.all_cons, Bool.and_eq_true] at blank
      rw [List.cons_append, stray_cons_iff] at stray
      exact ih blank.2 (stray.2.resolve_right fun here => not_blocked_feed blank.2 here.2)

theorem not_stray_of_slots {compartment : Compartment}
    (read : slots body s = .ok (compartment, rest)) : ¬ Stray s := by
  intro stray
  obtain ⟨fault, refused⟩ := slots_stray body stray
  rw [read] at refused
  cases refused

/-- A blank line in front of a compartment is not seen. -/
theorem slots_blank_feed {front : List Char} {compartment : Compartment}
    (blank : isBlank front = true) (read : slots body more = .ok (compartment, left)) :
    ∃ left', slots body (front ++ '\n' :: more) = .ok (compartment, left') ∧
      skipGap left' = skipGap left := by
  have free : ¬ Stray ((front ++ ['\n']) ++ more) := by
    rw [List.append_assoc, List.singleton_append]
    exact fun stray => not_stray_of_slots read (stray.of_feed blank)
  have line : isBlank (front ++ ['\n']) = true := by
    rw [isBlank, List.all_append, ← isBlank, blank]
    rfl
  have agree := slots_blank_append body line free
  rw [List.append_assoc, List.singleton_append] at agree
  exact agree.symm.exists_of_ok read

theorem skipSeparators_append_left (s tail : List Char) :
    skipSeparators (s ++ tail) = skipSeparators (skipSeparators s ++ tail) := by
  induction s with
  | nil => rfl
  | cons c r ih =>
      cases skipped : isSlotGap c with
      | true => rw [List.cons_append, skipSeparators_cons skipped, skipSeparators_cons skipped, ih]
      | false => rw [skipSeparators_eq_self skipped]

/-- Where a slot ends it also ends when more text follows on the next line. -/
theorem Joint.endsSlot_append {mid : List Char} (joint : Joint s more) (tail : mid <:+ s)
    (ended : endsSlot mid = true) : endsSlot (mid ++ '\n' :: more) = true := by
  by_cases exhausted : Exhausted mid
  · exact joint mid tail ((exhausted_iff mid).1 exhausted)
  · rw [endsSlot, Bool.or_eq_true] at ended
    rw [endsSlot, atBoundary_append exhausted, Bool.or_eq_true]
    exact ended.imp_left fun apart => separated_append_of apart _

theorem slot_append_feed (stays : body.Stays ('\n' :: more)) (something : s ≠ [])
    {piece : Compartment} (read : slot body s = .ok (piece, rest)) :
    slot body (s ++ '\n' :: more) = .ok (piece, rest ++ '\n' :: more) := by
  have kept := slot_kept stays something
  rw [read] at kept
  generalize slot body (s ++ '\n' :: more) = longer at kept
  cases kept with
  | ok => rfl
  | ended _ never _ => exact never.elim

/-- The slots up to the end of a text and those of the lines below it are read one after the other,
by induction on the length of the text: only blanks are left of it, or one of its slots is read and
its end is still one. -/
theorem slots_append_feed (stays : body.Stays ('\n' :: more)) {s rest : List Char}
    (joint : Joint s more) {compartment others : Compartment}
    (read : slots body s = .ok (compartment, rest)) (whole : Exhausted rest)
    (next : slots body more = .ok (others, left)) :
    ∃ left', slots body (s ++ '\n' :: more) = .ok (compartment ++ others, left') ∧
      skipGap left' = skipGap left := by
  cases inside : atBoundary (skipSeparators s) with
  | true =>
      rw [slots_end inside] at read
      cases read
      have blank := isBlank_of_isGap ((exhausted_iff _).1 whole)
      rw [Compartment.empty_append, slots_congr body (skipSeparators_append_left s _)]
      exact slots_blank_feed blank next
  | false =>
      obtain ⟨piece, mid, others', first, ended, behind, rfl⟩ := exists_of_slots_step inside read
      have exhausted : ¬ Exhausted (skipSeparators s) := by
        intro nothing
        rw [atBoundary, nothing] at inside
        cases inside
      have something := ne_nil_of_not_exhausted exhausted
      have skip := skipSeparators_append something ('\n' :: more)
      have inside' : atBoundary (skipSeparators (s ++ '\n' :: more)) = false := by
        rw [skip, atBoundary_append exhausted, inside]
      have first' := slot_append_feed stays something first
      rw [← skip] at first'
      have shorter := slot_progress (by simp [inside]) first
      have ended' := joint.endsSlot_append shorter.1 ended
      have less := shorter.2
      obtain ⟨left', last, same⟩ :=
        slots_append_feed stays (joint.of_suffix shorter.1) behind whole next
      rw [Compartment.append_assoc]
      exact ⟨left', slots_step_ok inside' first' ended' last, same⟩
termination_by s.length

theorem document_joined {first second : List Char} {root other : Compartment}
    (joint : Joint first second) (accepted : document first = .ok root)
    (accepted' : document second = .ok other) :
    document (first ++ '\n' :: second) = .ok (root ++ other) := by
  obtain ⟨rest, read, whole⟩ := exists_of_document accepted
  obtain ⟨left, read', whole'⟩ := exists_of_document accepted'
  obtain ⟨left', both, same⟩ :=
    slots_append_feed (classifier_stays nestingLimit second) joint read whole read'
  exact document_end both (same.trans whole')

/-- Two accepted texts may be put one below the other if the lines of the first are trimmed: the
lines, classifiers and associations of the second follow those of the first. -/
theorem ofText?_joined {first second : String} {root other : Compartment}
    (trimmed : ∀ line ∈ pieces '\n' first.toList, IsTrimmed line)
    (accepted : ofText? first = .ok root) (accepted' : ofText? second = .ok other) :
    ofText? (first ++ "\n" ++ second) =
      .ok ⟨root.lines ++ other.lines, root.classifiers ++ other.classifiers,
        root.relations ++ other.relations⟩ := by
  have letters : (first ++ "\n" ++ second).toList = first.toList ++ '\n' :: second.toList := by
    simp [String.toList_append]
  rw [ofText?_eq_ok_iff] at accepted accepted' ⊢
  rw [letters]
  exact document_joined (.of_trimmed trimmed _) accepted accepted'

/-- The first text ends in a backslash, and the second begins with a separator. -/
theorem ofText?_joined_of_backslash :
    ∃ root other, ofText? "[A] -> [B]\nnote \\" = .ok root ∧ ofText? "; x\n[B|y]" = .ok other ∧
      ofText? ("[A] -> [B]\nnote \\" ++ "\n" ++ "; x\n[B|y]") =
        .ok ⟨root.lines ++ other.lines, root.classifiers ++ other.classifiers,
          root.relations ++ other.relations⟩ := by
  have trimmed : ∀ line ∈ pieces '\n' "[A] -> [B]\nnote \\".toList, IsTrimmed line := by
    decide +kernel
  have read : (ofText? "[A] -> [B]\nnote \\").isOk = true := by decide +kernel
  have read' : (ofText? "; x\n[B|y]").isOk = true := by decide +kernel
  obtain ⟨root, accepted⟩ := exists_of_isOk read
  obtain ⟨other, accepted'⟩ := exists_of_isOk read'
  exact ⟨root, other, accepted, accepted', ofText?_joined trimmed accepted accepted'⟩

end ClassDiagram.Draft
