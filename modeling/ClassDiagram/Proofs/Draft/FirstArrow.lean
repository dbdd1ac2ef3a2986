import ClassDiagram.Proofs.Draft.Arrow

set_option autoImplicit false

namespace ClassDiagram.Draft.Link

open Text (Trims)

/-- A text cut around its first shaft character. In front of that character stands the longest run
of tail characters; behind it a slash, if there is one, the longest run of shaft characters and then
the longest run of head characters. -/
inductive AtFirstShaft : List Char → Link → Prop where
  | parts {before tail slash shaft head after : List Char} {first : Char}
      (shaftless : ∀ c ∈ before, isShaft c = false)
      (tail_ok : ∀ c ∈ tail, isTail c = true)
      (tail_starts : ∀ c ∈ before.getLast?, isTail c = false)
      (first_ok : isShaft first = true)
      (slash_ok : slash = [] ∨ slash = ['/'])
      (slash_ends : slash = [] → ∀ c ∈ (shaft ++ (head ++ after)).head?, c ≠ '/')
      (shaft_ok : ∀ c ∈ shaft, isShaft c = true)
      (shaft_ends : ∀ c ∈ (head ++ after).head?, isShaft c = false)
      (head_ok : ∀ c ∈ head, isHead c = true)
      (head_ends : ∀ c ∈ after.head?, isHead c = false) :
      AtFirstShaft (before ++ (tail ++ first :: (slash ++ (shaft ++ (head ++ after)))))
        ⟨before, tail ++ first :: (slash ++ (shaft ++ head)), after⟩

variable {s : List Char} {link : Link}

theorem AtFirstShaft.ofText?_eq (cut : AtFirstShaft s link) : ofText? s = some link := by
  obtain ⟨shaftless, tail_ok, tail_starts, first_ok, slash_ok, slash_ends, shaft_ok, shaft_ends,
    head_ok, head_ends⟩ := cut
  apply ofText?_of_cutArrow? shaftless tail_starts
  rw [cutArrow?_tail tail_ok first_ok,
    cutShaft_parts slash_ok slash_ends shaft_ok shaft_ends head_ok head_ends]

theorem AtFirstShaft.isArrow (cut : AtFirstShaft s link) : IsArrow link.arrow := by
  obtain ⟨-, tail_ok, -, first_ok, slash_ok, -, shaft_ok, -, head_ok, -⟩ := cut
  exact .parts tail_ok first_ok slash_ok shaft_ok head_ok

theorem AtFirstShaft.shaftless_before (cut : AtFirstShaft s link) :
    ∀ c ∈ link.before, isShaft c = false := by
  obtain ⟨shaftless, -, -, -, -, -, -, -, -, -⟩ := cut
  exact shaftless

/-- The last characters of a text that satisfy `p`, and what stands in front of them. -/
theorem exists_last_run (p : Char → Bool) (s : List Char) :
    ∃ front run, s = front ++ run ∧ (∀ c ∈ run, p c = true) ∧
      ∀ c ∈ front.getLast?, p c = false := by
  induction s with
  | nil => exact ⟨[], [], rfl, by simp, by simp⟩
  | cons c r ih =>
      obtain ⟨front, run, rfl, all, starts⟩ := ih
      cases front with
      | cons d front =>
          refine ⟨c :: d :: front, run, rfl, all, ?_⟩
          simpa only [List.getLast?_cons_cons] using starts
      | nil =>
          cases hc : p c with
          | true =>
              refine ⟨[], c :: run, rfl, ?_, by simp⟩
              intro d mem
              rcases List.mem_cons.1 mem with rfl | mem
              · exact hc
              · exact all d mem
          | false =>
              refine ⟨[c], run, rfl, all, ?_⟩
              rintro d ⟨⟩
              exact hc

/-- The first characters of a text that satisfy `p`, and what stands behind them. -/
theorem exists_first_run (p : Char → Bool) (s : List Char) :
    ∃ run back, s = run ++ back ∧ (∀ c ∈ run, p c = true) ∧ ∀ c ∈ back.head?, p c = false := by
  refine ⟨s.takeWhile p, s.dropWhile p, List.takeWhile_append_dropWhile.symm,
    List.all_eq_true.1 List.all_takeWhile, fun c first => ?_⟩
  have stops := List.head?_dropWhile_not p s
  rw [first] at stops
  simpa using stops

theorem exists_slash (s : List Char) :
    ∃ slash back, s = slash ++ back ∧ (slash = [] ∨ slash = ['/']) ∧
      (slash = [] → ∀ c ∈ back.head?, c ≠ '/') := by
  cases s with
  | nil => exact ⟨[], [], rfl, .inl rfl, by simp⟩
  | cons c r =>
      by_cases hc : c = '/'
      · subst hc
        exact ⟨['/'], r, rfl, .inr rfl, by simp⟩
      · refine ⟨[], c :: r, rfl, .inl rfl, ?_⟩
        rintro - d ⟨⟩
        exact hc

/-- Every text with a shaft character can be cut around the first of them. -/
theorem exists_atFirstShaft (found : s.any isShaft = true) : ∃ link, AtFirstShaft s link := by
  obtain ⟨front, more, rfl, shaftless, stop⟩ := exists_first_run (fun c => !isShaft c) s
  have shaftless : ∀ c ∈ front, isShaft c = false := by simpa using shaftless
  cases more with
  | nil =>
      obtain ⟨c, mem, shaft⟩ := List.any_eq_true.1 found
      rw [shaftless c (by simpa using mem)] at shaft
      cases shaft
  | cons first back =>
      have first_ok : isShaft first = true := by simpa using stop first rfl
      obtain ⟨before, tail, rfl, tail_ok, tail_starts⟩ := exists_last_run isTail front
      obtain ⟨slash, more, rfl, slash_ok, slash_ends⟩ := exists_slash back
      obtain ⟨shaft, more, rfl, shaft_ok, shaft_ends⟩ := exists_first_run isShaft more
      obtain ⟨head, after, rfl, head_ok, head_ends⟩ := exists_first_run isHead more
      rw [List.append_assoc]
      exact ⟨_, .parts (fun c mem => shaftless c (List.mem_append_left _ mem)) tail_ok tail_starts
        first_ok slash_ok slash_ends shaft_ok shaft_ends head_ok head_ends⟩

theorem ofText?_eq_some_iff : ofText? s = some link ↔ AtFirstShaft s link := by
  refine ⟨fun found => ?_, AtFirstShaft.ofText?_eq⟩
  have shaft := ofText?_isSome s
  rw [found] at shaft
  obtain ⟨other, cut⟩ := exists_atFirstShaft shaft.symm
  rw [cut.ofText?_eq] at found
  exact Option.some.inj found ▸ cut

theorem prefix_takeWhile_append {p : Char → Bool} {run : List Char}
    (all : ∀ c ∈ run, p c = true) (rest : List Char) : run <+: (run ++ rest).takeWhile p := by
  rw [List.takeWhile_append_of_pos all]
  exact List.prefix_append _ _

/-- The scanner goes at least as far as any text of the right form. -/
theorem prefix_cutShaft {slash shaft head : List Char} (slash_ok : slash = [] ∨ slash = ['/'])
    (shaft_ok : ∀ c ∈ shaft, isShaft c = true) (head_ok : ∀ c ∈ head, isHead c = true)
    (rest : List Char) :
    slash ++ (shaft ++ head) <+: (cutShaft (slash ++ (shaft ++ (head ++ rest)))).1 := by
  have inner : shaft ++ head <+:
      (shaft ++ (head ++ rest)).takeWhile isShaft ++
        ((shaft ++ (head ++ rest)).dropWhile isShaft).takeWhile isHead := by
    cases head with
    | nil =>
        rw [List.append_nil]
        exact (prefix_takeWhile_append shaft_ok _).trans (List.prefix_append _ _)
    | cons c r =>
        have ends : ∀ d ∈ (c :: r ++ rest).head?, isShaft d = false := by
          rintro d ⟨⟩
          exact isShaft_eq_false_of_head (head_ok c List.mem_cons_self)
        rw [Text.takeWhile_run shaft_ok ends, Text.dropWhile_run shaft_ok ends]
        exact (List.prefix_append_right_inj shaft).2 (prefix_takeWhile_append head_ok rest)
  by_cases unslashed : slash = [] ∧ ∃ c ∈ (shaft ++ (head ++ rest)).head?, c = '/'
  · obtain ⟨rfl, c, first, rfl⟩ := unslashed
    -- a slash belongs neither to a shaft nor to a head
    have nothing : shaft ++ head = [] := by
      cases parts : shaft ++ head with
      | nil => rfl
      | cons d r =>
          rw [← List.append_assoc, parts] at first
          obtain rfl : d = '/' := Option.some.inj first
          have mem : '/' ∈ shaft ++ head := parts ▸ List.mem_cons_self
          rcases List.mem_append.1 mem with mem | mem
          · exact absurd (shaft_ok _ mem) (by decide)
          · exact absurd (head_ok _ mem) (by decide)
    rw [nothing]
    exact List.nil_prefix
  · have stop : slash = [] → ∀ c ∈ (shaft ++ (head ++ rest)).head?, c ≠ '/' :=
      fun none c first same => unslashed ⟨none, c, first, same⟩
    rw [cutShaft, cutSlash_append_of_ne slash_ok stop]
    exact (List.prefix_append_right_inj slash).2 inner

/-- Wherever a text of the form of an arrow stands, the scanner cuts off that text or more. -/
theorem exists_cutArrow? {arrow : List Char} (form : IsArrow arrow) (rest : List Char) :
    ∃ whole after, cutArrow? (arrow ++ rest) = some (whole, after) ∧ arrow <+: whole := by
  obtain ⟨tail_ok, first_ok, slash_ok, shaft_ok, head_ok⟩ := form
  rename_i tail slash shaft head first
  have shape : tail ++ first :: (slash ++ (shaft ++ head)) ++ rest =
      tail ++ first :: (slash ++ (shaft ++ (head ++ rest))) := by simp
  rw [shape, cutArrow?_tail tail_ok first_ok]
  refine ⟨_, _, rfl, (List.prefix_append_right_inj tail).2 ((List.prefix_cons_inj first).2 ?_)⟩
  exact prefix_cutShaft slash_ok shaft_ok head_ok rest

/-- No text of the form of an arrow begins in front of the arrow that is found, and none that begins
where it begins reaches further. -/
theorem ofText?_le {before arrow after : List Char} (form : IsArrow arrow)
    (found : ofText? (before ++ (arrow ++ after)) = some link) :
    link.before.length ≤ before.length ∧
      (link.before.length = before.length → arrow.length ≤ link.arrow.length) := by
  obtain ⟨whole, rest, cut, inside⟩ := exists_cutArrow? form after
  induction before generalizing link with
  | nil =>
      obtain rfl : (⟨[], whole, rest⟩ : Link) = link :=
        Option.some.inj ((ofText?_of_cutArrow? (by simp) (by simp) cut).symm.trans found)
      exact ⟨Nat.le_refl 0, fun _ => inside.length_le⟩
  | cons c r ih =>
      rw [List.cons_append, ofText?] at found
      split at found
      · cases found
        exact ⟨Nat.zero_le _, fun same => absurd same (Nat.succ_ne_zero _).symm⟩
      · obtain ⟨inner, further, rfl⟩ := Option.map_eq_some_iff.1 found
        obtain ⟨left, long⟩ := ih further
        exact ⟨Nat.succ_le_succ left, fun same => long (Nat.succ.inj same)⟩

theorem ofText?_eq_none_iff : ofText? s = none ↔ '-' ∉ s ∧ '_' ∉ s := by
  rw [← Option.isNone_iff_eq_none, ← Option.not_isSome, Bool.not_eq_true', ofText?_isSome,
    List.any_eq_false]
  constructor
  · intro none
    exact ⟨fun mem => none _ mem rfl, fun mem => none _ mem rfl⟩
  · rintro ⟨dashless, scoreless⟩ c mem shaft
    simp only [isShaft, Bool.or_eq_true, beq_iff_eq] at shaft
    rcases shaft with rfl | rfl
    · exact dashless mem
    · exact scoreless mem

/-- A text has an arrow exactly when it has a `-` or a `_`. It is cut around the first of them, the
labels are what stands on both sides of the arrow without outer white space, and of all texts of the
form `[<:o+]*[-_]/?[-_]*[:o+>]*` in it the arrow begins first and is the longest to begin there. -/
theorem ofText?_leftmost (s : List Char) :
    (ofText? s = none ↔ '-' ∉ s ∧ '_' ∉ s) ∧
      (∀ link, ofText? s = some link ↔ AtFirstShaft s link) ∧
      ∀ link, ofText? s = some link →
        link.before ++ (link.arrow ++ link.after) = s ∧ IsArrow link.arrow ∧
        Trims link.before link.sourceLabel.toList ∧ Trims link.after link.targetLabel.toList ∧
        ∀ before arrow after, s = before ++ (arrow ++ after) → IsArrow arrow →
          link.before.length ≤ before.length ∧
            (link.before.length = before.length → arrow.length ≤ link.arrow.length) := by
  refine ⟨ofText?_eq_none_iff, fun link => ofText?_eq_some_iff, fun link found => ?_⟩
  have source : Trims link.before link.sourceLabel.toList := by
    rw [sourceLabel, String.toList_ofList]
    exact Text.trims_trim link.before
  have target : Trims link.after link.targetLabel.toList := by
    rw [targetLabel, String.toList_ofList]
    exact Text.trims_trim link.after
  refine ⟨ofText?_append found, (ofText?_eq_some_iff.1 found).isArrow, source, target, ?_⟩
  rintro before arrow after rfl form
  exact ofText?_le form found

/-- A label may hold letters that also decorate arrows, and further arrows. -/
example : (ofText? " o:to o:-/-:o: a -> b".toList).map
      (fun link => (link.sourceLabel, String.ofList link.arrow, link.targetLabel)) =
    some ("o:to", "o:-/-:o:", "a -> b") := by
  decide

end ClassDiagram.Draft.Link
