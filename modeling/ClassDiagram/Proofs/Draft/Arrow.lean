import ClassDiagram.Draft.Link
import ClassDiagram.Proofs.Text.Trim

set_option autoImplicit false

namespace ClassDiagram.Draft

/-- The texts of the form `[<:o+]*[-_]/?[-_]*[:o+>]*`. -/
inductive IsArrow : List Char → Prop where
  | parts {tail slash shaft head : List Char} {first : Char}
      (tail_ok : ∀ c ∈ tail, isTail c = true) (first_ok : isShaft first = true)
      (slash_ok : slash = [] ∨ slash = ['/']) (shaft_ok : ∀ c ∈ shaft, isShaft c = true)
      (head_ok : ∀ c ∈ head, isHead c = true) :
      IsArrow (tail ++ first :: (slash ++ (shaft ++ head)))

theorem isTail_eq_false_of_shaft {c : Char} (h : isShaft c = true) : isTail c = false := by
  simp only [isShaft, Bool.or_eq_true, beq_iff_eq] at h
  rcases h with rfl | rfl <;> decide

theorem isShaft_eq_false_of_head {c : Char} (h : isHead c = true) : isShaft c = false := by
  simp only [isHead, Bool.or_eq_true, beq_iff_eq] at h
  rcases h with ((rfl | rfl) | rfl) | rfl <;> decide

theorem IsArrow.exists_shaft {arrow : List Char} (form : IsArrow arrow) :
    ∃ c ∈ arrow, isShaft c = true := by
  obtain ⟨-, first_ok, -, -, -⟩ := form
  exact ⟨_, by simp, first_ok⟩

theorem IsArrow.mem {arrow : List Char} (form : IsArrow arrow) {c : Char} (hc : c ∈ arrow) :
    isTail c = true ∨ isShaft c = true ∨ c = '/' ∨ isHead c = true := by
  obtain ⟨tail_ok, first_ok, slash_ok, shaft_ok, head_ok⟩ := form
  simp only [List.mem_append, List.mem_cons] at hc
  rcases hc with hc | rfl | hc | hc | hc
  · exact .inl (tail_ok c hc)
  · exact .inr (.inl first_ok)
  · rcases slash_ok with rfl | rfl
    · cases hc
    · exact .inr (.inr (.inl (List.mem_singleton.1 hc)))
  · exact .inr (.inl (shaft_ok c hc))
  · exact .inr (.inr (.inr (head_ok c hc)))

namespace Link

def endsArrow (c : Char) : Bool := !isShaft c && !isHead c && c != '/'

theorem cutSlash_append_of_ne {slash s : List Char} (slash_ok : slash = [] ∨ slash = ['/'])
    (stop : slash = [] → ∀ c ∈ s.head?, c ≠ '/') : cutSlash (slash ++ s) = (slash, s) := by
  rcases slash_ok with rfl | rfl
  · cases s with
    | nil => rfl
    | cons c r =>
        have other : c ≠ '/' := stop rfl c rfl
        simp [cutSlash, other]
  · rfl

section Parts

variable {tail slash shaft head after : List Char} {first : Char}

/-- The rest of an arrow is cut off where each of its parts ends. -/
theorem cutShaft_parts (slash_ok : slash = [] ∨ slash = ['/'])
    (slash_ends : slash = [] → ∀ c ∈ (shaft ++ (head ++ after)).head?, c ≠ '/')
    (shaft_ok : ∀ c ∈ shaft, isShaft c = true)
    (shaft_ends : ∀ c ∈ (head ++ after).head?, isShaft c = false)
    (head_ok : ∀ c ∈ head, isHead c = true) (head_ends : ∀ c ∈ after.head?, isHead c = false) :
    cutShaft (slash ++ (shaft ++ (head ++ after))) = (slash ++ (shaft ++ head), after) := by
  rw [cutShaft, cutSlash_append_of_ne slash_ok slash_ends]
  simp only [Text.takeWhile_run shaft_ok shaft_ends, Text.dropWhile_run shaft_ok shaft_ends,
    Text.takeWhile_run head_ok head_ends, Text.dropWhile_run head_ok head_ends]

/-- The tail and the first shaft character are cut off, then the rest. -/
theorem cutArrow?_tail (tail_ok : ∀ c ∈ tail, isTail c = true) (first_ok : isShaft first = true)
    (rest : List Char) :
    cutArrow? (tail ++ first :: rest) =
      some (tail ++ first :: (cutShaft rest).1, (cutShaft rest).2) := by
  have tail_ends : ∀ c ∈ (first :: rest).head?, isTail c = false := by
    rintro c ⟨⟩
    exact isTail_eq_false_of_shaft first_ok
  rw [cutArrow?, Text.dropWhile_run tail_ok tail_ends, Text.takeWhile_run tail_ok tail_ends]
  simp only [first_ok, ↓reduceIte]

end Parts

/-- Where an arrow starts, the whole of it is cut off. -/
theorem cutArrow?_of_isArrow {arrow after : List Char} (form : IsArrow arrow)
    (stop : ∀ c ∈ after.head?, endsArrow c = true) :
    cutArrow? (arrow ++ after) = some (arrow, after) := by
  obtain ⟨tail_ok, first_ok, slash_ok, shaft_ok, head_ok⟩ := form
  rename_i tail slash shaft head first
  have afterStop : ∀ c ∈ after.head?, isShaft c = false ∧ isHead c = false ∧ c ≠ '/' := by
    intro c hc
    have ends := stop c hc
    simp only [endsArrow, Bool.and_eq_true, Bool.not_eq_true', bne_iff_ne] at ends
    exact ⟨ends.1.1, ends.1.2, ends.2⟩
  have headStop : ∀ c ∈ (head ++ after).head?, isShaft c = false ∧ c ≠ '/' := by
    intro c hc
    cases head with
    | nil => exact ⟨(afterStop c hc).1, (afterStop c hc).2.2⟩
    | cons d r =>
        cases hc
        have headed := head_ok c List.mem_cons_self
        refine ⟨isShaft_eq_false_of_head headed, ?_⟩
        rintro rfl
        exact absurd headed (by decide)
  have shaftStop : ∀ c ∈ (shaft ++ (head ++ after)).head?, c ≠ '/' := by
    intro c hc
    cases shaft with
    | nil => exact (headStop c hc).2
    | cons d r =>
        cases hc
        rintro rfl
        exact absurd (shaft_ok '/' List.mem_cons_self) (by decide)
  have shape : tail ++ first :: (slash ++ (shaft ++ head)) ++ after =
      tail ++ first :: (slash ++ (shaft ++ (head ++ after))) := by simp
  rw [shape, cutArrow?_tail tail_ok first_ok, cutShaft_parts slash_ok (fun _ => shaftStop) shaft_ok
    (fun c hc => (headStop c hc).1) head_ok fun c hc => (afterStop c hc).2.1]

/-- No arrow starts in a text without shafts whose last character is no tail. -/
theorem cutArrow?_eq_none {s : List Char} (ne : s ≠ []) (shaftless : ∀ c ∈ s, isShaft c = false)
    (last : ∀ c ∈ s.getLast?, isTail c = false) (rest : List Char) :
    cutArrow? (s ++ rest) = none := by
  have stops : ∃ d r, (s ++ rest).dropWhile isTail = d :: r ∧ d ∈ s := by
    induction s with
    | nil => exact absurd rfl ne
    | cons c s ih =>
        cases hc : isTail c with
        | false => exact ⟨c, s ++ rest, by simp [hc], List.mem_cons_self⟩
        | true =>
            cases s with
            | nil =>
                rw [last c rfl] at hc
                cases hc
            | cons e s =>
                obtain ⟨d, r, drop, hd⟩ := ih (by simp)
                  (fun f hf => shaftless f (List.mem_cons_of_mem _ hf))
                  (fun f hf => last f (by simpa only [List.getLast?_cons_cons] using hf))
                exact ⟨d, r, by simpa [hc] using drop, List.mem_cons_of_mem _ hd⟩
  obtain ⟨d, r, drop, hd⟩ := stops
  simp [cutArrow?, drop, shaftless d hd]

/-- An arrow is found behind a text without shafts that ends in no tail. -/
theorem ofText?_of_cutArrow? {before s arrow after : List Char}
    (shaftless : ∀ c ∈ before, isShaft c = false) (last : ∀ c ∈ before.getLast?, isTail c = false)
    (here : cutArrow? s = some (arrow, after)) :
    ofText? (before ++ s) = some ⟨before, arrow, after⟩ := by
  induction before with
  | nil =>
      cases s with
      | nil => cases here
      | cons d r => rw [List.nil_append, ofText?, here]
  | cons c r ih =>
      have absent := cutArrow?_eq_none (List.cons_ne_nil c r) shaftless last s
      have further : ofText? (r ++ s) = some ⟨r, arrow, after⟩ := by
        apply ih fun d hd => shaftless d (List.mem_cons_of_mem _ hd)
        intro d hd
        cases r with
        | nil => cases hd
        | cons e r => exact last d (by simpa only [List.getLast?_cons_cons] using hd)
      rw [List.cons_append] at absent
      rw [List.cons_append, ofText?, absent]
      simp [further]

/-- The first arrow is taken whole if no neighbour could be part of it. -/
theorem ofText?_of_isArrow {before arrow after : List Char}
    (shaftless : ∀ c ∈ before, isShaft c = false) (last : ∀ c ∈ before.getLast?, isTail c = false)
    (form : IsArrow arrow) (stop : ∀ c ∈ after.head?, endsArrow c = true) :
    ofText? (before ++ (arrow ++ after)) = some ⟨before, arrow, after⟩ :=
  ofText?_of_cutArrow? shaftless last (cutArrow?_of_isArrow form stop)

end Link
end ClassDiagram.Draft
