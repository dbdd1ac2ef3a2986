import ClassDiagram.Proofs.Draft.Passage
import Mathlib.Data.List.DropRight

set_option autoImplicit false

/-!
A line feed is skipped in more places than a semicolon, but without carriage returns these are
places in front of which all separators have been skipped already.
-/
namespace ClassDiagram.Draft

open Text (isGap isSpace isDelimiter isSeparator endsRun isBlank cutRun run afterRun unescape)

variable {α β : Type}

/-! ### Line feeds as semicolons -/

def asSemicolon (c : Char) : Char := if c = '\n' then ';' else c

theorem asSemicolon_of_ne {c : Char} (other : c ≠ '\n') : asSemicolon c = c := if_neg other

theorem asSemicolon_of_not_separator {c : Char} (plain : isSeparator c = false) :
    asSemicolon c = c := by
  apply asSemicolon_of_ne
  rintro rfl
  cases plain

/-- What treats both separators alike does not notice the exchange. -/
theorem apply_asSemicolon {p : Char → α} (same : p ';' = p '\n') (c : Char) :
    p (asSemicolon c) = p c := by
  by_cases feed : c = '\n'
  · rw [feed]
    exact same
  · rw [asSemicolon_of_ne feed]

theorem asSemicolon_eq_iff {c d : Char} (plain : isSeparator d = false) :
    asSemicolon c = d ↔ c = d := by
  have other : d ≠ '\n' := by
    rintro rfl
    cases plain
  have mark : ';' ≠ d := by
    rintro rfl
    cases plain
  by_cases feed : c = '\n'
  · subst feed
    exact ⟨fun same => absurd same mark, fun same => absurd same.symm other⟩
  · rw [asSemicolon_of_ne feed]

/-- The text with semicolons in the place of its line feeds. -/
def inSemicolons (s : List Char) : List Char := s.map asSemicolon

@[simp] theorem inSemicolons_cons (c : Char) (s : List Char) :
    inSemicolons (c :: s) = asSemicolon c :: inSemicolons s := rfl

theorem byteLength_inSemicolons (s : List Char) :
    Text.byteLength (inSemicolons s) = Text.byteLength s := by
  induction s with
  | nil => rfl
  | cons c r ih =>
      rw [inSemicolons_cons, Text.byteLength_cons, Text.byteLength_cons, ih,
        apply_asSemicolon (p := Char.utf8Size) rfl]

theorem dropWhile_inSemicolons {p : Char → Bool} (same : p ';' = p '\n') (s : List Char) :
    (inSemicolons s).dropWhile p = inSemicolons (s.dropWhile p) := by
  rw [inSemicolons, List.dropWhile_map, inSemicolons]
  congr 2
  exact funext (apply_asSemicolon same)

theorem skipSeparators_inSemicolons (s : List Char) :
    skipSeparators (inSemicolons s) = inSemicolons (skipSeparators s) :=
  dropWhile_inSemicolons rfl s

theorem separated_inSemicolons (s : List Char) : separated (inSemicolons s) = separated s := by
  have gap : isSlotGap ∘ asSemicolon = isSlotGap := funext (apply_asSemicolon rfl)
  have mark : isSeparator ∘ asSemicolon = isSeparator := funext (apply_asSemicolon rfl)
  rw [separated, inSemicolons, List.takeWhile_map, List.any_map, gap, mark, separated]

theorem cutRun_inSemicolons (s : List Char) :
    cutRun (inSemicolons s) = ((cutRun s).1, inSemicolons (cutRun s).2) := by
  have ending (c : Char) : endsRun (asSemicolon c) = endsRun c := apply_asSemicolon rfl c
  have mark (c : Char) : isDelimiter (asSemicolon c) = isDelimiter c := apply_asSemicolon rfl c
  have slash (c : Char) : asSemicolon c = '\\' ↔ c = '\\' := asSemicolon_eq_iff rfl
  have inside {c : Char} (goes : ¬ endsRun c = true) : asSemicolon c = c := by
    apply asSemicolon_of_ne
    rintro rfl
    exact goes rfl
  fun_induction cutRun s with
  | case1 => rfl
  | case2 c ends => simp [inSemicolons, cutRun, ending, ends]
  | case3 c goes => simp [inSemicolons, cutRun, inside goes, goes]
  | case4 c d r escape run rest cut ih =>
      rw [cut] at ih
      have plain : asSemicolon d = d := by
        apply asSemicolon_of_ne
        rintro rfl
        exact absurd escape.2 (by decide)
      simp only [inSemicolons_cons, cutRun, slash, plain, escape, and_self, ↓reduceIte, ih]
      rw [(slash '\\').2 rfl]
  | case5 c d r bare ends => simp [cutRun, slash, mark, ending, bare, ends]
  | case6 c d r bare goes run rest cut ih =>
      rw [cut, inSemicolons_cons] at ih
      simp [cutRun, mark, inside goes, bare, goes, ih]

theorem run_inSemicolons (s : List Char) : run (inSemicolons s) = run s := by
  rw [run, cutRun_inSemicolons]
  rfl

theorem afterRun_inSemicolons (s : List Char) :
    afterRun (inSemicolons s) = inSemicolons (afterRun s) := by
  rw [afterRun, cutRun_inSemicolons]
  rfl

/-- A text starts with a bracket or a bar as it does after the exchange. -/
theorem starts_inSemicolons (mark : Char) (plain : isSeparator mark = false) (s : List Char) :
    (∃ r, s = mark :: r ∧ inSemicolons s = mark :: inSemicolons r) ∨
      (∀ r, s ≠ mark :: r) ∧ ∀ r, inSemicolons s ≠ mark :: r := by
  cases s with
  | nil => exact .inr ⟨nofun, nofun⟩
  | cons c r =>
      by_cases same : c = mark
      · subst same
        exact .inl ⟨r, rfl, congrArg (· :: inSemicolons r) (asSemicolon_of_not_separator plain)⟩
      · refine .inr ⟨fun r whole => same (List.cons.inj whole).1, fun r whole => same ?_⟩
        exact (asSemicolon_eq_iff plain).1 (List.cons.inj whole).1

/-! ### Without carriage returns -/

def Returnless (s : List Char) : Prop := '\r' ∉ s

variable {s rest : List Char}

theorem Returnless.of_suffix (returnless : Returnless s) (tail : rest <:+ s) : Returnless rest :=
  fun mem => returnless (tail.subset mem)

theorem Returnless.inSemicolons (returnless : Returnless s) : Returnless (inSemicolons s) := by
  intro mem
  obtain ⟨c, found, same⟩ := List.mem_map.1 mem
  rw [asSemicolon_eq_iff rfl] at same
  exact returnless (same ▸ found)

/-- All that is skipped around bars is skipped between slots as well. -/
theorem isSlotGap_of_isGap {c : Char} (gap : isGap c = true) (other : c ≠ '\r') :
    isSlotGap c = true := by
  simp only [isGap, isSpace, Bool.or_eq_true, beq_iff_eq] at gap
  rcases gap with ((rfl | rfl) | rfl) | rfl
  · rfl
  · rfl
  · exact absurd rfl other
  · rfl

theorem skipSeparators_skipGap (returnless : Returnless s) :
    skipSeparators (skipGap s) = skipSeparators s := by
  induction s with
  | nil => rfl
  | cons c r ih =>
      cases gap : isGap c with
      | false =>
          have kept : skipGap (c :: r) = c :: r := List.dropWhile_cons_of_neg (by simp [gap])
          rw [kept]
      | true =>
          have other : c ≠ '\r' := fun same => returnless (same ▸ List.mem_cons_self)
          have dropped : skipGap (c :: r) = skipGap r := List.dropWhile_cons_of_pos gap
          have skipped : skipSeparators (c :: r) = skipSeparators r :=
            List.dropWhile_cons_of_pos (isSlotGap_of_isGap gap other)
          rw [dropped, skipped, ih (returnless.of_suffix (List.suffix_cons c r))]

def Skipped (s : List Char) : Prop := skipSeparators s = s

theorem skipped_skipSeparators (s : List Char) : Skipped (skipSeparators s) :=
  List.dropWhile_idempotent isSlotGap s

theorem Skipped.inSemicolons (skipped : Skipped s) : Skipped (inSemicolons s) := by
  rw [Skipped, skipSeparators_inSemicolons, skipped]

/-- Where the separators have been skipped no gap is left. -/
theorem Skipped.skipGap_eq (skipped : Skipped s) (returnless : Returnless s) : skipGap s = s := by
  cases s with
  | nil => rfl
  | cons c r =>
      apply List.dropWhile_cons_of_neg
      intro gap
      have other : c ≠ '\r' := fun same => returnless (same ▸ List.mem_cons_self)
      have slotGap := isSlotGap_of_isGap gap other
      have shorter := (List.dropWhile_suffix (p := isSlotGap) (l := r)).length_le
      have whole := congrArg List.length skipped
      rw [skipSeparators, List.dropWhile_cons_of_pos slotGap, List.length_cons] at whole
      omega

theorem atBoundary_inSemicolons (skipped : Skipped s) (returnless : Returnless s) :
    atBoundary (inSemicolons s) = atBoundary s := by
  rw [atBoundary, atBoundary, skipped.inSemicolons.skipGap_eq returnless.inSemicolons,
    skipped.skipGap_eq returnless]
  cases s with
  | nil => rfl
  | cons c r => exact apply_asSemicolon (p := fun c => c == ']' || c == '|') rfl c

/-! ### The readers -/

def Fault.inSemicolons (fault : Fault) : Fault :=
  ⟨fault.cause, Draft.inSemicolons fault.start, Draft.inSemicolons fault.stop⟩

/-- The outcome in the text with semicolons: the same value or a fault of the same cause, at the
same place. -/
def Outcome.inSemicolons : Outcome α → Outcome α
  | .ok (value, rest) => .ok (value, Draft.inSemicolons rest)
  | .error fault => .error fault.inSemicolons

theorem Outcome.inSemicolons_andThen {first : Outcome α} {next other : α → List Char → Outcome β}
    (more : ∀ value rest, first = .ok (value, rest) →
      other value (Draft.inSemicolons rest) = (next value rest).inSemicolons) :
    first.inSemicolons.andThen other = (first.andThen next).inSemicolons := by
  cases first with
  | error fault => rfl
  | ok value => exact more value.1 value.2 rfl

/-- The reader does not notice the exchange. -/
def BodyReader.Exchanges (body : BodyReader) : Prop :=
  ∀ s, Returnless s → body.read (inSemicolons s) = (body.read s).inSemicolons

variable {body : BodyReader}

theorem links_inSemicolons (exchanges : body.Exchanges) (source : Classifier) (s : List Char)
    (returnless : Returnless s) :
    links body source (inSemicolons s) = (links body source s).inSemicolons := by
  rw [links_eq, links_eq, run_inSemicolons, afterRun_inSemicolons]
  split
  · rfl
  · rcases starts_inSemicolons '[' rfl (afterRun s) with
      ⟨inner, opens, opens'⟩ | ⟨other, other'⟩
    · have inside : inner <:+ s :=
        (List.suffix_cons '[' inner).trans (opens ▸ Text.afterRun_suffix s)
      rw [opens', opens]
      show (body.read (inSemicolons inner)).andThen _ = ((body.read inner).andThen _).inSemicolons
      rw [exchanges inner (returnless.of_suffix inside)]
      apply Outcome.inSemicolons_andThen
      intro target rest read
      have shorter := target_progress opens read
      split
      · rfl
      · rw [links_inSemicolons exchanges target rest (returnless.of_suffix shorter.1)]
        exact Outcome.inSemicolons_andThen fun chain left _ => rfl
    · split
      · next inner opens => exact absurd opens (other' inner)
      · rfl
termination_by s.length
decreasing_by exact shorter.2

theorem slot_inSemicolons (exchanges : body.Exchanges) (returnless : Returnless s) :
    slot body (inSemicolons s) = (slot body s).inSemicolons := by
  rcases starts_inSemicolons '[' rfl s with ⟨inner, rfl, opens⟩ | ⟨other, other'⟩
  · have inside := returnless.of_suffix (List.suffix_cons '[' inner)
    rw [opens, slot_eq, slot_eq]
    show (body.read (inSemicolons inner)).andThen _ = ((body.read inner).andThen _).inSemicolons
    rw [exchanges inner inside]
    apply Outcome.inSemicolons_andThen
    intro first rest read
    apply links_inSemicolons exchanges
    exact inside.of_suffix (body.progress read).1
  · rw [slot_line other, slot_line other', run_inSemicolons, afterRun_inSemicolons]
    rfl

theorem slots_inSemicolons (exchanges : body.Exchanges) (s : List Char)
    (returnless : Returnless s) :
    slots body (inSemicolons s) = (slots body s).inSemicolons := by
  have front := returnless.of_suffix (skipSeparators_suffix s)
  rw [slots_eq, slots_eq, skipSeparators_inSemicolons,
    atBoundary_inSemicolons (skipped_skipSeparators s) front]
  split
  · rfl
  · next inside =>
      rw [slot_inSemicolons exchanges front]
      apply Outcome.inSemicolons_andThen
      intro piece rest read
      have shorter := slot_progress inside read
      have behind := returnless.of_suffix shorter.1
      rw [skipSeparators_inSemicolons, separated_inSemicolons,
        atBoundary_inSemicolons (skipped_skipSeparators rest)
          (behind.of_suffix (skipSeparators_suffix rest))]
      split
      · rfl
      · split
        · rw [slots_inSemicolons exchanges rest behind]
          exact Outcome.inSemicolons_andThen fun more left _ => rfl
        · rfl
termination_by s.length
decreasing_by exact shorter.2

/-- A compartment ends behind its separators. -/
theorem slots_skipped {compartment : Compartment}
    (read : slots body s = .ok (compartment, rest)) : Skipped rest := by
  fun_induction slots body s generalizing compartment rest with
  | case1 s boundary =>
      cases read
      exact skipped_skipSeparators s
  | case2 => cases read
  | case3 => cases read
  | case4 s inside piece middle hp apart more left hm ih =>
      cases read
      exact ih hm
  | case5 s inside piece middle hp apart last =>
      cases read
      exact skipped_skipSeparators middle
  | case6 => cases read

theorem compartments_skipped {parts : List Compartment}
    (read : compartments body s = .ok (parts, rest)) : Skipped rest := by
  fun_induction compartments body s generalizing parts rest with
  | case1 => cases read
  | case2 => cases read
  | case3 s first middle hs next bar more left hm ih =>
      cases read
      exact ih hm
  | case4 s first middle hs barless =>
      cases read
      exact slots_skipped hs

theorem compartments_congr (body : BodyReader) {s t : List Char}
    (same : skipSeparators s = skipSeparators t) : compartments body s = compartments body t := by
  rw [compartments_eq body s, compartments_eq body t, slots_congr body same]

theorem compartments_inSemicolons (exchanges : body.Exchanges) (s : List Char)
    (returnless : Returnless s) :
    compartments body (inSemicolons s) = (compartments body s).inSemicolons := by
  rw [compartments_eq, compartments_eq, slots_inSemicolons exchanges s returnless]
  apply Outcome.inSemicolons_andThen
  intro first rest read
  have behind := returnless.of_suffix (slots_suffix read)
  have skipped := slots_skipped read
  rw [skipped.inSemicolons.skipGap_eq behind.inSemicolons, skipped.skipGap_eq behind]
  rcases starts_inSemicolons '|' rfl rest with ⟨next, rfl, bar⟩ | ⟨other, other'⟩
  · have shorter := bar_progress read (skipped.skipGap_eq behind)
    have more := behind.of_suffix (List.suffix_cons '|' next)
    -- the text behind the bar is skipped to the same place, one blank or another at a time
    have same : skipSeparators (skipGap (inSemicolons next)) =
        skipSeparators (inSemicolons (skipGap next)) := by
      rw [skipSeparators_skipGap more.inSemicolons, skipSeparators_inSemicolons,
        skipSeparators_inSemicolons, skipSeparators_skipGap more]
    rw [bar]
    show (compartments body (skipGap (inSemicolons next))).andThen _ =
      ((compartments body (skipGap next)).andThen _).inSemicolons
    rw [compartments_congr body same, compartments_inSemicolons exchanges (skipGap next)
      (returnless.of_suffix shorter.1)]
    exact Outcome.inSemicolons_andThen fun others left _ => rfl
  · split
    · next next bar => exact absurd bar (other' next)
    · rfl
termination_by s.length
decreasing_by exact shorter.2

theorem closed_inSemicolons (exchanges : body.Exchanges) (returnless : Returnless s) :
    closed body (inSemicolons s) = (closed body s).inSemicolons := by
  rw [closed_eq, closed_eq, compartments_inSemicolons exchanges s returnless]
  apply Outcome.inSemicolons_andThen
  intro parts rest read
  have behind := returnless.of_suffix (compartments_suffix read)
  have skipped := compartments_skipped read
  rw [skipped.inSemicolons.skipGap_eq behind.inSemicolons, skipped.skipGap_eq behind]
  rcases starts_inSemicolons ']' rfl rest with ⟨left, rfl, bracket⟩ | ⟨other, other'⟩
  · rw [bracket]
    rfl
  · split
    · next left bracket => exact absurd bracket (other' left)
    · rfl

theorem classifier_exchanges (levels : Nat) : (classifier levels).Exchanges := by
  induction levels with
  | zero => exact fun s _ => rfl
  | succ levels ih => exact fun s returnless => closed_inSemicolons ih returnless

theorem document_inSemicolons (returnless : Returnless s) :
    document (inSemicolons s) = (document s).mapError Fault.inSemicolons := by
  rw [document.eq_def, document.eq_def,
    slots_inSemicolons (classifier_exchanges nestingLimit) s returnless]
  cases read : slots (classifier nestingLimit) s with
  | error fault => rfl
  | ok value =>
      obtain ⟨root, rest⟩ := value
      have behind := returnless.of_suffix (slots_suffix read)
      have skipped := slots_skipped read
      dsimp only [Outcome.inSemicolons]
      rw [skipped.inSemicolons.skipGap_eq behind.inSemicolons, skipped.skipGap_eq behind]
      cases rest with
      | nil => rfl
      | cons found left =>
          have dark := List.head?_dropWhile_not isSlotGap (found :: left)
          rw [show (found :: left).dropWhile isSlotGap = found :: left from skipped] at dark
          have plain : asSemicolon found = found := by
            apply asSemicolon_of_not_separator
            simp only [List.head?_cons, isSlotGap, Bool.or_eq_false_iff] at dark
            exact dark.2
          simp only [inSemicolons_cons, plain, Except.mapError, Fault.inSemicolons]

/-! ### The exchange -/

theorem Fault.toDiagnostic_inSemicolons (fault : Fault) (s : List Char) :
    fault.inSemicolons.toDiagnostic (Draft.inSemicolons s) = fault.toDiagnostic s := by
  simp only [Fault.toDiagnostic, Fault.span, Fault.offset, Fault.inSemicolons,
    byteLength_inSemicolons]

theorem ofText?_inSemicolons {text : String} (returnless : Returnless text.toList) :
    ofText? (String.ofList (inSemicolons text.toList)) = ofText? text := by
  rw [ofText?, ofText?, String.toList_ofList, document_inSemicolons returnless]
  cases document text.toList with
  | ok root => rfl
  | error fault => exact congrArg Except.error (fault.toDiagnostic_inSemicolons text.toList)

theorem inSemicolons_eq_of_zip {s t : List Char} (length : s.length = t.length)
    (apart : ∀ pair ∈ s.zip t, pair.1 = pair.2 ∨
      isSeparator pair.1 = true ∧ isSeparator pair.2 = true) :
    inSemicolons s = inSemicolons t := by
  have separator {c : Char} (mark : isSeparator c = true) : asSemicolon c = ';' := by
    simp only [isSeparator, Bool.or_eq_true, beq_iff_eq] at mark
    rcases mark with rfl | rfl
    · rfl
    · rfl
  induction s generalizing t with
  | nil => rw [List.length_eq_zero_iff.1 length.symm]
  | cons c r ih =>
      cases t with
      | nil => cases length
      | cons d u =>
          rw [List.zip_cons_cons] at apart
          have inner := ih (Nat.succ.inj length) fun pair mem =>
            apart pair (List.mem_cons_of_mem _ mem)
          rw [inSemicolons_cons, inSemicolons_cons, inner]
          rcases apart (c, d) List.mem_cons_self with same | ⟨mark, mark'⟩
          · rw [show c = d from same]
          · rw [separator mark, separator mark']

/-- Two texts that differ only where each of them has a semicolon or a line feed say the same: they
have the same tree or are refused with the same report. -/
theorem ofText?_exchange {first second : String} (returnless : '\r' ∉ first.toList)
    (length : first.toList.length = second.toList.length)
    (apart : ∀ pair ∈ first.toList.zip second.toList, pair.1 = pair.2 ∨
      isSeparator pair.1 = true ∧ isSeparator pair.2 = true) :
    ofText? first = ofText? second := by
  have same := inSemicolons_eq_of_zip length apart
  have returnless' : Returnless second.toList := by
    intro mem
    have kept := Returnless.inSemicolons returnless
    rw [same] at kept
    exact kept (List.mem_map.2 ⟨'\r', mem, rfl⟩)
  rw [← ofText?_inSemicolons returnless, same, ofText?_inSemicolons returnless']

/-- Around bars, in front of closing brackets and between links of a chain, where only one of the two
separators is skipped or neither is. -/
theorem ofText?_exchange_around_marks :
    ofText? "[A\n|;x\n;\n|\n]\n[B] ->\n" = ofText? "[A;|\nx;\n;|;];[B] ->;" ∧
      (ofText? "[A\n|;x\n;\n|\n]\n[B] ->\n").isOk = false ∧
      ofText? "[A\n|;x\n;\n|\n]\n[B] -> [C]\n" = ofText? "[A;|\nx;\n;|;];[B] -> [C];" ∧
      (ofText? "[A\n|;x\n;\n|\n]\n[B] -> [C]\n").isOk = true :=
  ⟨ofText?_exchange (by decide) (by decide) (by decide), by decide +kernel,
    ofText?_exchange (by decide) (by decide) (by decide), by decide +kernel⟩

end ClassDiagram.Draft
