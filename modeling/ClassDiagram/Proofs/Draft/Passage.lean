import ClassDiagram.Proofs.Draft.Brackets
import ClassDiagram.Proofs.Draft.Steps

set_option autoImplicit false

namespace ClassDiagram.Draft

open Text (isDelimiter run afterRun bare Loose)

theorem Nested.mono {levels more : Nat} {word : List Char} (nested : Nested levels word)
    (fewer : levels ≤ more) : Nested more word where
  total := nested.total
  along := by
    intro part first
    have along := nested.along part first
    omega

/-- Every bracket is closed behind it, however many are open. -/
def Balanced (word : List Char) : Prop := ∃ levels, Nested levels word

namespace Balanced

theorem nil : Balanced [] := ⟨0, .nil 0⟩

theorem bar : Balanced ['|'] := ⟨0, .bar 0⟩

theorem append {front back : List Char} (first : Balanced front) (second : Balanced back) :
    Balanced (front ++ back) := by
  obtain ⟨levels, first⟩ := first
  obtain ⟨more, second⟩ := second
  refine ⟨max levels more, ?_⟩
  exact (first.mono (Nat.le_max_left _ _)).append (second.mono (Nat.le_max_right _ _))

theorem bracket {word : List Char} (inner : Balanced word) : Balanced ('[' :: word ++ [']']) := by
  obtain ⟨levels, inner⟩ := inner
  exact ⟨levels + 1, inner.bracket⟩

theorem count_eq {word : List Char} (balanced : Balanced word) :
    word.count ']' = word.count '[' := by
  obtain ⟨levels, nested⟩ := balanced
  exact nested.total

end Balanced

/-- What may stand between a bracket and the one that closes it. -/
structure Content (content : List Char) : Prop where
  unescaped : content.getLast? ≠ some '\\'
  balanced : Balanced (bare content)

/-- `rest` is what is left of `s` when a part of it has been read that takes no escape apart and
closes all its brackets. -/
def Passes (s rest : List Char) : Prop :=
  ∃ read, s = read ++ rest ∧ Loose read rest ∧ Balanced (bare read)

namespace Passes

variable {s middle rest : List Char}

theorem refl (s : List Char) : Passes s s := ⟨[], rfl, .of_last (by simp) s, .nil⟩

theorem trans (first : Passes s middle) (second : Passes middle rest) : Passes s rest := by
  obtain ⟨front, rfl, loose, balanced⟩ := first
  obtain ⟨back, rfl, loose', balanced'⟩ := second
  refine ⟨front ++ back, (List.append_assoc ..).symm, loose.append loose', ?_⟩
  rw [Text.bare_append loose.of_append]
  exact balanced.append balanced'

/-- What holds neither brackets nor bars may be read anywhere. -/
theorem of_bare_eq {read : List Char} (loose : Loose read rest)
    (same : bare rest = bare (read ++ rest)) : Passes (read ++ rest) rest := by
  rw [Text.bare_append loose] at same
  have nothing : bare read = [] := List.append_left_eq_self.1 same.symm
  exact ⟨read, rfl, loose, nothing ▸ .nil⟩

theorem run (s : List Char) : Passes s (afterRun s) := by
  have whole := Text.run_append_afterRun s
  have passes := of_bare_eq (Text.loose_run s) (by rw [whole, bare_afterRun])
  rwa [whole] at passes

theorem dropWhile {p : Char → Bool}
    (plain : ∀ c, p c = true → isDelimiter c = false ∧ c ≠ '\\') (s : List Char) :
    Passes s (s.dropWhile p) := by
  have whole := List.takeWhile_append_dropWhile (p := p) (l := s)
  have loose : Loose (s.takeWhile p) (s.dropWhile p) := by
    apply Loose.of_last
    intro slash
    have skipped := List.all_eq_true.1 (List.all_takeWhile (p := p) (l := s)) '\\'
    exact (plain '\\' (skipped (List.mem_of_getLast? slash))).2 rfl
  have same : bare (s.dropWhile p) = bare s := congrArg (List.map Prod.fst)
    (Text.marks_dropWhile plain s)
  have passes := of_bare_eq loose (by rw [whole, same])
  rwa [whole] at passes

theorem skipSeparators (s : List Char) : Passes s (skipSeparators s) :=
  dropWhile (fun _ => plain_of_isSlotGap) s

theorem skipGap (s : List Char) : Passes s (skipGap s) :=
  dropWhile (fun _ => plain_of_isGap) s

theorem bar (rest : List Char) : Passes ('|' :: rest) rest :=
  ⟨['|'], rfl, .of_last (by simp) rest, .bar⟩

theorem bracket {content : List Char} (inside : Content content) (rest : List Char) :
    Passes ('[' :: content ++ ']' :: rest) rest := by
  have opening : Loose ['['] (content ++ [']']) := .of_last (by decide) _
  have loose : Loose ('[' :: content) [']'] := opening.append (.of_last inside.unescaped _)
  refine ⟨'[' :: content ++ [']'], by simp, .of_last (by rw [List.getLast?_concat]; decide) _, ?_⟩
  rw [Text.bare_append loose, bare_cons_mark (by decide)]
  exact inside.balanced.bracket

end Passes

/-- The body of a classifier ends at the bracket that closes it. -/
def BodyReader.Closes (body : BodyReader) : Prop :=
  ∀ {inner rest : List Char} {classifier : Classifier},
    body.read inner = .ok (classifier, rest) → ∃ content, inner = content ++ ']' :: rest ∧
      Content content

variable {body : BodyReader} {s rest : List Char}

theorem BodyReader.Closes.passes (closes : body.Closes) {inner : List Char}
    {classifier : Classifier} (read : body.read inner = .ok (classifier, rest)) :
    Passes ('[' :: inner) rest := by
  obtain ⟨content, rfl, inside⟩ := closes read
  exact .bracket inside rest

theorem links_passes (closes : body.Closes) {source : Classifier} {chain : Compartment}
    (read : links body source s = .ok (chain, rest)) : Passes s rest := by
  fun_induction links body source s generalizing chain rest with
  | case1 source s blank =>
      cases read
      exact .refl s
  | case2 => cases read
  | case3 => cases read
  | case4 => cases read
  | case5 source s text inner opens target middle hr link hl more left hm ih =>
      cases read
      have front := Passes.run s
      rw [opens] at front
      exact (front.trans (closes.passes hr)).trans (ih hm)
  | case6 => cases read

theorem slot_passes (closes : body.Closes) {piece : Compartment}
    (read : slot body s = .ok (piece, rest)) : Passes s rest := by
  rw [slot.eq_def] at read
  split at read
  · split at read
    · cases read
    · next first middle hr => exact (closes.passes hr).trans (links_passes closes read)
  · cases read
    exact .run s

theorem slots_passes (closes : body.Closes) {compartment : Compartment}
    (read : slots body s = .ok (compartment, rest)) : Passes s rest := by
  fun_induction slots body s generalizing compartment rest with
  | case1 s boundary =>
      cases read
      exact .skipSeparators s
  | case2 => cases read
  | case3 => cases read
  | case4 s inside piece middle hp apart more left hm ih =>
      cases read
      exact ((Passes.skipSeparators s).trans (slot_passes closes hp)).trans (ih hm)
  | case5 s inside piece middle hp apart last =>
      cases read
      exact ((Passes.skipSeparators s).trans (slot_passes closes hp)).trans
        (.skipSeparators middle)
  | case6 => cases read

/-- A compartment is read up to a boundary. -/
theorem slots_atBoundary {compartment : Compartment}
    (read : slots body s = .ok (compartment, rest)) : atBoundary rest = true := by
  fun_induction slots body s generalizing compartment rest with
  | case1 s boundary =>
      cases read
      exact boundary
  | case2 => cases read
  | case3 => cases read
  | case4 s inside piece middle hp apart more left hm ih =>
      cases read
      exact ih hm
  | case5 s inside piece middle hp apart last =>
      cases read
      exact last
  | case6 => cases read

theorem compartments_passes (closes : body.Closes) {parts : List Compartment}
    (read : compartments body s = .ok (parts, rest)) : Passes s rest := by
  fun_induction compartments body s generalizing parts rest with
  | case1 => cases read
  | case2 => cases read
  | case3 s first middle hs next bar more left hm ih =>
      cases read
      have divided := Passes.skipGap middle
      rw [bar] at divided
      have front := ((slots_passes closes hs).trans divided).trans (.bar next)
      exact (front.trans (.skipGap next)).trans (ih hm)
  | case4 s first middle hs barless =>
      cases read
      exact slots_passes closes hs

/-- Compartments are read up to a bracket that closes or up to the end of the text. -/
theorem compartments_stop {parts : List Compartment}
    (read : compartments body s = .ok (parts, rest)) :
    skipGap rest = [] ∨ ∃ left, skipGap rest = ']' :: left := by
  fun_induction compartments body s generalizing parts rest with
  | case1 => cases read
  | case2 => cases read
  | case3 s first middle hs next bar more left hm ih =>
      cases read
      exact ih hm
  | case4 s first middle hs barless =>
      cases read
      have boundary := slots_atBoundary hs
      rw [atBoundary] at boundary
      split at boundary
      · next nothing => exact .inl nothing
      · next c left more =>
          rw [Bool.or_eq_true, beq_iff_eq, beq_iff_eq] at boundary
          rcases boundary with rfl | rfl
          · exact .inr ⟨left, more⟩
          · exact absurd more (barless left)

theorem closed_content (closes : body.Closes) {classifier : Classifier}
    (read : closed body s = .ok (classifier, rest)) :
    ∃ content, s = content ++ ']' :: rest ∧ Content content := by
  rw [closed.eq_def] at read
  split at read
  · cases read
  · next parts middle hc =>
      split at read
      · next left bracket =>
          cases read
          have passes := (compartments_passes closes hc).trans (.skipGap middle)
          rw [bracket] at passes
          obtain ⟨content, whole, loose, balanced⟩ := passes
          exact ⟨content, whole, loose.last (by decide), balanced⟩
      · cases read

/-- A classifier is read up to the bracket that closes it. -/
theorem classifier_closes (levels : Nat) : (classifier levels).Closes := by
  induction levels with
  | zero =>
      intro inner rest found read
      cases read
  | succ levels ih =>
      intro inner rest found read
      exact closed_content ih read

end ClassDiagram.Draft
