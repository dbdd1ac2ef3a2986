import ClassDiagram.Draft.Fault
import ClassDiagram.Draft.Header
import ClassDiagram.Draft.Link
import ClassDiagram.Text.Escape
set_option autoImplicit false

/-!
Reading a diagram from its text. Only classifiers nest, and at most `nestingLimit` deep:
`classifier` recurs on the levels that are still allowed, everything else is a loop over what is
left of the text.
-/
namespace ClassDiagram.Draft

open Text (isSpace isGap isBlank isSeparator endsRun run afterRun unescape)

/-- How many classifiers may be open at once. -/
def nestingLimit : Nat := 100

/-- What may stand between two slots of a compartment. -/
def isSlotGap (c : Char) : Bool := isSpace c || isSeparator c

/-- What follows the separators and spaces at the start of `s`. -/
def skipSeparators (s : List Char) : List Char := s.dropWhile isSlotGap

/-- Whether a separator stands among the separators and spaces at the start of `s`. -/
def separated (s : List Char) : Bool := (s.takeWhile isSlotGap).any isSeparator

/-- What follows the spaces and line ends at the start of `s`. -/
def skipGap (s : List Char) : List Char := s.dropWhile isGap

/-- Whether a compartment ends here: after spaces and line ends there is nothing, a closing bracket
or a bar. -/
def atBoundary (s : List Char) : Bool :=
  match skipGap s with
  | [] => true
  | c :: _ => c == ']' || c == '|'

/-- `rest` stands at the end of `s`, and something stands before it. -/
def ProperTail (rest s : List Char) : Prop := rest <:+ s ∧ rest.length < s.length

theorem ProperTail.of_suffix {rest middle s : List Char} (h : ProperTail rest middle)
    (hs : middle <:+ s) : ProperTail rest s :=
  ⟨h.1.trans hs, Nat.lt_of_lt_of_le h.2 hs.length_le⟩

theorem properTail_of_suffix {rest middle s : List Char} (h : rest <:+ middle)
    (hs : ProperTail middle s) : ProperTail rest s :=
  ⟨h.trans hs.1, Nat.lt_of_le_of_lt h.length_le hs.2⟩

theorem properTail_cons (c : Char) (s : List Char) : ProperTail s (c :: s) :=
  ⟨List.suffix_cons c s, by simp⟩

theorem skipSeparators_suffix (s : List Char) : skipSeparators s <:+ s :=
  List.dropWhile_suffix _

theorem skipGap_suffix (s : List Char) : skipGap s <:+ s :=
  List.dropWhile_suffix _

/-- What a reader returns: a value and what is left of the text, or a fault. -/
abbrev Outcome (α : Type) := Except Fault (α × List Char)

/-- A way to read what follows the opening bracket of a classifier, up to its closing bracket. -/
structure BodyReader where
  read : List Char → Outcome Classifier
  progress : ∀ {s rest : List Char} {classifier : Classifier},
    read s = .ok (classifier, rest) → ProperTail rest s

/-- The association that a link makes between the classifiers of the given names. -/
def Link.relation (link : Link) (source target : String) : Relation :=
  ⟨String.ofList link.arrow, source, target, link.sourceLabel, link.targetLabel⟩

/-- The associations that lead on from a classifier, with the classifiers on the way. Text that is
blank is no association and is left unread. -/
def links (body : BodyReader) (source : Classifier) (s : List Char) : Outcome Compartment :=
  if isBlank (run s) then .ok (⟨[], [source], []⟩, s)
  else
    match _hs : afterRun s with
    | '[' :: inner =>
        match _hb : body.read inner with
        | .error fault => .error fault
        | .ok (target, rest) =>
            match Link.ofText? (unescape (run s)) with
            | none => .error ⟨.missingArrow, s, rest⟩
            | some link =>
                match links body target rest with
                | .error fault => .error fault
                | .ok (chain, left) =>
                    .ok (⟨[], [source], [link.relation source.name target.name]⟩ ++ chain, left)
    | stop => .error ⟨.missingTarget, s, stop⟩
termination_by s.length
decreasing_by
  have := (properTail_of_suffix (body.progress _hb).1 (properTail_cons '[' inner)).of_suffix
    (_hs ▸ Text.afterRun_suffix s)
  exact this.2

/-- A line of text: the run without its outer white space and its escapes, if anything is left. -/
def textLine (run : List Char) : Compartment :=
  match unescape (Text.trim run) with
  | [] => .empty
  | line => ⟨[String.ofList line], [], []⟩

/-- One slot: a chain if it begins with a bracket, a line of text otherwise. -/
def slot (body : BodyReader) (s : List Char) : Outcome Compartment :=
  match s with
  | '[' :: inner =>
      match body.read inner with
      | .error fault => .error fault
      | .ok (first, rest) => links body first rest
  | s => .ok (textLine (run s), afterRun s)

theorem links_suffix {body : BodyReader} {source : Classifier} {s rest : List Char}
    {chain : Compartment} (h : links body source s = .ok (chain, rest)) : rest <:+ s := by
  fun_induction links body source s generalizing chain rest with
  | case1 source s hb => simp_all
  | case2 => simp at h
  | case3 => simp at h
  | case4 => simp at h
  | case5 source s hb inner hs target middle hr link hl chain' left hc ih =>
      simp only [Except.ok.injEq, Prod.mk.injEq] at h
      have hm := (properTail_of_suffix (body.progress hr).1 (properTail_cons '[' inner)).of_suffix
        (hs ▸ Text.afterRun_suffix s)
      exact (h.2 ▸ ih hc).trans hm.1
  | case6 => simp at h

/-- After separators, and away from a boundary, what is no bracket is the beginning of a run. -/
theorem endsRun_eq_false {c : Char} {s r : List Char} (hs : skipSeparators s = c :: r)
    (hb : atBoundary (c :: r) = false) (hc : c ≠ '[') : endsRun c = false := by
  have hgap : isSlotGap c = false := by
    have := List.head?_dropWhile_not isSlotGap s
    rw [show s.dropWhile isSlotGap = c :: r from hs] at this
    simpa using this
  cases hg : isGap c with
  | true =>
      simp only [isGap, isSpace, Bool.or_eq_true, beq_iff_eq] at hg
      rcases hg with ((rfl | rfl) | rfl) | rfl
      · simp [isSlotGap, isSpace] at hgap
      · simp [isSlotGap, isSpace] at hgap
      · decide
      · simp [isSlotGap, isSeparator] at hgap
  | false =>
      simp only [atBoundary, skipGap, List.dropWhile_cons, hg, Bool.false_eq_true, if_false,
        Bool.or_eq_false_iff, beq_eq_false_iff_ne] at hb
      simp only [isSlotGap, Bool.or_eq_false_iff] at hgap
      simp [endsRun, Text.isDelimiter, hc, hb.1, hb.2, hgap.2]

theorem slot_progress {body : BodyReader} {s rest : List Char} {piece : Compartment}
    (hb : ¬ atBoundary (skipSeparators s) = true)
    (h : slot body (skipSeparators s) = .ok (piece, rest)) : ProperTail rest s := by
  refine ProperTail.of_suffix ?_ (skipSeparators_suffix s)
  generalize ht : skipSeparators s = t at *
  unfold slot at h
  split at h
  · next inner =>
      split at h
      · simp at h
      · next first middle hr =>
          exact properTail_of_suffix (links_suffix h)
            (properTail_of_suffix (body.progress hr).1 (properTail_cons '[' inner))
  · next hne =>
      simp only [Except.ok.injEq, Prod.mk.injEq] at h
      rw [← h.2]
      refine ⟨Text.afterRun_suffix t, ?_⟩
      cases t with
      | nil => simp [atBoundary, skipGap] at hb
      | cons c r =>
          exact Text.afterRun_length_lt
            (endsRun_eq_false ht (by simpa using hb) fun e => hne r (by rw [e]))

/-- The slots of one compartment, up to a boundary. -/
def slots (body : BodyReader) (s : List Char) : Outcome Compartment :=
  if _hb : atBoundary (skipSeparators s) then .ok (.empty, skipSeparators s)
  else
    match _hp : slot body (skipSeparators s) with
    | .error fault => .error fault
    | .ok (piece, rest) =>
        if separated rest then
          match slots body rest with
          | .error fault => .error fault
          | .ok (more, left) => .ok (piece ++ more, left)
        else if atBoundary (skipSeparators rest) then .ok (piece, skipSeparators rest)
        else .error ⟨.missingSeparator, skipSeparators rest, skipSeparators rest⟩
termination_by s.length
decreasing_by exact (slot_progress _hb _hp).2

theorem slots_suffix {body : BodyReader} {s rest : List Char} {compartment : Compartment}
    (h : slots body s = .ok (compartment, rest)) : rest <:+ s := by
  fun_induction slots body s generalizing compartment rest with
  | case1 s hb =>
      simp only [Except.ok.injEq, Prod.mk.injEq] at h
      exact h.2 ▸ skipSeparators_suffix s
  | case2 => simp at h
  | case3 => simp at h
  | case4 s hb piece middle hp hsep more left hm ih =>
      simp only [Except.ok.injEq, Prod.mk.injEq] at h
      exact (h.2 ▸ ih hm).trans (slot_progress hb hp).1
  | case5 s hb piece middle hp hsep hn =>
      simp only [Except.ok.injEq, Prod.mk.injEq] at h
      exact h.2 ▸ (skipSeparators_suffix middle).trans (slot_progress hb hp).1
  | case6 => simp at h

def compartments (body : BodyReader) (s : List Char) : Outcome (List Compartment) :=
  match _hs : slots body s with
  | .error fault => .error fault
  | .ok (first, rest) =>
      match _hr : skipGap rest with
      | '|' :: next =>
          match compartments body (skipGap next) with
          | .error fault => .error fault
          | .ok (more, left) => .ok (first :: more, left)
      | _ => .ok ([first], rest)
termination_by s.length
decreasing_by
  have := (properTail_of_suffix (skipGap_suffix next) (properTail_cons '|' next)).of_suffix
    ((_hr ▸ skipGap_suffix rest).trans (slots_suffix _hs))
  exact this.2

theorem compartments_suffix {body : BodyReader} {s rest : List Char} {parts : List Compartment}
    (h : compartments body s = .ok (parts, rest)) : rest <:+ s := by
  fun_induction compartments body s generalizing parts rest with
  | case1 => simp at h
  | case2 => simp at h
  | case3 s first middle hs next hr more left hm ih =>
      simp only [Except.ok.injEq, Prod.mk.injEq] at h
      have hn := (properTail_of_suffix (skipGap_suffix next) (properTail_cons '|' next)).of_suffix
        ((hr ▸ skipGap_suffix middle).trans (slots_suffix hs))
      exact (h.2 ▸ ih hm).trans hn.1
  | case4 s first middle hs hr =>
      simp only [Except.ok.injEq, Prod.mk.injEq] at h
      exact h.2 ▸ slots_suffix hs

/-- A classifier whose opening bracket has been read, when the classifiers inside it are read by
`body`. -/
def closed (body : BodyReader) (s : List Char) : Outcome Classifier :=
  match compartments body s with
  | .error fault => .error fault
  | .ok (parts, rest) =>
      match skipGap rest with
      | ']' :: left => .ok (.ofCompartments parts, left)
      | stop => .error ⟨.unclosedClassifier, '[' :: s, stop⟩

theorem closed_progress {body : BodyReader} {s rest : List Char} {classifier : Classifier}
    (h : closed body s = .ok (classifier, rest)) : ProperTail rest s := by
  unfold closed at h
  split at h
  · simp at h
  · next parts middle hc =>
      split at h
      · next left hg =>
          simp only [Except.ok.injEq, Prod.mk.injEq] at h
          exact h.2 ▸ (properTail_cons ']' left).of_suffix
            ((hg ▸ skipGap_suffix middle).trans (compartments_suffix hc))
      · simp at h

/-- A classifier whose opening bracket has been read, with so many levels allowed. -/
def classifier : Nat → BodyReader
  | 0 => ⟨fun s => .error ⟨.nestedTooDeeply, '[' :: s, s⟩, by simp⟩
  | levels + 1 => ⟨closed (classifier levels), closed_progress⟩

def document (s : List Char) : Except Fault Compartment :=
  match slots (classifier nestingLimit) s with
  | .error fault => .error fault
  | .ok (root, rest) =>
      match skipGap rest with
      | [] => .ok root
      | found :: left => .error ⟨.unexpected found, found :: left, left⟩

def ofText? (text : String) : Except Diagnostic Compartment :=
  match document text.toList with
  | .ok root => .ok root
  | .error fault => .error (fault.toDiagnostic text.toList)

end ClassDiagram.Draft
