import ClassDiagram.Proofs.Draft.Written

set_option autoImplicit false

/-!
Texts, headers and links are printed as the escape of some text without separators, so each is cut
off as one run, and what is read from the run is what was meant.
-/
namespace ClassDiagram.Written

open Text (IsTrimmed isWhite isBlank isSeparator isDelimiter endsRun escape unescape cutRun trim)

theorem escape_space : escape [' '] = [' '] := rfl

theorem Phrase.print_eq_escape (phrase : Phrase) :
    phrase.print = escape (phrase.chars ++ [' ']) := by
  rw [Phrase.print, Text.escape_append, escape_space]

theorem Phrase.text_trim (phrase : Phrase) (before after : List Char)
    (blankBefore : isBlank before = true) (blankAfter : isBlank after = true) :
    String.ofList (trim (before ++ (phrase.chars ++ after))) = phrase.text := by
  rw [phrase.trimmed.trim_append before after blankBefore blankAfter, Phrase.text]

theorem Phrase.cutRun_print (phrase : Phrase) {rest : List Char}
    (stop : ∀ c ∈ rest.head?, endsRun c = true) :
    cutRun (phrase.print ++ rest) = (phrase.print, rest) := by
  rw [phrase.print_eq_escape]
  apply Text.cutRun_escape _ stop
  · intro slash
    simp at slash
  · intro c hc
    rcases List.mem_append.1 hc with hc | hc
    · exact phrase.unseparated c hc
    · rw [List.mem_singleton.1 hc]
      decide

/-- What the scanner finds of a line is read as that line. -/
theorem Line.textLine_print (line : Line) :
    Draft.textLine line.print = ⟨[line.text], [], []⟩ := by
  have trimmed : trim line.print = escape line.chars :=
    line.trimmed.escape.trim_append [] [' '] rfl (by decide)
  rw [Draft.textLine, trimmed, Text.unescape_escape]
  split
  · next nothing => exact absurd nothing line.ne_nil
  · rfl

theorem Line.print_cons (line : Line) :
    ∃ c r, line.print = c :: r ∧ isWhite c = false ∧ endsRun c = false := by
  cases shape : line.chars with
  | nil => exact absurd shape line.ne_nil
  | cons d r =>
      cases hd : isDelimiter d with
      | true =>
          refine ⟨'\\', d :: (escape r ++ [' ']), ?_, by decide, by decide⟩
          rw [Phrase.print, shape, escape, Text.escapeBy_cons_of_pos hd]
          rfl
      | false =>
          have dark : isWhite d = false := line.trimmed.head d (by rw [shape]; rfl)
          have inside : isSeparator d = false := line.unseparated d (by simp [shape])
          refine ⟨d, escape r ++ [' '], ?_, dark, by simp [endsRun, hd, inside]⟩
          rw [Phrase.print, shape, escape, Text.escapeBy_cons_of_neg hd]
          rfl

def Header.chars (header : Header) : List Char :=
  match header.tag with
  | none => header.name.chars
  | some tag => '<' :: (tag.letters ++ '>' :: ' ' :: header.name.chars)

theorem isTagLetter_plain {c : Char} (h : Draft.isTagLetter c = true) :
    isDelimiter c = false ∧ isSeparator c = false := by
  constructor
  · cases hd : isDelimiter c with
    | false => rfl
    | true =>
        simp only [isDelimiter, Bool.or_eq_true, beq_iff_eq] at hd
        rcases hd with (rfl | rfl) | rfl
        · exact absurd h (by decide)
        · exact absurd h (by decide)
        · exact absurd h (by decide)
  · cases hs : isSeparator c with
    | false => rfl
    | true =>
        simp only [isSeparator, Bool.or_eq_true, beq_iff_eq] at hs
        rcases hs with rfl | rfl
        · exact absurd h (by decide)
        · exact absurd h (by decide)

theorem Header.chars_trimmed (header : Header) : IsTrimmed header.chars := by
  rw [Header.chars]
  split
  · exact header.name.trimmed
  · next tag _ =>
      refine ⟨?_, ?_⟩
      · rintro c ⟨⟩
        decide
      · have last : ('<' :: (tag.letters ++ '>' :: ' ' :: header.name.chars)).getLast? =
            header.name.chars.getLast? := by
          cases shape : header.name.chars with
          | nil => exact absurd shape header.name.ne_nil
          | cons c r => simp [List.getLast?_cons, List.getLast?_append]
        rw [last]
        exact header.name.trimmed.last

theorem Header.chars_unseparated (header : Header) :
    ∀ c ∈ header.chars, isSeparator c = false := by
  rw [Header.chars]
  split
  · exact header.name.unseparated
  · next tag _ =>
      intro c hc
      simp only [List.mem_cons, List.mem_append] at hc
      rcases hc with rfl | hc | rfl | rfl | hc
      · decide
      · exact (isTagLetter_plain (tag.lower c hc)).2
      · decide
      · decide
      · exact header.name.unseparated c hc

/-- A header is one line to the reader. -/
def Header.line (header : Header) : Line where
  chars := header.chars
  trimmed := header.chars_trimmed
  unseparated := header.chars_unseparated
  ne_nil := by
    rw [Header.chars]
    split
    · exact header.name.ne_nil
    · exact List.cons_ne_nil _ _

theorem Header.line_chars (header : Header) : header.line.chars = header.chars := rfl

theorem Header.line_print (header : Header) : header.line.print = header.print := by
  rw [Phrase.print, header.line_chars, Header.chars, Header.print]
  cases header.tag with
  | none => rfl
  | some tag =>
      have letters : escape tag.letters = tag.letters :=
        Text.escape_eq_self fun c hc => (isTagLetter_plain (tag.lower c hc)).1
      have opening : escape ['<'] = ['<'] := rfl
      have closing : escape ['>', ' '] = ['>', ' '] := rfl
      have shape : '<' :: (tag.letters ++ '>' :: ' ' :: header.name.chars) =
          ['<'] ++ tag.letters ++ ['>', ' '] ++ header.name.chars := by simp
      dsimp only
      rw [shape, Text.escape_append, Text.escape_append, Text.escape_append, letters, opening,
        closing]
      simp [Phrase.print]

theorem Header.readHeader_line (header : Header) :
    Draft.readHeader header.line.text = (header.kind, header.name.text) := by
  rw [Draft.readHeader, Phrase.text, String.toList_ofList, header.line_chars]
  simp only [Header.chars, Header.kind]
  cases tagged : header.tag with
  | none =>
      cases cut : Draft.cutTag? header.name.chars with
      | none => rfl
      | some found =>
          obtain ⟨letters, after⟩ := found
          obtain ⟨before, shape, lower⟩ := Draft.cutTag?_eq_some cut
          refine absurd (List.all_eq_true.1 lower) (header.untagged tagged before letters after ?_)
          simpa using shape
  | some tag =>
      have stop : ∀ c ∈ ('>' :: ' ' :: header.name.chars).head?, Draft.isTagLetter c = false := by
        rintro c ⟨⟩
        decide
      have cut : Draft.cutTag? ('<' :: (tag.letters ++ '>' :: ' ' :: header.name.chars)) =
          some (tag.letters, ' ' :: header.name.chars) := by
        rw [Draft.cutTag?, List.dropWhile_append_of_pos tag.lower,
          List.takeWhile_append_of_pos tag.lower]
        simp [Draft.isTagLetter]
      have name := header.name.text_trim [' '] [] (by decide) rfl
      simp only [List.append_nil, List.singleton_append] at name
      simp only [cut, name]

def Link.chars (link : Link) : List Char :=
  link.before.chars ++ [' ', ' '] ++ (link.arrow ++ (' ' :: (link.after.chars ++ [' '])))

theorem isArrow_plain {arrow : List Char} (form : Draft.IsArrow arrow) {c : Char}
    (hc : c ∈ arrow) : isDelimiter c = false ∧ isSeparator c = false := by
  have kinds := form.mem hc
  simp only [Draft.isTail, Draft.isShaft, Draft.isHead, Bool.or_eq_true, beq_iff_eq] at kinds
  rcases kinds with
    (((rfl | rfl) | rfl) | rfl) | (rfl | rfl) | rfl | (((rfl | rfl) | rfl) | rfl) <;>
    exact ⟨by decide, by decide⟩

theorem Link.print_eq_escape (link : Link) : link.print = escape link.chars := by
  have arrow : escape link.arrow = link.arrow :=
    Text.escape_eq_self fun c hc => (isArrow_plain link.form hc).1
  have shape : link.chars = link.before.chars ++ [' '] ++ [' '] ++ link.arrow ++ [' '] ++
      link.after.chars ++ [' '] := by simp [Link.chars]
  rw [shape]
  simp only [Text.escape_append, arrow, escape_space]
  simp [Link.print, Phrase.print]

theorem Link.chars_unseparated (link : Link) : ∀ c ∈ link.chars, isSeparator c = false := by
  intro c hc
  simp only [Link.chars, List.mem_append, List.mem_cons, List.not_mem_nil, or_false] at hc
  rcases hc with (hc | rfl | rfl) | hc | rfl | hc | rfl
  · exact link.before.unseparated c hc
  · decide
  · decide
  · exact (isArrow_plain link.form hc).2
  · decide
  · exact link.after.unseparated c hc
  · decide

theorem Link.chars_getLast? (link : Link) : link.chars.getLast? = some ' ' := by
  have shape : link.chars =
      link.before.chars ++ [' ', ' '] ++ (link.arrow ++ ' ' :: link.after.chars) ++ [' '] := by
    simp [Link.chars]
  rw [shape, List.getLast?_concat]

theorem Link.cutRun_print (link : Link) (rest : List Char) :
    cutRun (link.print ++ '[' :: rest) = (link.print, '[' :: rest) := by
  rw [link.print_eq_escape]
  apply Text.cutRun_escape link.chars_unseparated
  · rintro c ⟨⟩
    decide
  · intro slash
    rw [link.chars_getLast?] at slash
    cases slash

theorem Link.print_not_blank (link : Link) : isBlank link.print = false := by
  obtain ⟨c, hc, shaft⟩ := link.form.exists_shaft
  have dark : isWhite c = false := by
    simp only [Draft.isShaft, Bool.or_eq_true, beq_iff_eq] at shaft
    rcases shaft with rfl | rfl <;> decide
  rw [isBlank, List.all_eq_false]
  exact ⟨c, by simp [Link.print, hc], by simp [dark]⟩

theorem Link.ofText?_chars (link : Link) :
    Draft.Link.ofText? link.chars =
      some ⟨link.before.chars ++ [' ', ' '], link.arrow, ' ' :: (link.after.chars ++ [' '])⟩ := by
  apply Draft.Link.ofText?_of_isArrow _ _ link.form
  · rintro c ⟨⟩
    decide
  · intro c hc
    rcases List.mem_append.1 hc with hc | hc
    · exact link.shaftless c hc
    · simp only [List.mem_cons, List.not_mem_nil, or_false, or_self] at hc
      rw [hc]
      decide
  · intro c hc
    simp only [List.getLast?_append, List.getLast?_cons_cons, List.getLast?_singleton,
      Option.some_or, Option.mem_def, Option.some.injEq] at hc
    rw [← hc]
    decide

/-- The link that is found in the print of a link. -/
theorem Link.relation_print (link : Link) (source target : String) :
    ∃ found, Draft.Link.ofText? (unescape link.print) = some found ∧
      found.relation source target =
        ⟨String.ofList link.arrow, source, target, link.before.text, link.after.text⟩ := by
  refine ⟨_, by rw [link.print_eq_escape, Text.unescape_escape, link.ofText?_chars], ?_⟩
  have before := link.before.text_trim [] [' ', ' '] rfl (by decide)
  have after := link.after.text_trim [' '] [' '] (by decide) (by decide)
  simp only [List.nil_append] at before
  simp only [List.singleton_append] at after
  simp only [Draft.Link.relation, Draft.Link.sourceLabel, Draft.Link.targetLabel, before, after]

end ClassDiagram.Written
