import ClassDiagram.Draft.Basic
import ClassDiagram.Text.Blank
set_option autoImplicit false

namespace ClassDiagram.Draft

/-- The type of a classifier whose header has no tag. -/
def defaultKind : String := "CLASS"

/-- What a type tag is made of: the letters `a` to `z`. -/
def isTagLetter (c : Char) : Bool := c.isLower

/-- The letters of the first type tag in `s` and the text that follows the tag. -/
def cutTag? : List Char → Option (List Char × List Char)
  | [] => none
  | c :: r =>
      if c = '<' then
        match r.dropWhile isTagLetter with
        | '>' :: rest => some (r.takeWhile isTagLetter, rest)
        | _ => cutTag? r
      else cutTag? r

def readHeader (header : String) : String × String :=
  match cutTag? header.toList with
  | none => (defaultKind, header)
  | some (tag, rest) => (String.ofList (tag.map Char.toUpper), String.ofList (Text.trim rest))

/-- The classifier with the given compartments, named by its header. The name takes the header's
place among the lines. -/
def Classifier.ofCompartments : List Compartment → Classifier
  | [] => ⟨defaultKind, "", []⟩
  | first :: rest =>
      match first.lines with
      | [] => ⟨defaultKind, "", first :: rest⟩
      | header :: lines =>
          let (kind, name) := readHeader header
          ⟨kind, name, { first with lines := name :: lines } :: rest⟩

/-- A tag is read only where one is written: `<`, letters and `>`. -/
theorem cutTag?_eq_some {s tag rest : List Char} (h : cutTag? s = some (tag, rest)) :
    ∃ before, s = before ++ '<' :: tag ++ '>' :: rest ∧ tag.all isTagLetter = true := by
  induction s with
  | nil => simp [cutTag?] at h
  | cons c r ih =>
      unfold cutTag? at h
      split at h
      · next hc =>
          split at h
          · next rest' hd =>
              simp only [Option.some.injEq, Prod.mk.injEq] at h
              refine ⟨[], ?_, ?_⟩
              · have := List.takeWhile_append_dropWhile (p := isTagLetter) (l := r)
                rw [hd, h.1, h.2] at this
                simp [hc, this]
              · rw [← h.1]
                exact List.all_takeWhile
          · obtain ⟨before, hs, ht⟩ := ih h
            exact ⟨c :: before, by simp [hs], ht⟩
      · obtain ⟨before, hs, ht⟩ := ih h
        exact ⟨c :: before, by simp [hs], ht⟩

theorem Classifier.ofCompartments_length (compartments : List Compartment) :
    (Classifier.ofCompartments compartments).compartments.length = compartments.length := by
  fun_cases Classifier.ofCompartments compartments <;> rfl

end ClassDiagram.Draft
