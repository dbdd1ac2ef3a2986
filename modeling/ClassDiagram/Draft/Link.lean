import ClassDiagram.Text.Blank
set_option autoImplicit false

/-!
The text between two associated classifiers: a label, an arrow and another label. The arrow is the
leftmost stretch of the form `[<:o+]*[-_]/?[-_]*[:o+>]*`, each part as long as it can be.
-/
namespace ClassDiagram.Draft

def isTail (c : Char) : Bool := c == '<' || c == ':' || c == 'o' || c == '+'

def isShaft (c : Char) : Bool := c == '-' || c == '_'

def isHead (c : Char) : Bool := c == ':' || c == 'o' || c == '+' || c == '>'

/-- The text of an association, cut in three. -/
structure Link where
  before : List Char
  arrow : List Char
  after : List Char
deriving DecidableEq, Repr

namespace Link

/-- The slash at the start of `s`, if there is one, and what follows it. -/
def cutSlash : List Char → List Char × List Char
  | '/' :: r => (['/'], r)
  | r => ([], r)

/-- The rest of an arrow whose first shaft character has been read, and what follows it. -/
def cutShaft (s : List Char) : List Char × List Char :=
  let (slash, r) := cutSlash s
  let rest := r.dropWhile isShaft
  (slash ++ (r.takeWhile isShaft ++ rest.takeWhile isHead), rest.dropWhile isHead)

/-- The arrow at the start of `s` and what follows it, if an arrow starts there. -/
def cutArrow? (s : List Char) : Option (List Char × List Char) :=
  match s.dropWhile isTail with
  | [] => none
  | c :: r =>
      if isShaft c then
        let (shaft, rest) := cutShaft r
        some (s.takeWhile isTail ++ c :: shaft, rest)
      else none

/-- Cuts `s` at the first place where an arrow starts. -/
def ofText? : List Char → Option Link
  | [] => none
  | c :: r =>
      match cutArrow? (c :: r) with
      | some (arrow, after) => some ⟨[], arrow, after⟩
      | none => (ofText? r).map fun link => { link with before := c :: link.before }

def sourceLabel (link : Link) : String := String.ofList (Text.trim link.before)

def targetLabel (link : Link) : String := String.ofList (Text.trim link.after)

theorem cutSlash_append (s : List Char) : (cutSlash s).1 ++ (cutSlash s).2 = s := by
  fun_cases cutSlash s <;> simp

theorem cutShaft_append (s : List Char) : (cutShaft s).1 ++ (cutShaft s).2 = s := by
  conv => rhs; rw [← cutSlash_append s]
  simp [cutShaft, List.takeWhile_append_dropWhile]

theorem cutArrow?_append {s arrow after : List Char} (h : cutArrow? s = some (arrow, after)) :
    arrow ++ after = s := by
  have hs := List.takeWhile_append_dropWhile (p := isTail) (l := s)
  unfold cutArrow? at h
  split at h
  · simp at h
  · next c r hd =>
      split at h
      · have := cutShaft_append r
        simp only [Option.some.injEq, Prod.mk.injEq] at h
        rw [← h.1, ← h.2, List.append_assoc, List.cons_append, this, ← hd, hs]
      · simp at h

/-- Label, arrow and label make up the text. -/
theorem ofText?_append {s : List Char} {link : Link} (h : ofText? s = some link) :
    link.before ++ (link.arrow ++ link.after) = s := by
  induction s generalizing link with
  | nil => simp [ofText?] at h
  | cons c r ih =>
      unfold ofText? at h
      split at h
      · next arrow after hc =>
          simp only [Option.some.injEq] at h
          subst h
          simpa using cutArrow?_append hc
      · obtain ⟨inner, hi, rfl⟩ := Option.map_eq_some_iff.1 h
        simp [ih hi]

theorem cutArrow?_isSome_of_shaft {c : Char} (h : isShaft c = true) (r : List Char) :
    (cutArrow? (c :: r)).isSome = true := by
  have ht : isTail c = false := by
    simp only [isShaft, Bool.or_eq_true, beq_iff_eq] at h
    rcases h with rfl | rfl <;> decide
  simp [cutArrow?, ht, h]

/-- A text has an arrow exactly when it has a character of an arrow's shaft. -/
theorem ofText?_isSome (s : List Char) : (ofText? s).isSome = s.any isShaft := by
  induction s with
  | nil => rfl
  | cons c r ih =>
      unfold ofText?
      rw [List.any_cons]
      split
      · next arrow after hc =>
          cases hs : isShaft c with
          | true => simp
          | false =>
              have hmem : ∃ d ∈ c :: r, isShaft d = true := by
                unfold cutArrow? at hc
                split at hc
                · simp at hc
                · next d rest hd =>
                    split at hc
                    · next hsh =>
                        refine ⟨d, ?_, hsh⟩
                        have := List.dropWhile_suffix (p := isTail) (l := c :: r)
                        rw [hd] at this
                        exact this.subset List.mem_cons_self
                    · simp at hc
              obtain ⟨d, hd, hsh⟩ := hmem
              rcases List.mem_cons.1 hd with rfl | hd
              · simp [hs] at hsh
              · simpa using ⟨d, hd, hsh⟩
      · next hn =>
          cases hs : isShaft c with
          | true => simpa [hn] using cutArrow?_isSome_of_shaft hs r
          | false => simpa using ih

end Link
end ClassDiagram.Draft
