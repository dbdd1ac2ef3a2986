import ClassDiagram.Proofs.Json.ReadBack

set_option autoImplicit false

namespace ClassDiagram.Json

/-- Where in JSON text a character stands. -/
inductive Place where
  | outside
  | inString
  | escaped
deriving DecidableEq

def Place.after : Place → Char → Place
  | .outside, c => if c = '"' then .inString else .outside
  | .inString, c => if c = '"' then .outside else if c = '\\' then .escaped else .inString
  | .escaped, _ => .inString

/-- Leaves out the white space outside strings. -/
def dense (place : Place) : List Char → List Char
  | [] => []
  | c :: rest =>
      if place = .outside ∧ isSpace c = true then dense .outside rest
      else c :: dense (place.after c) rest

def withoutSpace (text : String) : String := String.ofList (dense .outside text.toList)

theorem dense_inString {c : Char} (noQuote : c ≠ '"') (noSlash : c ≠ '\\') (rest : List Char) :
    dense .inString (c :: rest) = c :: dense .inString rest := by
  simp [dense, Place.after, noQuote, noSlash]

theorem dense_escaped (c : Char) (rest : List Char) :
    dense .inString ('\\' :: c :: rest) = '\\' :: c :: dense .inString rest := by
  simp [dense, Place.after]

/-- A character that does not end a string stays in the string as it is. -/
theorem dense_writeChar (c : Char) (rest : List Char) :
    dense .inString (writeChar c ++ rest) = writeChar c ++ dense .inString rest := by
  have hex : ∀ digit < 16, Nat.digitChar digit ≠ '"' ∧ Nat.digitChar digit ≠ '\\' := by decide
  unfold writeChar
  iterate 7
    split
    · exact dense_escaped _ rest
  split
  · next control =>
      have high := hex (c.toNat / 16) (by omega)
      have low := hex (c.toNat % 16) (by omega)
      simp only [List.cons_append, List.nil_append]
      rw [dense_escaped, dense_inString (by decide) (by decide),
        dense_inString (by decide) (by decide), dense_inString high.1 high.2,
        dense_inString low.1 low.2]
  · next noQuote noSlash _ _ _ _ _ _ => exact dense_inString noQuote noSlash rest

theorem dense_flatMap (characters rest : List Char) :
    dense .inString (characters.flatMap writeChar ++ '"' :: rest) =
      characters.flatMap writeChar ++ '"' :: dense .outside rest := by
  induction characters with
  | nil => simp [dense, Place.after]
  | cons c characters ih =>
      rw [List.flatMap_cons, List.append_assoc, dense_writeChar, ih, List.append_assoc]

theorem dense_writeText (value : String) (rest : List Char) :
    dense .outside (writeText value ++ rest) = writeText value ++ dense .outside rest := by
  rw [writeText, List.append_assoc, List.cons_append]
  show '"' :: dense .inString (value.toList.flatMap writeChar ++ '"' :: rest) = _
  rw [dense_flatMap, List.append_assoc]
  rfl

theorem dense_dark {c : Char} (dark : isSpace c = false) (noQuote : c ≠ '"') (rest : List Char) :
    dense .outside (c :: rest) = c :: dense .outside rest := by
  simp [dense, Place.after, dark, noQuote]

theorem dense_word {word : List Char} (chars : ∀ c ∈ word, isWordChar c = true)
    (rest : List Char) : dense .outside (word ++ rest) = word ++ dense .outside rest := by
  induction word with
  | nil => rfl
  | cons c word ih =>
      obtain ⟨first, others⟩ := List.forall_mem_cons.1 chars
      have noQuote : c ≠ '"' := by
        rintro rfl
        cases first
      rw [List.cons_append, dense_dark (isSpace_of_isWordChar first) noQuote, ih others]
      rfl

section Values

variable (layout : Layout)

theorem dense_lineStart (depth : Nat) (rest : List Char) :
    dense .outside (layout.lineStart depth ++ rest) = dense .outside rest := by
  have space {c : Char} (isSpace : isSpace c = true) (rest : List Char) :
      dense .outside (c :: rest) = dense .outside rest := by
    rw [dense, if_pos ⟨rfl, isSpace⟩]
  have spaces (count : Nat) :
      dense .outside (List.replicate count ' ' ++ rest) = dense .outside rest := by
    induction count with
    | zero => rfl
    | succ count ih => rw [List.replicate_succ, List.cons_append, space rfl, ih]
  cases layout with
  | compact => rfl
  | indented => rw [Layout.lineStart, List.cons_append, space rfl, spaces]

theorem dense_colon (rest : List Char) :
    dense .outside (layout.colon ++ rest) = ':' :: dense .outside rest := by
  cases layout <;> rfl

theorem dense_scalar (depth : Nat) {value : Json} (scalar : value.isScalar = true)
    (finite : value.Finite) (rest : List Char) :
    dense .outside (write layout depth value ++ rest) =
      write .compact depth value ++ dense .outside rest := by
  have same : write layout depth value = write .compact depth value := by
    cases value with
    | bool truth => cases truth <;> rw [write, write]
    | null => rw [write, write]
    | whole value => rw [write, write]
    | double value => rw [write, write]
    | text value => cases scalar
    | list items => cases scalar
    | object members => cases scalar
  rw [dense_word (isWordOf_write scalar finite layout depth).chars, same]

mutual

theorem dense_write (depth : Nat) (value : Json) (finite : value.Finite) (rest : List Char) :
    dense .outside (write layout depth value ++ rest) =
      write .compact depth value ++ dense .outside rest := by
  match value with
  | .null => exact dense_scalar layout depth rfl finite rest
  | .bool _ => exact dense_scalar layout depth rfl finite rest
  | .whole _ => exact dense_scalar layout depth rfl finite rest
  | .double _ => exact dense_scalar layout depth rfl finite rest
  | .text content =>
      rw [write, write]
      exact dense_writeText content rest
  | .list [] =>
      rw [write, write]
      rfl
  | .list (item :: items) =>
      obtain ⟨first, others⟩ := finite
      simp only [write, List.cons_append, List.append_assoc, List.nil_append]
      rw [dense_dark (by decide) (by decide), dense_lineStart, dense_write _ item first,
        dense_writeItems _ items others, dense_lineStart, dense_dark (by decide) (by decide)]
      rfl
  | .object [] =>
      rw [write, write]
      rfl
  | .object ((name, value) :: members) =>
      obtain ⟨first, others⟩ := finite
      simp only [write, List.cons_append, List.append_assoc, List.nil_append]
      rw [dense_dark (by decide) (by decide), dense_lineStart, dense_writeText, dense_colon,
        dense_write _ value first, dense_writeMembers _ members others, dense_lineStart,
        dense_dark (by decide) (by decide)]
      rfl

theorem dense_writeItems (depth : Nat) (items : List Json) (finite : FiniteItems items)
    (rest : List Char) :
    dense .outside (writeItems layout depth items ++ rest) =
      writeItems .compact depth items ++ dense .outside rest := by
  match items with
  | [] => rfl
  | item :: items =>
      obtain ⟨first, others⟩ := finite
      simp only [writeItems, List.cons_append, List.append_assoc]
      rw [dense_dark (by decide) (by decide), dense_lineStart, dense_write _ item first,
        dense_writeItems _ items others]
      rfl

theorem dense_writeMembers (depth : Nat) (members : List (String × Json))
    (finite : FiniteMembers members) (rest : List Char) :
    dense .outside (writeMembers layout depth members ++ rest) =
      writeMembers .compact depth members ++ dense .outside rest := by
  match members with
  | [] => rfl
  | (name, value) :: members =>
      obtain ⟨first, others⟩ := finite
      simp only [writeMembers, List.cons_append, List.append_assoc]
      rw [dense_dark (by decide) (by decide), dense_lineStart, dense_writeText, dense_colon,
        dense_write _ value first, dense_writeMembers _ members others]
      rfl

end

end Values

/-- Without the white space outside strings every text of a value is the compact one. -/
theorem withoutSpace_render (layout : Layout) {value : Json} (finite : value.Finite) :
    withoutSpace (value.render layout) = value.render .compact := by
  have kept := dense_write layout 0 value finite []
  rw [List.append_nil, dense, List.append_nil] at kept
  rw [withoutSpace, render, String.toList_ofList, kept, render]

end ClassDiagram.Json
