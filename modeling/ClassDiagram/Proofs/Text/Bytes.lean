import ClassDiagram.Text.Bytes

set_option autoImplicit false

namespace ClassDiagram.Text

/-- The length counted by characters is the length of the encoded text. -/
theorem byteLength_eq (s : List Char) : byteLength s = (String.ofList s).utf8ByteSize := by
  induction s with
  | nil => rfl
  | cons c r ih =>
      rw [byteLength_cons, ih, String.ofList_cons, String.utf8ByteSize_append,
        String.utf8ByteSize_singleton]

theorem byteLength_toList (s : String) : byteLength s.toList = s.utf8ByteSize := by
  rw [byteLength_eq, String.ofList_toList]

theorem isValid_iff {text : String} {offset : Nat} :
    (⟨offset⟩ : String.Pos.Raw).IsValid text ↔
      ∃ before after, text.toList = before ++ after ∧ byteLength before = offset := by
  rw [String.Pos.Raw.isValid_iff_exists_append]
  constructor
  · rintro ⟨before, after, rfl, place⟩
    refine ⟨before.toList, after.toList, String.toList_append, ?_⟩
    rw [byteLength_toList]
    exact (congrArg String.Pos.Raw.byteIdx place).symm
  · rintro ⟨before, after, whole, rfl⟩
    refine ⟨.ofList before, .ofList after, ?_, ?_⟩
    · rw [← String.ofList_append, ← whole, String.ofList_toList]
    · rw [byteLength_eq]
      rfl

/-- No offset inside a character is a boundary. -/
theorem not_isValid_inside {text : String} {before after : List Char} {c : Char} {more : Nat}
    (whole : text.toList = before ++ c :: after) (positive : 0 < more)
    (inside : more < c.utf8Size) :
    ¬ (⟨byteLength before + more⟩ : String.Pos.Raw).IsValid text := by
  rw [isValid_iff]
  rintro ⟨front, back, cut, place⟩
  rw [whole] at cut
  rcases List.append_eq_append_iff.1 cut with ⟨middle, rfl, shape⟩ | ⟨middle, rfl, -⟩
  · cases middle with
    | nil =>
        simp only [List.append_nil] at place
        omega
    | cons d middle =>
        obtain ⟨rfl, -⟩ := List.cons.inj shape
        simp only [byteLength_append, byteLength_cons] at place
        omega
  · simp only [byteLength_append] at place
    omega

/-- What stands between two offsets of a text, as bytes. -/
theorem extract_between {text : String} {before shown after : List Char}
    (whole : text.toList = before ++ (shown ++ after)) :
    text.toByteArray.extract (byteLength before) (byteLength before + byteLength shown) =
      (String.ofList shown).toByteArray := by
  have parts : text = .ofList before ++ (.ofList shown ++ .ofList after) := by
    rw [← String.ofList_append, ← String.ofList_append, ← whole, String.ofList_toList]
  have size (s : List Char) : byteLength s = (String.ofList s).toByteArray.size := by
    rw [byteLength_eq, String.size_toByteArray]
  have behind := ByteArray.extract_append_size_add' (i := 0) (j := byteLength shown)
    (b := (String.ofList shown ++ String.ofList after).toByteArray) (size before)
  rw [Nat.add_zero] at behind
  rw [parts, String.toByteArray_append, behind, String.toByteArray_append,
    ByteArray.extract_append_eq_left (size shown)]

end ClassDiagram.Text
