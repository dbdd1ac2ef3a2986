set_option autoImplicit false

namespace ClassDiagram.Text

/-- The number of bytes of the UTF-8 form of `s`. -/
def byteLength : List Char → Nat
  | [] => 0
  | c :: r => c.utf8Size + byteLength r

@[simp] theorem byteLength_nil : byteLength [] = 0 := rfl

@[simp] theorem byteLength_cons (c : Char) (r : List Char) :
    byteLength (c :: r) = c.utf8Size + byteLength r := rfl

@[simp] theorem byteLength_append (s t : List Char) :
    byteLength (s ++ t) = byteLength s + byteLength t := by
  induction s with
  | nil => simp
  | cons c r ih => simp [ih]; omega

/-- Every character takes at least one byte. -/
theorem length_le_byteLength (s : List Char) : s.length ≤ byteLength s := by
  induction s with
  | nil => simp
  | cons c r ih =>
      have := c.utf8Size_pos
      simp only [List.length_cons, byteLength_cons]
      omega

end ClassDiagram.Text
