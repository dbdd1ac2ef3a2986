set_option autoImplicit false

namespace ClassDiagram.Text

/-- A space or a tab: what may stand around a separator inside a line. -/
def isSpace (c : Char) : Bool := c == ' ' || c == '\t'

/-- A space, a tab or a line end: what may stand around a bar and before a closing bracket. -/
def isGap (c : Char) : Bool := isSpace c || c == '\r' || c == '\n'

/-- A character with the Unicode property `White_Space`: what trimming takes off. -/
def isWhite (c : Char) : Bool :=
  (0x09 ≤ c.toNat && c.toNat ≤ 0x0D) || c.toNat == 0x20 || c.toNat == 0x85 || c.toNat == 0xA0 ||
    c.toNat == 0x1680 || (0x2000 ≤ c.toNat && c.toNat ≤ 0x200A) || c.toNat == 0x2028 ||
    c.toNat == 0x2029 || c.toNat == 0x202F || c.toNat == 0x205F || c.toNat == 0x3000

theorem isGap_of_isSpace {c : Char} (h : isSpace c = true) : isGap c = true := by
  simp [isGap, h]

theorem isWhite_of_isGap {c : Char} (h : isGap c = true) : isWhite c = true := by
  simp only [isGap, isSpace, Bool.or_eq_true, beq_iff_eq] at h
  rcases h with ((rfl | rfl) | rfl) | rfl <;> decide

def trimStart (s : List Char) : List Char := s.dropWhile isWhite

def trimEnd : List Char → List Char
  | [] => []
  | c :: r => if (trimEnd r).isEmpty && isWhite c then [] else c :: trimEnd r

def trim (s : List Char) : List Char := trimEnd (trimStart s)

def isBlank (s : List Char) : Bool := s.all isWhite

def trimmed (s : String) : String := String.ofList (trim s.toList)

@[simp] theorem trimEnd_nil : trimEnd [] = [] := rfl

theorem trimEnd_eq_nil_iff (s : List Char) : trimEnd s = [] ↔ isBlank s = true := by
  induction s with
  | nil => simp [isBlank]
  | cons c r ih =>
      simp only [trimEnd, isBlank, List.all_cons, Bool.and_eq_true] at ih ⊢
      by_cases h : trimEnd r = [] <;> by_cases hc : isWhite c = true <;> simp_all

/-- Trimming at the end keeps the rest as it was. -/
theorem trimEnd_append (s : List Char) : ∃ w, isBlank w = true ∧ trimEnd s ++ w = s := by
  induction s with
  | nil => exact ⟨[], rfl, rfl⟩
  | cons c r ih =>
      obtain ⟨w, hw, hr⟩ := ih
      by_cases h : ((trimEnd r).isEmpty && isWhite c) = true
      · refine ⟨c :: r, ?_, by simp [trimEnd, h]⟩
        simp only [Bool.and_eq_true, List.isEmpty_iff] at h
        have hb := (trimEnd_eq_nil_iff r).1 h.1
        simp only [isBlank, List.all_cons, Bool.and_eq_true] at hb ⊢
        exact ⟨h.2, hb⟩
      · exact ⟨w, hw, by simp [trimEnd, h, hr]⟩

theorem trim_eq_nil_iff (s : List Char) : trim s = [] ↔ isBlank s = true := by
  rw [trim, trimEnd_eq_nil_iff]
  induction s with
  | nil => rfl
  | cons c r ih =>
      by_cases hc : isWhite c = true
      · simpa [trimStart, isBlank, hc] using ih
      · simp [trimStart, isBlank, hc]

end ClassDiagram.Text
