import ClassDiagram.Proofs.Number.Range
import ClassDiagram.Proofs.Settings.Fields

set_option autoImplicit false

/-!
Rounding can make an infinite number or a zero of a row of digits, so what counts is the double that
is read and not how it is written.
-/
namespace ClassDiagram

open Settings (Measure)

namespace Settings.Measure

/-- What the number of a measure has to do with the text of its directive, if there is one. -/
structure Settled (measure : Measure) (given : Option String) (number : Double) : Prop where
  finite : number.isFinite = true
  nonzero : measure ≠ .edgeMargin → measure ≠ .gravity → number.isZero = false
  /-- Only a usable text makes a difference, and then the number is what the text is read as. -/
  changed : number ≠ measure.get default →
    ∃ text, given = some text ∧ Double.ofText? (Text.trim text.toList) = some number ∧
      (number.isZero = true → measure = .gravity)
  /-- Every usable text counts. -/
  taken : ∀ text usable, given = some text →
    Double.ofText? (Text.trim text.toList) = some usable → usable.isFinite = true →
    (usable.isZero = true → measure = .gravity) → number = usable
  /-- A decimal number is rounded unless it is too large or, for all but the pull, too small. -/
  rounded : ∀ text decimal, given = some text →
    Decimal.ofText? (Text.trim text.toList) = some decimal →
    number =
      if decimal.size < Decimal.overflow ∧
          (Decimal.underflow < decimal.size ∨ measure = .gravity) then decimal.toDouble
      else measure.get default
  /-- A word for what is no finite number says nothing. -/
  word : ∀ text, given = some text → Double.IsWord (Text.trim text.toList) →
    number = measure.get default

theorem default_isFinite (measure : Measure) : (measure.get default).isFinite = true := by
  cases measure <;> decide +kernel

theorem default_nonzero {measure : Measure} (noMargin : measure ≠ .edgeMargin) :
    (measure.get default).isZero = false := by
  cases measure with
  | edgeMargin => exact absurd rfl noMargin
  | _ => decide +kernel

/-- What a directive makes of a measure hangs on the double that its text is read as. -/
theorem read_of_ofText? (measure : Measure) {text : String} {number : Double}
    (read : Double.ofText? (Text.trim text.toList) = some number) :
    measure.read (some text) =
      if number.isFinite = true ∧ measure.admits number = true then number
      else measure.get default := by
  rw [Measure.read, Option.bind_some, finiteNumber?, read]
  by_cases finite : number.isFinite = true
  · by_cases admitted : measure.admits number = true
    · simp [Option.filter, finite, admitted]
    · simp [Option.filter, finite, admitted]
  · simp [Option.filter, finite]

theorem read_isFinite (measure : Measure) (given : Option String) :
    (measure.read given).isFinite = true := by
  rcases measure.read_cases given with same | ⟨text, number, -, found, -, same⟩
  · rw [same]
    exact measure.default_isFinite
  · rw [same]
    exact isFinite_of_finiteNumber? found

theorem read_nonzero {measure : Measure} (noMargin : measure ≠ .edgeMargin)
    (noPull : measure ≠ .gravity) (given : Option String) :
    (measure.read given).isZero = false := by
  rcases measure.read_cases given with same | ⟨text, number, -, -, admitted, same⟩
  · rw [same]
    exact default_nonzero noMargin
  · rw [same]
    have nonzero := mt ((measure.admits_iff number).1 admitted) noPull
    exact eq_false_of_ne_true nonzero

theorem read_of_decimal (measure : Measure) {text : String} {decimal : Decimal}
    (read : Decimal.ofText? (Text.trim text.toList) = some decimal) :
    measure.read (some text) =
      if decimal.size < Decimal.overflow ∧
          (Decimal.underflow < decimal.size ∨ measure = .gravity) then decimal.toDouble
      else measure.get default := by
  have usable : decimal.toDouble.isFinite = true ∧ measure.admits decimal.toDouble = true ↔
      decimal.size < Decimal.overflow ∧
        (Decimal.underflow < decimal.size ∨ measure = .gravity) := by
    rw [decimal.toDouble_isFinite_iff, measure.admits_iff, decimal.toDouble_isZero_iff,
      ← not_lt, ← or_iff_not_imp_left]
  rw [measure.read_of_ofText? (Double.ofText?_of_decimal read)]
  simp only [usable]

theorem settled_read (measure : Measure) (given : Option String) :
    measure.Settled given (measure.read given) where
  finite := measure.read_isFinite given
  nonzero noMargin noPull := read_nonzero noMargin noPull given
  changed differs := by
    rcases measure.read_cases given with same | ⟨text, number, stated, found, admitted, same⟩
    · exact absurd same differs
    · rw [same]
      have read := (Option.filter_eq_some_iff.1 found).1
      exact ⟨text, stated, read, (measure.admits_iff number).1 admitted⟩
  taken := by
    rintro text usable rfl read finite zero
    rw [measure.read_of_ofText? read, if_pos ⟨finite, (measure.admits_iff usable).2 zero⟩]
  rounded := by
    rintro text decimal rfl read
    exact measure.read_of_decimal read
  word := by
    rintro text rfl word
    obtain ⟨number, read, infinite⟩ := Double.ofText?_of_isWord word
    rw [measure.read_of_ofText? read, if_neg]
    intro usable
    rw [infinite] at usable
    exact Bool.false_ne_true usable.1

end Settings.Measure

/-- In every diagram that is accepted, every number among the settings is finite, and the sizes are
not zero. It is as when nothing is said, or the usable double that is read from the last value that
the standing directives and the source together give to its key. -/
theorem compile_settled {ε : Type} {compiler : Compiler ε} {source : String} {diagram : Diagram}
    (accepted : compiler.compile source = .ok diagram) :
    ∃ entries, Source.directiveEntries (Source.lines source) = .ok entries ∧
      ∀ measure : Measure,
        measure.Settled (OrderedMap.last? measure.name (compiler.defaults.entries ++ entries))
          (measure.get diagram.settings) := by
  obtain ⟨entries, given, settings⟩ := Compiler.compile_settings accepted
  refine ⟨entries, given, ?_⟩
  intro measure
  rw [settings, Compiler.settings, Measure.get_ofDirectives, OrderedMap.get?_merge_ofList]
  exact measure.settled_read _

/-- Two numbers are out of range and one is a word, so they say nothing. The pull becomes a negative
zero, and three quarters of the smallest double are rounded up to it. -/
theorem compile_settled_of_extremes :
    ∃ diagram,
      { Compiler.standard with defaults := .ofList [("padding", "1e-400")] }.compile
        "#zoom:1e309\n#spacing:-INF\n#gravity:-0\n#leading:3.7e-324\n[A]" = .ok diagram ∧
      diagram.settings =
        { Settings.default with gravity := .zero true, leading := .finite false 1 0 } ∧
      ∃ entries, Source.directiveEntries (Source.lines
          "#zoom:1e309\n#spacing:-INF\n#gravity:-0\n#leading:3.7e-324\n[A]") = .ok entries ∧
        ∀ measure : Measure,
          measure.Settled (OrderedMap.last? measure.name (("padding", "1e-400") :: entries))
            (measure.get diagram.settings) := by
  have counted : ({ Compiler.standard with defaults := .ofList [("padding", "1e-400")] }.compile
        "#zoom:1e309\n#spacing:-INF\n#gravity:-0\n#leading:3.7e-324\n[A]").toOption.map
          Diagram.settings =
      some { Settings.default with gravity := .zero true, leading := .finite false 1 0 } := by
    decide +kernel
  cases accepted : { Compiler.standard with
      defaults := .ofList [("padding", "1e-400")] }.compile
        "#zoom:1e309\n#spacing:-INF\n#gravity:-0\n#leading:3.7e-324\n[A]" with
  | error reason =>
      rw [accepted] at counted
      cases counted
  | ok diagram =>
      rw [accepted] at counted
      exact ⟨diagram, rfl, Option.some.inj counted, compile_settled accepted⟩

end ClassDiagram
