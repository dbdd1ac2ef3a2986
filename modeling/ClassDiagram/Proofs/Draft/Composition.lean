import ClassDiagram.Proofs.Draft.Preorder
import ClassDiagram.Proofs.Draft.Steps

set_option autoImplicit false

namespace ClassDiagram.Draft

open Text (run unescape)

namespace Compartment

/-- `p` holds of the compartment, at depth zero, and of all compartments in it at their depths. -/
def AtDepths (p : Nat → Compartment → Prop) (root : Compartment) : Prop :=
  ∀ path compartment, root.follow? path = some compartment → p path.length compartment

theorem atDepths_iff {p : Nat → Compartment → Prop} {root : Compartment} :
    root.AtDepths p ↔ p 0 root ∧ ∀ classifier ∈ root.classifiers,
      ∀ part ∈ classifier.compartments, part.AtDepths fun depth => p (depth + 1) := by
  constructor
  · intro all
    refine ⟨all [] root rfl, fun classifier mem part inside path compartment leads => ?_⟩
    obtain ⟨i, at_i⟩ := List.mem_iff_getElem?.1 mem
    obtain ⟨j, at_j⟩ := List.mem_iff_getElem?.1 inside
    apply all (⟨i, j⟩ :: path)
    rw [follow?_cons at_i at_j, leads]
  · rintro ⟨here, below⟩ path compartment leads
    cases path with
    | nil =>
        cases leads
        exact here
    | cons step path =>
        obtain ⟨classifier, part, at_i, at_j, inside⟩ := exists_of_follow?_cons leads
        exact below classifier (List.mem_of_getElem? at_i) part (List.mem_of_getElem? at_j) path
          compartment inside

end Compartment

variable {body : BodyReader} {s rest : List Char}

/-- The compartment of a chain that begins with a classifier `source`. -/
inductive Chain (body : BodyReader) : Classifier → Compartment → Prop
  | last (source : Classifier) : Chain body source ⟨[], [source], []⟩
  | link {source target : Classifier} {chain : Compartment} {text inner rest : List Char}
      {link : Link} (arrow : Link.ofText? (unescape (run text)) = some link)
      (read : body.read inner = .ok (target, rest)) (more : Chain body target chain) :
      Chain body source (⟨[], [source], [link.relation source.name target.name]⟩ ++ chain)

theorem links_chain {source : Classifier} {chain : Compartment}
    (read : links body source s = .ok (chain, rest)) : Chain body source chain := by
  fun_induction links body source s generalizing chain rest with
  | case1 source s blank =>
      cases read
      exact .last source
  | case2 => cases read
  | case3 => cases read
  | case4 => cases read
  | case5 source s blank inner opens target middle hr link hl more left hm ih =>
      cases read
      exact .link hl hr (ih hm)
  | case6 => cases read

theorem Chain.lines_eq {source : Classifier} {chain : Compartment}
    (chained : Chain body source chain) : chain.lines = [] := by
  induction chained with
  | last => rfl
  | link arrow read more ih => exact ih

/-- A slot is a line of text or a chain. -/
theorem slot_cases {piece : Compartment} (read : slot body s = .ok (piece, rest)) :
    piece = textLine (run s) ∨ ∃ first inner middle, body.read inner = .ok (first, middle) ∧
      Chain body first piece := by
  rw [slot.eq_def] at read
  split at read
  · next inner =>
      split at read
      · cases read
      · next first middle hr => exact .inr ⟨first, inner, middle, hr, links_chain read⟩
  · cases read
    exact .inl rfl

/-- All that `body` reads satisfies `q`. -/
def BodyReader.Yields (body : BodyReader) (q : Classifier → Prop) : Prop :=
  ∀ s classifier rest, body.read s = .ok (classifier, rest) → q classifier

/-- The classifiers of a chain are the first one and those that `body` reads. -/
theorem Chain.classifiers {q : Classifier → Prop} (yields : body.Yields q) {source : Classifier}
    {chain : Compartment} (chained : Chain body source chain) (first : q source) :
    ∀ classifier ∈ chain.classifiers, q classifier := by
  induction chained with
  | last source =>
      intro classifier mem
      rw [List.mem_singleton.1 mem]
      exact first
  | link arrow read more ih =>
      intro classifier mem
      rcases List.mem_cons.1 mem with rfl | mem
      · exact first
      · exact ih (yields _ _ _ read) classifier mem

/-- What holds of lines and chains, and of what is put together from such compartments, holds of all
that is read between two bars. -/
theorem slots_induction {p : Compartment → Prop} {q : Classifier → Prop} (yields : body.Yields q)
    (line : ∀ text, p (textLine (run text)))
    (chain : ∀ {first compartment}, Chain body first compartment → q first → p compartment)
    (append : ∀ {first second}, p first → p second → p (first ++ second))
    {compartment : Compartment} (read : slots body s = .ok (compartment, rest)) :
    p compartment := by
  have single : ∀ {s rest piece}, slot body s = .ok (piece, rest) → p piece := by
    intro s rest piece found
    rcases slot_cases found with rfl | ⟨first, inner, middle, hr, chained⟩
    · exact line s
    · exact chain chained (yields _ _ _ hr)
  fun_induction slots body s generalizing compartment rest with
  | case1 s boundary =>
      cases read
      exact line []
  | case2 => cases read
  | case3 => cases read
  | case4 s inside piece middle hp apart more left hm ih =>
      cases read
      exact append (single hp) (ih hm)
  | case5 s inside piece middle hp apart last =>
      cases read
      exact single hp
  | case6 => cases read

/-- There is a first compartment, and each of them is read like a text of its own. -/
theorem compartments_parts {parts : List Compartment}
    (read : compartments body s = .ok (parts, rest)) :
    parts ≠ [] ∧ ∀ part ∈ parts, ∃ text left, slots body text = .ok (part, left) := by
  fun_induction compartments body s generalizing parts rest with
  | case1 => cases read
  | case2 => cases read
  | case3 s first middle hs next bar more left hm ih =>
      cases read
      refine ⟨List.cons_ne_nil _ _, fun part mem => ?_⟩
      rcases List.mem_cons.1 mem with rfl | mem
      · exact ⟨s, middle, hs⟩
      · exact (ih hm).2 part mem
  | case4 s first middle hs barless =>
      cases read
      refine ⟨List.cons_ne_nil _ _, fun part mem => ?_⟩
      rw [List.mem_singleton.1 mem]
      exact ⟨s, middle, hs⟩

/-- What holds of a classifier whose inner classifiers are read with one level less holds on every
level. -/
theorem classifier_yields {q : Nat → Classifier → Prop}
    (level : ∀ levels, (classifier levels).Yields (q levels) → ∀ parts, parts ≠ [] →
      (∀ part ∈ parts, ∃ text left, slots (classifier levels) text = .ok (part, left)) →
      q (levels + 1) (.ofCompartments parts)) (levels : Nat) :
    (classifier levels).Yields (q levels) := by
  induction levels with
  | zero =>
      intro s found rest read
      cases read
  | succ levels ih =>
      intro s found rest read
      have closes : closed (classifier levels) s = .ok (found, rest) := read
      rw [closed.eq_def] at closes
      split at closes
      · cases closes
      · next parts middle hc =>
          split at closes
          · cases closes
            obtain ⟨something, each⟩ := compartments_parts hc
            exact level levels ih parts something each
          · cases closes

end ClassDiagram.Draft
