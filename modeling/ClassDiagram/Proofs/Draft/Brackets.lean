import ClassDiagram.Proofs.Draft.Steps
import ClassDiagram.Proofs.Text.Marks

set_option autoImplicit false

namespace ClassDiagram.Draft

open Text (isBlank run afterRun marks bare)

mutual

/-- All classifiers in a compartment, at any depth. -/
def Compartment.within : Compartment → List Classifier
  | ⟨_, classifiers, _⟩ => withinClassifiers classifiers

def withinClassifiers : List Classifier → List Classifier
  | [] => []
  | classifier :: rest => classifier :: (classifier.within ++ withinClassifiers rest)

def Classifier.within : Classifier → List Classifier
  | ⟨_, _, compartments⟩ => withinCompartments compartments

def withinCompartments : List Compartment → List Classifier
  | [] => []
  | compartment :: rest => compartment.within ++ withinCompartments rest

end

/-- How many compartments the classifiers have, not counting those of others inside them. -/
def partCount : List Classifier → Nat
  | [] => 0
  | classifier :: rest => classifier.compartments.length + partCount rest

theorem withinClassifiers_append (first second : List Classifier) :
    withinClassifiers (first ++ second) = withinClassifiers first ++ withinClassifiers second := by
  induction first with
  | nil => rfl
  | cons classifier rest ih =>
      simp only [List.cons_append, withinClassifiers, ih, List.append_assoc]

theorem Compartment.within_eq (compartment : Compartment) :
    compartment.within = withinClassifiers compartment.classifiers := by
  cases compartment
  rfl

theorem Compartment.within_append (first second : Compartment) :
    (first ++ second).within = first.within ++ second.within := by
  simp only [within_eq, append_classifiers, withinClassifiers_append]

/-- A header holds no classifier. -/
theorem Classifier.within_ofCompartments (parts : List Compartment) :
    (Classifier.ofCompartments parts).within = withinCompartments parts := by
  fun_cases Classifier.ofCompartments parts with
  | case1 => rfl
  | case2 => rfl
  | case3 first rest header lines kind name =>
      simp only [Classifier.within, withinCompartments, Compartment.within_eq]

theorem partCount_append (first second : List Classifier) :
    partCount (first ++ second) = partCount first + partCount second := by
  induction first with
  | nil => rw [List.nil_append, partCount, Nat.zero_add]
  | cons classifier rest ih => rw [List.cons_append, partCount, partCount, ih, Nat.add_assoc]

/-- Every bracket is closed behind it, and never more than `levels` of them are open. -/
structure Nested (levels : Nat) (word : List Char) : Prop where
  total : word.count ']' = word.count '['
  along : ∀ part, part <+: word →
    part.count ']' ≤ part.count '[' ∧ part.count '[' ≤ part.count ']' + levels

namespace Nested

variable {levels : Nat}

theorem nil (levels : Nat) : Nested levels [] where
  total := rfl
  along := by
    intro part first
    rw [List.prefix_nil.1 first]
    exact ⟨Nat.le_refl 0, Nat.zero_le _⟩

theorem bar (levels : Nat) : Nested levels ['|'] where
  total := rfl
  along := by
    intro part first
    rcases List.prefix_cons_iff.1 first with rfl | ⟨more, rfl, nothing⟩
    · exact ⟨Nat.le_refl 0, Nat.zero_le _⟩
    · rw [List.prefix_nil.1 nothing]
      exact ⟨Nat.le_refl 0, Nat.zero_le _⟩

theorem append {front back : List Char} (first : Nested levels front)
    (second : Nested levels back) : Nested levels (front ++ back) where
  total := by rw [List.count_append, List.count_append, first.total, second.total]
  along := by
    intro part start
    rcases List.prefix_or_prefix_of_prefix start (List.prefix_append front back) with
      inside | ⟨more, rfl⟩
    · exact first.along part inside
    · have total := first.total
      have along := second.along more ((List.prefix_append_right_inj front).1 start)
      rw [List.count_append, List.count_append]
      omega

/-- A pair of brackets around it is one level more. -/
theorem bracket {word : List Char} (inner : Nested levels word) :
    Nested (levels + 1) ('[' :: word ++ [']']) := by
  have total : ('[' :: word ++ [']']).count ']' = ('[' :: word ++ [']']).count '[' := by
    simp [inner.total]
  refine ⟨total, fun part start => ?_⟩
  rcases List.prefix_concat_iff.1 start with rfl | start
  · exact ⟨Nat.le_of_eq total, total ▸ Nat.le_add_right _ _⟩
  · rcases List.prefix_cons_iff.1 start with rfl | ⟨more, rfl, first⟩
    · exact ⟨Nat.le_refl 0, Nat.zero_le _⟩
    · have along := inner.along more first
      simp only [List.count_cons_self, List.count_cons_of_ne (show '[' ≠ ']' by decide)]
      omega

end Nested

/-- The brackets and bars of `word` account for some classifiers, all those at any depth among them.
Of the bars `spare` many stand between compartments of a classifier that is not among these. -/
structure Accounts (levels spare : Nat) (classifiers : List Classifier) (word : List Char) :
    Prop where
  nested : Nested levels word
  opened : classifiers.length = word.count '['
  parted : partCount classifiers + spare = word.count '[' + word.count '|'

namespace Accounts

variable {levels spare : Nat}

theorem nil (levels : Nat) : Accounts levels 0 [] [] := ⟨.nil levels, rfl, rfl⟩

theorem bar (levels : Nat) : Accounts levels 1 [] ['|'] := ⟨.bar levels, rfl, rfl⟩

theorem append {more : Nat} {first second : List Classifier} {front back : List Char}
    (before : Accounts levels spare first front) (behind : Accounts levels more second back) :
    Accounts levels (spare + more) (first ++ second) (front ++ back) where
  nested := before.nested.append behind.nested
  opened := by rw [List.length_append, List.count_append, before.opened, behind.opened]
  parted := by
    have first_parted := before.parted
    have second_parted := behind.parted
    rw [partCount_append, List.count_append, List.count_append]
    omega

/-- A bracket begins one compartment, and each of the bars in it another one. -/
theorem bracket {classifier : Classifier} {word : List Char}
    (inner : Accounts levels spare classifier.within word)
    (parts : classifier.compartments.length = spare + 1) :
    Accounts (levels + 1) 0 (classifier :: classifier.within) ('[' :: word ++ [']']) where
  nested := inner.nested.bracket
  opened := by simp [inner.opened]
  parted := by
    have parted := inner.parted
    have brackets : ('[' :: word ++ [']']).count '[' = word.count '[' + 1 := by simp
    have bars : ('[' :: word ++ [']']).count '|' = word.count '|' := by simp
    rw [partCount, parts, brackets, bars]
    omega

end Accounts

theorem plain_of_isGap {c : Char} (skipped : Text.isGap c = true) :
    Text.isDelimiter c = false ∧ c ≠ '\\' := by
  simp only [Text.isGap, Text.isSpace, Bool.or_eq_true, beq_iff_eq] at skipped
  rcases skipped with ((rfl | rfl) | rfl) | rfl <;> decide

theorem marks_skipGap (s : List Char) : marks (skipGap s) = marks s :=
  Text.marks_dropWhile (fun _ => plain_of_isGap) s

theorem plain_of_isSlotGap {c : Char} (skipped : isSlotGap c = true) :
    Text.isDelimiter c = false ∧ c ≠ '\\' := by
  simp only [isSlotGap, Text.isSpace, Text.isSeparator, Bool.or_eq_true, beq_iff_eq] at skipped
  rcases skipped with (rfl | rfl) | (rfl | rfl) <;> decide

theorem marks_skipSeparators (s : List Char) : marks (skipSeparators s) = marks s :=
  Text.marks_dropWhile (fun _ => plain_of_isSlotGap) s

theorem bare_afterRun (s : List Char) : bare (afterRun s) = bare s :=
  congrArg (List.map Prod.fst) (Text.marks_afterRun s)

theorem bare_skipGap (s : List Char) : bare (skipGap s) = bare s :=
  congrArg (List.map Prod.fst) (marks_skipGap s)

theorem bare_skipSeparators (s : List Char) : bare (skipSeparators s) = bare s :=
  congrArg (List.map Prod.fst) (marks_skipSeparators s)

theorem bare_cons_mark {c : Char} (mark : Text.isDelimiter c = true) (r : List Char) :
    bare (c :: r) = c :: bare r :=
  congrArg (List.map Prod.fst) (Text.marks_cons_mark mark r)

/-- A bracket that opens is one more than there are in front of it. -/
theorem count_bare_concat_open {before : List Char} (unescaped : before.getLast? ≠ some '\\') :
    (bare (before ++ ['['])).count '[' = (bare before).count '[' + 1 ∧
      (bare (before ++ ['['])).count ']' = (bare before).count ']' := by
  rw [Text.bare_append (.of_last unescaped _), show bare ['['] = ['['] from rfl]
  simp

/-- What a reader went over, from `s` to `rest`, accounts for the classifiers. -/
def Covers (levels spare : Nat) (classifiers : List Classifier) (s rest : List Char) : Prop :=
  ∃ word, bare s = word ++ bare rest ∧ Accounts levels spare classifiers word

theorem Covers.refl (levels : Nat) (s : List Char) : Covers levels 0 [] s s :=
  ⟨[], rfl, .nil levels⟩

theorem Covers.trans {levels spare more : Nat} {first second : List Classifier}
    {s middle rest : List Char} (before : Covers levels spare first s middle)
    (behind : Covers levels more second middle rest) :
    Covers levels (spare + more) (first ++ second) s rest := by
  obtain ⟨front, same, accounts⟩ := before
  obtain ⟨back, same', accounts'⟩ := behind
  exact ⟨front ++ back, by rw [same, same', List.append_assoc], accounts.append accounts'⟩

/-- What a reader skips holds neither brackets nor bars. -/
theorem Covers.of_bare_eq {levels spare : Nat} {classifiers : List Classifier}
    {s t rest left : List Char} (covers : Covers levels spare classifiers s rest)
    (front : bare t = bare s) (back : bare left = bare rest) :
    Covers levels spare classifiers t left := by
  obtain ⟨word, same, accounts⟩ := covers
  exact ⟨word, by rw [front, back, same], accounts⟩

/-- The brackets around what `body` reads account for it. -/
def BodyReader.Balances (body : BodyReader) (levels : Nat) : Prop :=
  ∀ s classifier rest, body.read s = .ok (classifier, rest) →
    Covers levels 0 (classifier :: classifier.within) ('[' :: s) rest

variable {body : BodyReader} {levels : Nat}

/-- A chain holds its source, which stands in front of the text, and classifiers from the text. -/
theorem links_covers (balances : body.Balances levels) {source : Classifier} {s rest : List Char}
    {chain : Compartment} (read : links body source s = .ok (chain, rest)) :
    ∃ others, chain.within = (source :: source.within) ++ others ∧
      Covers levels 0 others s rest := by
  fun_induction links body source s generalizing chain rest with
  | case1 source s blank =>
      cases read
      exact ⟨[], rfl, .refl levels s⟩
  | case2 => cases read
  | case3 => cases read
  | case4 => cases read
  | case5 source s blank inner opens target middle hr link hl more left hm ih =>
      cases read
      obtain ⟨others, whole, behind⟩ := ih hm
      have first := (balances _ _ _ hr).of_bare_eq (opens ▸ (bare_afterRun s).symm) rfl
      refine ⟨(target :: target.within) ++ others, ?_, first.trans behind⟩
      rw [Compartment.within_append, whole]
      simp [Compartment.within, withinClassifiers]
  | case6 => cases read

theorem slot_covers (balances : body.Balances levels) {s rest : List Char} {piece : Compartment}
    (read : slot body s = .ok (piece, rest)) : Covers levels 0 piece.within s rest := by
  rw [slot.eq_def] at read
  split at read
  · split at read
    · cases read
    · next first middle hr =>
        obtain ⟨others, whole, behind⟩ := links_covers balances read
        rw [whole]
        exact (balances _ _ _ hr).trans behind
  · cases read
    have nothing : (textLine (run s)).within = [] := by
      rw [textLine]
      split <;> rfl
    rw [nothing]
    exact (Covers.refl levels s).of_bare_eq rfl (bare_afterRun s)

theorem slots_covers (balances : body.Balances levels) {s rest : List Char}
    {compartment : Compartment} (read : slots body s = .ok (compartment, rest)) :
    Covers levels 0 compartment.within s rest := by
  fun_induction slots body s generalizing compartment rest with
  | case1 s boundary =>
      cases read
      exact (Covers.refl levels s).of_bare_eq rfl (bare_skipSeparators s)
  | case2 => cases read
  | case3 => cases read
  | case4 s boundary piece middle hp apart more left hm ih =>
      cases read
      have first := (slot_covers balances hp).of_bare_eq (bare_skipSeparators s).symm rfl
      rw [Compartment.within_append]
      exact first.trans (ih hm)
  | case5 s boundary piece middle hp apart last =>
      cases read
      exact (slot_covers balances hp).of_bare_eq (bare_skipSeparators s).symm
        (bare_skipSeparators middle)
  | case6 => cases read

/-- Between compartments stands one bar less than there are compartments. -/
theorem compartments_covers (balances : body.Balances levels) {s rest : List Char}
    {parts : List Compartment} (read : compartments body s = .ok (parts, rest)) :
    ∃ spare, parts.length = spare + 1 ∧ Covers levels spare (withinCompartments parts) s rest := by
  fun_induction compartments body s generalizing parts rest with
  | case1 => cases read
  | case2 => cases read
  | case3 s first middle hs next bar more left hm ih =>
      cases read
      obtain ⟨spare, length, behind⟩ := ih hm
      have divided : Covers levels 1 [] middle next := by
        refine ⟨['|'], ?_, .bar levels⟩
        rw [← bare_skipGap, bar, bare_cons_mark (by decide)]
        rfl
      have others := divided.trans (behind.of_bare_eq (bare_skipGap next).symm rfl)
      refine ⟨1 + spare, by rw [List.length_cons, length]; omega, ?_⟩
      have all := (slots_covers balances hs).trans others
      rw [Nat.zero_add] at all
      exact all
  | case4 s first middle hs barless =>
      cases read
      refine ⟨0, rfl, ?_⟩
      rw [withinCompartments, withinCompartments, List.append_nil]
      exact slots_covers balances hs

theorem closed_covers (balances : body.Balances levels) {s rest : List Char}
    {classifier : Classifier} (read : closed body s = .ok (classifier, rest)) :
    Covers (levels + 1) 0 (classifier :: classifier.within) ('[' :: s) rest := by
  rw [closed.eq_def] at read
  split at read
  · cases read
  · next parts middle hc =>
      split at read
      · next left bracket =>
          cases read
          obtain ⟨spare, length, word, same, accounts⟩ := compartments_covers balances hc
          rw [← Classifier.within_ofCompartments] at accounts
          rw [← Classifier.ofCompartments_length] at length
          refine ⟨'[' :: word ++ [']'], ?_, accounts.bracket length⟩
          rw [← bare_skipGap middle, bracket, bare_cons_mark (by decide)] at same
          rw [bare_cons_mark (by decide), same]
          simp
      · cases read

theorem classifier_balances (levels : Nat) : (classifier levels).Balances levels := by
  induction levels with
  | zero =>
      intro s found rest read
      cases read
  | succ levels ih =>
      intro s found rest read
      exact closed_covers ih read

theorem document_accounts {s : List Char} {root : Compartment} (read : document s = .ok root) :
    Accounts nestingLimit 0 root.within (bare s) := by
  obtain ⟨rest, found, nothing⟩ := exists_of_document read
  obtain ⟨word, same, accounts⟩ := slots_covers (classifier_balances nestingLimit) found
  have none : bare rest = [] := by rw [← bare_skipGap, nothing]; rfl
  rw [same, none, List.append_nil]
  exact accounts

/-- In an accepted text the brackets that are not escaped are balanced, with no more than a hundred
open anywhere. There are as many classifiers as opening brackets, at all depths together, and as
many compartments of classifiers as opening brackets and bars. -/
theorem ofText?_accounts {text : String} {root : Compartment} (accepted : ofText? text = .ok root) :
    (∀ part, part <+: text.toList →
        (bare part).count ']' ≤ (bare part).count '[' ∧
          (bare part).count '[' ≤ (bare part).count ']' + 100) ∧
      (bare text.toList).count ']' = (bare text.toList).count '[' ∧
      root.within.length = (bare text.toList).count '[' ∧
      partCount root.within =
        (bare text.toList).count '[' + (bare text.toList).count '|' := by
  rw [ofText?] at accepted
  split at accepted
  · next found read =>
      cases accepted
      have accounts := document_accounts read
      refine ⟨fun part first => ?_, accounts.nested.total, accounts.opened, accounts.parted⟩
      exact accounts.nested.along (bare part) (Text.bare_prefix first)
  · cases accepted

/-- Escaped brackets and bars, one of them behind two backslashes, stand beside real ones. -/
theorem ofText?_accounts_of_escapes :
    ∃ root, ofText? "[a \\\\[ b|[C] -> [D|x \\| y]]" = .ok root ∧
      bare "[a \\\\[ b|[C] -> [D|x \\| y]]".toList = ['[', '|', '[', ']', '[', '|', ']', ']'] ∧
      root.within.length = 3 ∧ partCount root.within = 5 := by
  have spelled : bare "[a \\\\[ b|[C] -> [D|x \\| y]]".toList =
      ['[', '|', '[', ']', '[', '|', ']', ']'] := by decide +kernel
  have read : (ofText? "[a \\\\[ b|[C] -> [D|x \\| y]]").isOk = true := by decide +kernel
  cases accepted : ofText? "[a \\\\[ b|[C] -> [D|x \\| y]]" with
  | error reason =>
      rw [accepted] at read
      cases read
  | ok root =>
      obtain ⟨-, -, opened, parted⟩ := ofText?_accounts accepted
      rw [spelled] at opened parted
      exact ⟨root, rfl, spelled, opened, parted⟩

end ClassDiagram.Draft
