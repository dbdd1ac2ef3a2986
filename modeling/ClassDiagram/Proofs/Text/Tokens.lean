import ClassDiagram.Proofs.Text.Marks

set_option autoImplicit false

/-!
The tokens of a text are a backslash together with the bracket or bar behind it, and every other
character by itself.
-/
namespace ClassDiagram.Text

inductive Token where
  /-- A backslash and the bracket or bar that it turns into text. -/
  | escaped (mark : Char)
  | single (c : Char)
deriving DecidableEq, Repr

namespace Token

def written : Token → List Char
  | escaped mark => ['\\', mark]
  | single c => [c]

def value : Token → Char
  | escaped mark => mark
  | single c => c

def inRun : Token → Bool
  | escaped _ => true
  | single c => !endsRun c

end Token

def tokens : List Char → List Token
  | [] => []
  | [c] => [.single c]
  | c :: d :: r =>
      if c = '\\' ∧ isDelimiter d = true then .escaped d :: tokens r
      else .single c :: tokens (d :: r)

/-- What escapes nothing is not the backslash of a token. -/
theorem not_escaping {c d : Char} {r : List Char}
    (loose : c = '\\' → ∀ e ∈ (d :: r).head?, isDelimiter e = false) :
    ¬ (c = '\\' ∧ isDelimiter d = true) := by
  intro both
  have plain := loose both.1 d rfl
  rw [both.2] at plain
  exact Bool.noConfusion plain

theorem tokens_escaped {d : Char} (mark : isDelimiter d = true) (r : List Char) :
    tokens ('\\' :: d :: r) = .escaped d :: tokens r := by
  rw [tokens, if_pos ⟨rfl, mark⟩]

theorem tokens_single {c : Char} {r : List Char}
    (loose : c = '\\' → ∀ d ∈ r.head?, isDelimiter d = false) :
    tokens (c :: r) = .single c :: tokens r := by
  cases r with
  | nil => rfl
  | cons d r => rw [tokens, if_neg (not_escaping loose)]

/-- What holds of the empty text and of a text with one token more holds of every text. -/
@[elab_as_elim]
theorem token_induction {motive : List Char → Prop} (s : List Char) (nil : motive [])
    (escaped : ∀ d r, isDelimiter d = true → motive r → motive ('\\' :: d :: r))
    (single : ∀ c r, (c = '\\' → ∀ d ∈ r.head?, isDelimiter d = false) → motive r →
      motive (c :: r)) : motive s := by
  fun_induction tokens s with
  | case1 => exact nil
  | case2 c =>
      apply single c [] _ nil
      intro _ d first
      exact absurd first (Option.not_mem_none d)
  | case3 c d r both ih =>
      rw [both.1]
      exact escaped d r both.2 ih
  | case4 c d r apart ih =>
      apply single c (d :: r) _ ih
      intro slash e first
      obtain rfl : d = e := Option.some.inj first
      exact Bool.eq_false_iff.2 fun mark => apart ⟨slash, mark⟩

/-- The tokens make up the text. -/
theorem flatMap_written_tokens (s : List Char) : (tokens s).flatMap Token.written = s := by
  induction s using token_induction with
  | nil => rfl
  | escaped d r mark ih =>
      rw [tokens_escaped mark, List.flatMap_cons, ih]
      rfl
  | single c r loose ih =>
      rw [tokens_single loose, List.flatMap_cons, ih]
      rfl

/-- Drops every backslash behind which a bracket or bar stands. -/
def unescapeOnce : List Char → List Char
  | [] => []
  | [c] => [c]
  | c :: d :: r =>
      if c = '\\' ∧ isDelimiter d = true then unescapeOnce (d :: r) else c :: unescapeOnce (d :: r)

theorem unescapeOnce_cons {c : Char} {r : List Char}
    (loose : c = '\\' → ∀ d ∈ r.head?, isDelimiter d = false) :
    unescapeOnce (c :: r) = c :: unescapeOnce r := by
  cases r with
  | nil => rfl
  | cons d r => rw [unescapeOnce, if_neg (not_escaping loose)]

theorem unescapeOnce_escaped {d : Char} (mark : isDelimiter d = true) (r : List Char) :
    unescapeOnce ('\\' :: d :: r) = d :: unescapeOnce r := by
  rw [unescapeOnce, if_pos ⟨rfl, mark⟩]
  exact unescapeOnce_cons fun slash => absurd slash (delimiter_ne_slash mark)

theorem unescapeOnce_eq (s : List Char) : unescapeOnce s = (tokens s).map Token.value := by
  induction s using token_induction with
  | nil => rfl
  | escaped d r mark ih =>
      rw [tokens_escaped mark, unescapeOnce_escaped mark, ih]
      rfl
  | single c r loose ih =>
      rw [tokens_single loose, unescapeOnce_cons loose, ih]
      rfl

theorem dropEscape_escaped {mark d : Char} (other : d ≠ mark) (slashless : d ≠ '\\')
    (r : List Char) : dropEscape mark ('\\' :: d :: r) = '\\' :: d :: dropEscape mark r := by
  have apart : (d :: r).head? ≠ some mark := fun same => other (Option.some.inj same)
  rw [dropEscape_cons fun _ => apart, dropEscape_cons fun slash => absurd slash slashless]

/-- Only the mark itself can come to stand first. -/
theorem dropEscape_head?_ne {mark other : Char} (apart : other ≠ mark) {s : List Char}
    (first : s.head? ≠ some other) : (dropEscape mark s).head? ≠ some other := by
  intro here
  rcases eq_mark_or_head_of_dropEscape here with same | before
  · exact apart same
  · exact first before

theorem unescape_escaped {d : Char} (mark : isDelimiter d = true) (r : List Char) :
    unescape ('\\' :: d :: r) = d :: unescape r := by
  have slashless : ∀ t, ∀ m, dropEscape m (d :: t) = d :: dropEscape m t := by
    intro t m
    exact dropEscape_cons fun slash => absurd slash (delimiter_ne_slash mark)
  unfold unescape
  simp only [isDelimiter, Bool.or_eq_true, beq_iff_eq] at mark
  rcases mark with (rfl | rfl) | rfl
  · rw [dropEscape_mark, slashless, slashless]
  · rw [dropEscape_escaped (by decide) (by decide), dropEscape_mark, slashless]
  · rw [dropEscape_escaped (by decide) (by decide), dropEscape_escaped (by decide) (by decide),
      dropEscape_mark]

/-- What does not escape the first character behind it escapes none that comes to stand there. -/
theorem unescape_cons {c : Char} {r : List Char}
    (loose : c = '\\' → ∀ d ∈ r.head?, isDelimiter d = false) :
    unescape (c :: r) = c :: unescape r := by
  have first : ∀ mark, isDelimiter mark = true → c = '\\' → r.head? ≠ some mark := by
    intro mark delimiter slash here
    have plain := loose slash mark here
    rw [delimiter] at plain
    exact Bool.noConfusion plain
  unfold unescape
  rw [dropEscape_cons (first '[' rfl), dropEscape_cons, dropEscape_cons]
  · intro slash
    apply dropEscape_head?_ne (by decide)
    apply dropEscape_head?_ne (by decide)
    exact first '|' rfl slash
  · intro slash
    apply dropEscape_head?_ne (by decide)
    exact first ']' rfl slash

/-- Of each token the character that it stands for is left. -/
theorem unescape_eq (s : List Char) : unescape s = (tokens s).map Token.value := by
  induction s using token_induction with
  | nil => rfl
  | escaped d r mark ih =>
      rw [tokens_escaped mark, unescape_escaped mark, ih]
      rfl
  | single c r loose ih =>
      rw [tokens_single loose, unescape_cons loose, ih]
      rfl

/-- Of a row of backslashes only the one next to the mark goes. -/
example : unescape "a\\\\[b\\]".toList = "a\\[b]".toList := by decide

/-- The places where a backslash stands in front of `mark`: what is in front of the backslash, and
what is behind the mark. -/
def escapes (mark : Char) : List Char → List (List Char × List Char)
  | [] => []
  | c :: r =>
      let further := (escapes mark r).map fun place => (c :: place.1, place.2)
      if c = '\\' ∧ r.head? = some mark then ([], r.tail) :: further else further

theorem escapes_cons_of_pos {mark c : Char} {r : List Char} (here : c = '\\' ∧ r.head? = some mark) :
    escapes mark (c :: r) =
      ([], r.tail) :: (escapes mark r).map fun place => (c :: place.1, place.2) :=
  if_pos here

theorem escapes_cons_of_neg {mark c : Char} {r : List Char}
    (apart : ¬ (c = '\\' ∧ r.head? = some mark)) :
    escapes mark (c :: r) = (escapes mark r).map fun place => (c :: place.1, place.2) :=
  if_neg apart

/-- Every place is named, and no other. -/
theorem mem_escapes_iff {mark : Char} {s before after : List Char} :
    (before, after) ∈ escapes mark s ↔ s = before ++ '\\' :: mark :: after := by
  induction s generalizing before with
  | nil => simp [escapes]
  | cons c r ih =>
      have further : (before, after) ∈ (escapes mark r).map (fun place => (c :: place.1, place.2)) ↔
          ∃ front, before = c :: front ∧ r = front ++ '\\' :: mark :: after := by
        rw [List.mem_map]
        constructor
        · rintro ⟨⟨front, back⟩, place, same⟩
          obtain ⟨rfl, rfl⟩ := Prod.mk.inj same
          exact ⟨front, rfl, ih.1 place⟩
        · rintro ⟨front, rfl, whole⟩
          exact ⟨(front, after), ih.2 whole, rfl⟩
      rw [List.cons_eq_append_iff, ← further]
      by_cases here : c = '\\' ∧ r.head? = some mark
      · obtain ⟨t, rfl⟩ : ∃ t, r = mark :: t := List.head?_eq_some_iff.1 here.2
        rw [escapes_cons_of_pos here, List.mem_cons]
        simp [here.1, eq_comm]
      · rw [escapes_cons_of_neg here]
        refine ⟨Or.inr, ?_⟩
        rintro (⟨-, whole⟩ | place)
        · obtain ⟨slash, rest⟩ := List.cons.inj whole
          exact absurd ⟨slash.symm, by rw [← rest]; rfl⟩ here
        · exact place

/-- Taking off the escapes of one mark neither makes nor takes away an escape of another. -/
theorem escapes_dropEscape {first second : Char} (other : second ≠ first)
    (plain : first ≠ '\\') (bare : second ≠ '\\') (s : List Char) :
    escapes second (dropEscape first s) =
      (escapes second s).map (Prod.map (dropEscape first) (dropEscape first)) := by
  fun_induction dropEscape first s with
  | case1 => rfl
  | case2 c => simp [escapes]
  | case3 c d r both ih =>
      obtain ⟨rfl, rfl⟩ := both
      have slashless : ∀ t, ¬ (d = '\\' ∧ t = some second) := fun _ both => plain both.1
      have marked : ¬ ('\\' = '\\' ∧ (d :: r).head? = some second) :=
        fun both => other (Option.some.inj both.2).symm
      rw [escapes_cons_of_neg (slashless _), escapes_cons_of_neg marked,
        escapes_cons_of_neg (slashless _), ih, List.map_map, List.map_map, List.map_map]
      apply List.map_congr_left
      intro place _
      simp only [Function.comp_apply, Prod.map, dropEscape_mark]
  | case4 c d r apart ih =>
      -- what stands in front of a further place begins with `d`, which the first mark is not
      have further : (escapes second (dropEscape first (d :: r))).map
            (fun place => (c :: place.1, place.2)) =
          ((escapes second (d :: r)).map fun place => (c :: place.1, place.2)).map
            (Prod.map (dropEscape first) (dropEscape first)) := by
        rw [ih, List.map_map, List.map_map]
        apply List.map_congr_left
        intro place here
        have kept : dropEscape first (c :: place.1) = c :: dropEscape first place.1 := by
          apply dropEscape_cons
          intro slash begins
          have whole := mem_escapes_iff.1 (show (place.1, place.2) ∈ _ from here)
          rw [List.head?_eq_some_iff] at begins
          obtain ⟨t, shape⟩ := begins
          rw [shape, List.cons_append] at whole
          exact apart ⟨slash, (List.cons.inj whole).1⟩
        simp only [Function.comp_apply, Prod.map, kept]
      by_cases here : c = '\\' ∧ (d :: r).head? = some second
      · obtain rfl : d = second := Option.some.inj here.2
        have kept : dropEscape first (d :: r) = d :: dropEscape first r :=
          dropEscape_cons fun slash => absurd slash bare
        rw [escapes_cons_of_pos here, List.map_cons, ← further,
          escapes_cons_of_pos ⟨here.1, by rw [kept]; rfl⟩, kept]
        rfl
      · have gone : ¬ (c = '\\' ∧ (dropEscape first (d :: r)).head? = some second) := by
          intro both
          exact dropEscape_head?_ne other (fun begins => here ⟨both.1, begins⟩) both.2
        rw [escapes_cons_of_neg here, escapes_cons_of_neg gone, further]

/-- A run takes whole tokens, up to the first one that ends runs. -/
theorem cutRun_eq (s : List Char) :
    cutRun s =
      (((tokens s).takeWhile Token.inRun).flatMap Token.written,
        ((tokens s).dropWhile Token.inRun).flatMap Token.written) := by
  induction s using token_induction with
  | nil => rfl
  | escaped d r mark ih =>
      have goes : Token.inRun (.escaped d) = true := rfl
      rw [cutRun_escaped mark, ih, tokens_escaped mark, List.takeWhile_cons_of_pos goes,
        List.dropWhile_cons_of_pos goes]
      rfl
  | single c r loose ih =>
      rw [tokens_single loose]
      cases ends : endsRun c with
      | true =>
          have stops : ¬ Token.inRun (.single c) = true := by simp [Token.inRun, ends]
          rw [cutRun_stop ends, List.takeWhile_cons_of_neg stops, List.dropWhile_cons_of_neg stops,
            List.flatMap_cons, flatMap_written_tokens]
          rfl
      | false =>
          have goes : Token.inRun (.single c) = true := by simp [Token.inRun, ends]
          rw [cutRun_cons ends loose, ih, List.takeWhile_cons_of_pos goes,
            List.dropWhile_cons_of_pos goes]
          rfl

theorem mem_escape {s : List Char} {c : Char} (mem : c ∈ s) : c ∈ escape s := by
  unfold escape escapeBy
  rw [List.mem_flatMap]
  refine ⟨c, mem, ?_⟩
  split <;> simp

end ClassDiagram.Text
