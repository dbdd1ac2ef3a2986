import ClassDiagram.Proofs.Draft.Exits
import ClassDiagram.Proofs.Text.Tokens

set_option autoImplicit false

/-!
Scanners that read one thing after the other for as long as it is there. One that leaves no less
text than it was given would go on for ever, so such a scanner guards itself and fails.
-/
namespace ClassDiagram.Draft.Scan

open Text (isSpace isDelimiter isSeparator endsRun run afterRun escape unescape unescapeOnce
  dropEscape escapes tokens Token)

variable {α : Type}

/-- Reads what `item` reads, as often as it is there. -/
def repeated (item : List Char → Attempt α) (s : List Char) : Attempt (List α) :=
  match item s with
  | .error _ => .ok ([], s)
  | .ok (value, rest) =>
      if _shorter : rest.length < s.length then
        (repeated item rest).andThen fun more left => .ok (value :: more, left)
      else .error ⟨.headway, none, rest⟩
termination_by s.length

/-- Reads what `item` reads, once at least. -/
def repeatedSome (item : List Char → Attempt α) (s : List Char) : Attempt (List α) :=
  (item s).andThen fun first rest =>
    (repeated item rest).andThen fun more left => .ok (first :: more, left)

def token : List Char → Attempt Token
  | [] => .error ⟨.text, none, []⟩
  | [c] => if endsRun c then .error ⟨.text, none, [c]⟩ else .ok (.single c, [])
  | c :: d :: r =>
      if c = '\\' ∧ isDelimiter d = true then .ok (.escaped d, r)
      else if endsRun c then .error ⟨.text, none, c :: d :: r⟩
      else .ok (.single c, d :: r)

/-- A separator with the spaces in front of it. -/
def separator (s : List Char) : Attempt Unit :=
  match s.dropWhile isSpace with
  | [] => .error ⟨.separator, none, []⟩
  | c :: r => if isSeparator c then .ok ((), r) else .error ⟨.separator, none, c :: r⟩

/-- Separators and the spaces around them; tells whether there are any separators. -/
def separators (s : List Char) : Attempt Bool :=
  (repeated separator s).andThen fun found rest => .ok (!found.isEmpty, rest.dropWhile isSpace)

/-- What is read leaves less text than there was. -/
def Productive (item : List Char → Attempt α) : Prop :=
  ∀ {s rest : List Char} {value : α}, item s = .ok (value, rest) → ProperTail rest s

theorem repeated_error {item : List Char → Attempt α} {s : List Char} {failure : Failure}
    (failed : item s = .error failure) : repeated item s = .ok ([], s) := by
  rw [repeated, failed]

theorem repeated_ok {item : List Char → Attempt α} (productive : Productive item)
    {s rest : List Char} {value : α} (read : item s = .ok (value, rest)) :
    repeated item s =
      (repeated item rest).andThen fun more left => .ok (value :: more, left) := by
  rw [repeated, read]
  exact dif_pos (productive read).2

/-- What makes headway is repeated without failing. -/
theorem Productive.exists_repeated {item : List Char → Attempt α} (productive : Productive item)
    (s : List Char) : ∃ values rest, repeated item s = .ok (values, rest) := by
  cases read : item s with
  | error failure => exact ⟨[], s, repeated_error read⟩
  | ok found =>
      obtain ⟨value, rest⟩ := found
      have shorter := (productive read).2
      obtain ⟨more, left, further⟩ := productive.exists_repeated rest
      refine ⟨value :: more, left, ?_⟩
      rw [repeated_ok productive read, further]
      rfl
termination_by s.length

theorem token_productive : Productive token := by
  intro s rest value read
  unfold token at read
  split at read
  · cases read
  · split at read
    · cases read
    · cases read
      exact properTail_cons _ []
  · next c d r =>
      split at read
      · cases read
        exact (properTail_cons d rest).of_suffix (List.suffix_cons c _)
      · split at read
        · cases read
        · cases read
          exact properTail_cons c _

theorem separator_productive : Productive separator := by
  intro s rest value read
  unfold separator at read
  split at read
  · cases read
  · next c r skipped =>
      split at read
      · cases read
        have behind := List.dropWhile_suffix isSpace (l := s)
        rw [skipped] at behind
        exact (properTail_cons c rest).of_suffix behind
      · cases read

theorem token_escaped {d : Char} (mark : isDelimiter d = true) (r : List Char) :
    token ('\\' :: d :: r) = .ok (.escaped d, r) := by
  rw [token, if_pos ⟨rfl, mark⟩]

theorem token_single {c : Char} {r : List Char}
    (loose : c = '\\' → ∀ d ∈ r.head?, isDelimiter d = false) :
    token (c :: r) =
      if endsRun c then .error ⟨.text, none, c :: r⟩ else .ok (.single c, r) := by
  cases r with
  | nil => rfl
  | cons d r => rw [token, if_neg (Text.not_escaping loose)]

theorem repeated_token (s : List Char) :
    repeated token s = .ok ((tokens s).takeWhile Token.inRun, afterRun s) := by
  induction s using Text.token_induction with
  | nil => exact repeated_error rfl
  | escaped d r mark ih =>
      have goes : Token.inRun (.escaped d) = true := rfl
      rw [repeated_ok token_productive (token_escaped mark r), ih, Text.tokens_escaped mark,
        List.takeWhile_cons_of_pos goes, afterRun, afterRun, Text.cutRun_escaped mark]
      rfl
  | single c r loose ih =>
      rw [Text.tokens_single loose]
      cases ends : endsRun c with
      | true =>
          have stops : ¬ Token.inRun (.single c) = true := by simp [Token.inRun, ends]
          have failed := token_single loose
          rw [if_pos ends] at failed
          rw [repeated_error failed, List.takeWhile_cons_of_neg stops, afterRun,
            Text.cutRun_stop ends]
      | false =>
          have goes : Token.inRun (.single c) = true := by simp [Token.inRun, ends]
          have read := token_single loose
          rw [if_neg (by simp [ends])] at read
          rw [repeated_ok token_productive read, ih, List.takeWhile_cons_of_pos goes, afterRun,
            afterRun, Text.cutRun_cons ends loose]
          rfl

theorem run_eq_written (s : List Char) :
    run s = ((tokens s).takeWhile Token.inRun).flatMap Token.written := by
  rw [run, Text.cutRun_eq]

theorem token_error {s : List Char} {failure : Failure} (failed : token s = .error failure) :
    failure = ⟨.text, none, s⟩ := by
  unfold token at failed
  split at failed
  · cases failed
    rfl
  · split at failed
    · cases failed
      rfl
    · cases failed
  · split at failed
    · cases failed
    · split at failed
      · cases failed
        rfl
      · cases failed

/-- The scanner of texts reads tokens, one at least, and hands them on as they are written. -/
theorem text_eq (s : List Char) :
    text s =
      (repeatedSome token s).andThen fun taken rest => .ok (taken.flatMap Token.written, rest) := by
  -- what is read if nothing has to be there is known; what is left to see is whether there is a
  -- first token
  have whole := repeated_token s
  have written := run_eq_written s
  rw [repeatedSome]
  cases read : token s with
  | error failure =>
      rw [repeated_error read] at whole
      injection whole with whole
      injection whole with nothing
      rw [← nothing, List.flatMap_nil] at written
      rw [text, written, token_error read]
      rfl
  | ok found =>
      obtain ⟨first, rest⟩ := found
      rw [repeated_ok token_productive read] at whole
      obtain ⟨more, left, further⟩ := token_productive.exists_repeated rest
      rw [further] at whole
      injection whole with whole
      injection whole with taken behind
      have something : run s ≠ [] := by
        rw [written, ← taken, List.flatMap_cons]
        cases first <;> simp [Token.written]
      rw [text_of_run something, written, ← taken, ← behind]
      simp only [Attempt.andThen, further]

/-- Spaces in front of the separators make no difference. -/
theorem separators_dropWhile_space (s : List Char) :
    separated (s.dropWhile isSpace) = separated s ∧
      skipSeparators (s.dropWhile isSpace) = skipSeparators s := by
  induction s with
  | nil => exact ⟨rfl, rfl⟩
  | cons c r ih =>
      cases space : isSpace c with
      | false =>
          rw [List.dropWhile_cons_of_neg (by simp [space])]
          exact ⟨rfl, rfl⟩
      | true =>
          have skipped : isSlotGap c = true := by simp [isSlotGap, space]
          have single : isSeparator c = false := by
            simp only [isSpace, Bool.or_eq_true, beq_iff_eq] at space
            rcases space with rfl | rfl <;> decide
          rw [List.dropWhile_cons_of_pos space, separated_cons, skipped, single,
            skipSeparators_cons skipped]
          exact ih

theorem repeated_separator (s : List Char) :
    ∃ found rest, repeated separator s = .ok (found, rest) ∧ (!found.isEmpty) = separated s ∧
      rest.dropWhile isSpace = skipSeparators s := by
  obtain ⟨same, left⟩ := separators_dropWhile_space s
  have kept := List.head?_dropWhile_not isSpace s
  rw [← same, ← left]
  cases shape : s.dropWhile isSpace with
  | nil =>
      have failed : separator s = .error ⟨.separator, none, []⟩ := by rw [separator, shape]
      exact ⟨[], s, repeated_error failed, rfl, by rw [shape]; rfl⟩
  | cons c r =>
      rw [shape, List.head?_cons] at kept
      cases single : isSeparator c with
      | true =>
          have read : separator s = .ok ((), r) := by rw [separator, shape]; exact if_pos single
          have shorter := (separator_productive read).2
          obtain ⟨found, rest, further, -, behind⟩ := repeated_separator r
          have skipped : isSlotGap c = true := by simp [isSlotGap, single]
          refine ⟨() :: found, rest, ?_, ?_, ?_⟩
          · rw [repeated_ok separator_productive read, further]
            rfl
          · rw [separated_cons, skipped, single]
            rfl
          · rw [skipSeparators_cons skipped]
            exact behind
      | false =>
          have failed : separator s = .error ⟨.separator, none, c :: r⟩ := by
            rw [separator, shape]
            exact if_neg (by simp [single])
          have gapless : isSlotGap c = false := by
            simp only [isSlotGap, single, Bool.or_false]
            simpa using kept
          refine ⟨[], s, repeated_error failed, ?_, ?_⟩
          · rw [separated_cons, gapless]
            rfl
          · rw [skipSeparators_eq_self gapless, shape]
termination_by s.length

/-- The scanner of separators finds what the readers skip. -/
theorem separators_eq (s : List Char) : separators s = .ok (separated s, skipSeparators s) := by
  obtain ⟨found, rest, read, some, left⟩ := repeated_separator s
  rw [separators, read, ← some, ← left]
  rfl

/-- Nothing is repeated here without headway, and what is repeated comes to an end. -/
structure Unhindered (s : List Char) : Prop where
  token : ∀ value rest, Scan.token s = .ok (value, rest) → ProperTail rest s
  separator : ∀ value rest, Scan.separator s = .ok (value, rest) → ProperTail rest s
  tokens : ∃ values rest, repeated Scan.token s = .ok (values, rest)
  separators : ∃ values rest, repeated Scan.separator s = .ok (values, rest)
  /-- The scanner of texts is this repetition. -/
  text : Scan.text s =
    (repeatedSome Scan.token s).andThen fun taken rest => .ok (taken.flatMap Token.written, rest)
  /-- The separators that are skipped are this repetition. -/
  skipped : Scan.separators s = .ok (separated s, skipSeparators s)

theorem unhindered (s : List Char) : Unhindered s where
  token _ _ := token_productive
  separator _ _ := separator_productive
  tokens := token_productive.exists_repeated s
  separators := separator_productive.exists_repeated s
  text := text_eq s
  skipped := separators_eq s

theorem run_of_text {s taken rest : List Char} (read : text s = .ok (taken, rest)) :
    run s = taken ∧ taken ≠ [] := by
  unfold text at read
  split at read
  · cases read
  · next c r shape =>
      cases read
      exact ⟨shape, List.cons_ne_nil c r⟩

/-- The whole of an escaped text is read at once if there is any text and no separator in it. -/
theorem text_escape_iff (s : List Char) :
    text (escape s) = .ok (escape s, []) ↔ s ≠ [] ∧ ∀ c ∈ s, isSeparator c = false := by
  constructor
  · intro read
    obtain ⟨whole, something⟩ := run_of_text read
    constructor
    · rintro rfl
      exact something rfl
    · intro c mem
      apply Text.isSeparator_of_mem_run (s := escape s)
      rw [whole]
      exact Text.mem_escape mem
  · rintro ⟨something, inside⟩
    have whole : Text.cutRun (escape s ++ []) = (escape s, []) := by
      apply Text.cutRun_escape inside
      · intro c first
        exact absurd first (Option.not_mem_none c)
      · intro _ c first
        exact absurd first (Option.not_mem_none c)
    rw [List.append_nil] at whole
    have all : run (escape s) = escape s := congrArg Prod.fst whole
    have nothing : afterRun (escape s) = [] := congrArg Prod.snd whole
    have read := text_of_run (s := escape s) (by rw [all]; exact Text.escape_ne_nil something)
    rwa [all, nothing] at read

/-- A text is unescaped token by token. -/
structure Tokenwise (s : List Char) : Prop where
  /-- One mark after the other comes to one pass, in which the backslashes in front of brackets and
  bars are dropped. -/
  once : unescape s = unescapeOnce s
  /-- What is dropped are the backslashes of the tokens. -/
  values : unescapeOnce s = (tokens s).map Token.value
  /-- These tokens are read one by one, up to the first that ends runs. -/
  read : repeated token s =
    .ok ((tokens s).takeWhile Token.inRun, ((tokens s).dropWhile Token.inRun).flatMap Token.written)
  /-- So does the scanner of texts, which has to find one at least. -/
  text : Scan.text s =
    (repeatedSome token s).andThen fun taken rest => .ok (taken.flatMap Token.written, rest)
  /-- Where another mark is escaped it stays so, and nowhere else does it become so. -/
  apart : ∀ first second, isDelimiter first = true → isDelimiter second = true → second ≠ first →
    escapes second (dropEscape first s) =
      (escapes second s).map (Prod.map (dropEscape first) (dropEscape first))
  /-- Escaping is undone, whatever backslashes the text has of its own. -/
  undone : unescape (escape s) = s
  /-- An escaped text is one run exactly if there is any text and no separator in it. -/
  whole : Scan.text (escape s) = .ok (escape s, []) ↔ s ≠ [] ∧ ∀ c ∈ s, isSeparator c = false

/-- Taking off the escapes of one mark after the other is one pass over the tokens of the text, which
are those of the scanner, and it undoes escaping. -/
theorem unescape_tokenwise (s : List Char) : Tokenwise s where
  once := by rw [Text.unescape_eq, Text.unescapeOnce_eq]
  values := Text.unescapeOnce_eq s
  read := by
    rw [repeated_token, afterRun, Text.cutRun_eq]
  text := text_eq s
  apart := by
    intro first second marked other apart
    exact Text.escapes_dropEscape apart (Text.delimiter_ne_slash marked)
      (Text.delimiter_ne_slash other) s
  undone := Text.unescape_escape s
  whole := text_escape_iff s

end ClassDiagram.Draft.Scan
