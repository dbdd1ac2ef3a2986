import ClassDiagram.Text.Pieces
set_option autoImplicit false

namespace ClassDiagram.Command

inductive FileError where
  | notFound
  | notDirectory
  | isDirectory
  | nameTooLong
  | zeroInName
  | notText
  /-- A reason that only the system at hand knows. -/
  | other (text : String)
deriving DecidableEq, Repr

def FileError.message : FileError → String
  | .notFound => "No such file or directory (os error 2)"
  | .notDirectory => "Not a directory (os error 20)"
  | .isDirectory => "Is a directory (os error 21)"
  | .nameTooLong => "File name too long (os error 36)"
  | .zeroInName => "file name contained an unexpected NUL byte"
  | .notText => "stream did not contain valid UTF-8"
  | .other text => text

/-- What a command needs of a file system. -/
structure FileAccess (m : Type → Type) where
  present : String → m Bool
  readText : String → m (Except FileError String)
  writeText : String → String → m (Except FileError Unit)

/-- The names that lead to a place from the root of a tree. -/
abbrev Place := List String

/-- What stands at a place. -/
inductive Node where
  | file (bytes : ByteArray)
  | folder

/-- A tree of folders and files, and the folder from which paths start. -/
structure FileTree where
  here : Place
  node? : Place → Option Node

namespace FileTree

/-- Names have at most so many bytes. -/
def nameLimit : Nat := 255

/-- Paths have fewer bytes than this. -/
def pathLimit : Nat := 4096

def step (tree : FileTree) (place : Place) (name : String) : Except FileError Place :=
  match tree.node? place with
  | none => .error .notFound
  | some (.file _) => .error .notDirectory
  | some .folder =>
      if name = "" ∨ name = "." then .ok place
      else if name = ".." then .ok place.dropLast
      else if nameLimit < name.utf8ByteSize then .error .nameTooLong
      else .ok (place ++ [name])

/-- The place to which names lead, one after the other. The last place need not exist. -/
def walk (tree : FileTree) (place : Place) : List String → Except FileError Place
  | [] => .ok place
  | name :: rest =>
      match tree.step place name with
      | .error reason => .error reason
      | .ok next => tree.walk next rest

/-- The folder from which a path starts and the names in it, unless it cannot be a path. -/
def parse (tree : FileTree) (path : String) : Except FileError (Place × List String) :=
  let names := (Text.pieces '/' path.toList).map String.ofList
  if path.toList.contains '\x00' then .error .zeroInName
  else if path = "" then .error .notFound
  else if pathLimit ≤ path.utf8ByteSize then .error .nameTooLong
  else .ok (if path.toList.head? = some '/' then [] else tree.here, names)

def find (tree : FileTree) (path : String) : Except FileError Node :=
  match tree.parse path with
  | .error reason => .error reason
  | .ok (start, names) =>
      match tree.walk start names with
      | .error reason => .error reason
      | .ok place =>
          match tree.node? place with
          | none => .error .notFound
          | some node => .ok node

def readText (tree : FileTree) (path : String) : Except FileError String :=
  match tree.find path with
  | .error reason => .error reason
  | .ok .folder => .error .isDirectory
  | .ok (.file bytes) =>
      match String.fromUTF8? bytes with
      | none => .error .notText
      | some text => .ok text

/-- The place of the file that a write to a path creates or replaces. A path that ends in a slash or
in dots names a folder, and what the file stands in has to be one. -/
def target (tree : FileTree) (path : String) : Except FileError Place :=
  match tree.parse path with
  | .error reason => .error reason
  | .ok (start, names) =>
      match names.reverse.dropWhile fun name => name == "" with
      | [] => .error .isDirectory
      | last :: before =>
          match tree.walk start (before.reverse ++ ["."]) with
          | .error reason => .error reason
          | .ok folder =>
              if names.getLast? = some "" ∨ last = "." ∨ last = ".." then .error .isDirectory
              else
                match tree.step folder last with
                | .error reason => .error reason
                | .ok place =>
                    match tree.node? place with
                    | some .folder => .error .isDirectory
                    | _ => .ok place

def put (tree : FileTree) (place : Place) (bytes : ByteArray) : FileTree :=
  { tree with node? := fun other => if other = place then some (.file bytes) else tree.node? other }

/-- Writes a file, replacing the one that was there. -/
def writeText (tree : FileTree) (path : String) (text : String) : Except FileError FileTree :=
  (tree.target path).map fun place => tree.put place text.toUTF8

def present (tree : FileTree) (path : String) : Bool :=
  match tree.find path with
  | .ok _ => true
  | .error _ => false

/-- A tree as a file system: reading leaves it as it is, and so does a write that fails. -/
def access : FileAccess (StateM FileTree) where
  present path := fun tree => (tree.present path, tree)
  readText path := fun tree => (tree.readText path, tree)
  writeText path text := fun tree =>
    match tree.writeText path text with
    | .error reason => (.error reason, tree)
    | .ok next => (.ok (), next)

/-- The tree with a file at a place and all the folders on the way to it. -/
def addFile (tree : FileTree) (place : Place) (bytes : ByteArray) : FileTree :=
  let folders : FileTree :=
    { tree with
      node? := fun other =>
        if other.isPrefixOf place && other != place then some .folder else tree.node? other }
  folders.put place bytes

/-- A tree with nothing but the folder from which paths start. -/
def bare (here : Place) : FileTree :=
  ⟨here, fun place => if place.isPrefixOf here then some .folder else none⟩

@[simp] theorem put_node?_self (tree : FileTree) (place : Place) (bytes : ByteArray) :
    (tree.put place bytes).node? place = some (.file bytes) := by
  simp [put]

theorem put_node?_of_ne (tree : FileTree) {place other : Place} (h : other ≠ place)
    (bytes : ByteArray) : (tree.put place bytes).node? other = tree.node? other := by
  simp [put, h]

/-- A step from one place does not look at what stands anywhere else. -/
theorem step_put {tree : FileTree} {place current next : Place} {name : String}
    (hp : tree.node? place ≠ some .folder) (bytes : ByteArray)
    (h : tree.step current name = .ok next) :
    (tree.put place bytes).step current name = .ok next := by
  by_cases hc : current = place
  · subst hc
    unfold step at h
    split at h <;> simp_all
  · simpa only [step, put_node?_of_ne tree hc bytes] using h

/-- What leads somewhere still leads there when another file is written, as only folders are passed
on the way. -/
theorem walk_put {tree : FileTree} {place last : Place} (hp : tree.node? place ≠ some .folder)
    (bytes : ByteArray) (current : Place) (names : List String)
    (h : tree.walk current names = .ok last) :
    (tree.put place bytes).walk current names = .ok last := by
  induction names generalizing current with
  | nil => exact h
  | cons name rest ih =>
      unfold walk at h ⊢
      split at h
      · simp at h
      · next next hs =>
          rw [step_put hp bytes hs]
          exact ih next h

/-- A point at the end of a path leads nowhere else. -/
theorem walk_of_walk_point {tree : FileTree} {current last : Place} {names : List String}
    (h : tree.walk current (names ++ ["."]) = .ok last) : tree.walk current names = .ok last := by
  induction names generalizing current with
  | nil =>
      simp only [List.nil_append, walk, step] at h ⊢
      cases hn : tree.node? current with
      | none => simp [hn] at h
      | some node => cases node <;> simp_all
  | cons name rest ih =>
      simp only [List.cons_append, walk] at h ⊢
      split at h
      · simp at h
      · next next hs => exact ih h

theorem walk_concat {tree : FileTree} {current middle last : Place} {names : List String}
    {name : String} (h : tree.walk current names = .ok middle)
    (hs : tree.step middle name = .ok last) :
    tree.walk current (names ++ [name]) = .ok last := by
  induction names generalizing current with
  | nil =>
      simp only [walk, Except.ok.injEq] at h
      simp [walk, h, hs]
  | cons first rest ih =>
      simp only [List.cons_append, walk] at h ⊢
      split at h
      · simp at h
      · exact ih h

/-- A write goes where the path leads, and not to a folder. -/
theorem target_eq_ok {tree : FileTree} {path : String} {place : Place}
    (h : tree.target path = .ok place) :
    tree.node? place ≠ some .folder ∧
      ∃ start names, tree.parse path = .ok (start, names) ∧ tree.walk start names = .ok place := by
  unfold target at h
  split at h
  · simp at h
  · next start names hp =>
      split at h
      · simp at h
      · next last before hd =>
          split at h
          · simp at h
          · next folder hf =>
              split at h
              · simp at h
              · next hlast =>
                  have hnames : names = before.reverse ++ [last] := by
                    simp only [not_or] at hlast
                    cases hr : names.reverse with
                    | nil => simp [hr] at hd
                    | cons final rest =>
                        have hfinal : (final == "") = false := by
                          have : names.getLast? = some final := by
                            rw [← List.head?_reverse, hr]; rfl
                          simpa [this] using hlast.1
                        rw [hr, List.dropWhile_cons, hfinal, if_neg Bool.false_ne_true] at hd
                        rw [← List.reverse_reverse names, hr, hd, List.reverse_cons]
                  split at h
                  · simp at h
                  · next there hs =>
                      have hwalk := walk_concat (walk_of_walk_point hf) hs
                      rw [← hnames] at hwalk
                      split at h
                      · simp at h
                      · next hne =>
                          simp only [Except.ok.injEq] at h
                          subst h
                          exact ⟨hne, start, names, hp, hwalk⟩

/-- What is written is read back from the same path. -/
theorem readText_of_writeText {tree after : FileTree} {path text : String}
    (h : tree.writeText path text = .ok after) : after.readText path = .ok text := by
  unfold writeText at h
  cases ht : tree.target path with
  | error reason => simp [ht, Except.map] at h
  | ok place =>
      simp only [ht, Except.map, Except.ok.injEq] at h
      obtain ⟨hne, start, names, hp, hw⟩ := target_eq_ok ht
      have hwalk := walk_put hne text.toUTF8 start names hw
      have hparse : (tree.put place text.toUTF8).parse path = .ok (start, names) := hp
      have hfind : (tree.put place text.toUTF8).find path = .ok (.file text.toUTF8) := by
        simp only [find, hparse, hwalk, put_node?_self]
      have hread : String.fromUTF8? text.toUTF8 = some text := by
        have valid : text.toUTF8.IsValidUTF8 := text.isValidUTF8
        rw [String.fromUTF8?, dif_pos valid]
        rfl
      rw [← h]
      simp only [readText, hfind, hread]

@[simp] theorem access_present_run (tree : FileTree) (path : String) :
    (access.present path).run tree = pure (tree.present path, tree) := rfl

@[simp] theorem access_readText_run (tree : FileTree) (path : String) :
    (access.readText path).run tree = pure (tree.readText path, tree) := rfl

/-- A write that fails changes nothing. -/
theorem access_writeText_run_of_error {tree : FileTree} {path text : String} {reason : FileError}
    (h : tree.target path = .error reason) :
    (access.writeText path text).run tree = pure (.error reason, tree) := by
  simp [access, StateT.run, writeText, h, Except.map, pure]

/-- A write that succeeds changes one place. -/
theorem access_writeText_run_of_ok {tree : FileTree} {path text : String} {place : Place}
    (h : tree.target path = .ok place) :
    (access.writeText path text).run tree = pure (.ok (), tree.put place text.toUTF8) := by
  simp [access, StateT.run, writeText, h, Except.map, pure]

end FileTree
end ClassDiagram.Command
