set_option autoImplicit false

namespace ClassDiagram

/-- A word that is none of the keywords of its kind. -/
structure UnknownKeyword where
  kind : String
  value : String
deriving DecidableEq, Repr

def UnknownKeyword.message (unknown : UnknownKeyword) : String :=
  "unknown " ++ unknown.kind ++ " `" ++ unknown.value ++ "`"

/-- The keywords of one kind and what each of them means. -/
structure Vocabulary (α : Type) where
  kind : String
  words : List (String × α)

/-- What a word means; the match is exact. -/
def Vocabulary.read {α : Type} (vocabulary : Vocabulary α) (word : String) :
    Except UnknownKeyword α :=
  match vocabulary.words.lookup word with
  | some meaning => .ok meaning
  | none => .error ⟨vocabulary.kind, word⟩

def Vocabulary.read? {α : Type} (vocabulary : Vocabulary α) (word : String) : Option α :=
  vocabulary.words.lookup word

/-- Where a diagram grows. -/
inductive Direction where
  | topToBottom
  | leftToRight
deriving DecidableEq, Repr

def Direction.name : Direction → String
  | .topToBottom => "TB"
  | .leftToRight => "LR"

def Direction.vocabulary : Vocabulary Direction :=
  ⟨"direction", [("down", .topToBottom), ("right", .leftToRight)]⟩

/-- How ranks are assigned to the classifiers. -/
inductive Ranker where
  | networkSimplex
  | tightTree
  | longestPath
deriving DecidableEq, Repr

def Ranker.name : Ranker → String
  | .networkSimplex => "network-simplex"
  | .tightTree => "tight-tree"
  | .longestPath => "longest-path"

def Ranker.vocabulary : Vocabulary Ranker :=
  ⟨"ranker", [.networkSimplex, .tightTree, .longestPath].map fun ranker => (ranker.name, ranker)⟩

/-- How the corners of edges are drawn. -/
inductive EdgeStyle where
  | hard
  | rounded
deriving DecidableEq, Repr

def EdgeStyle.name : EdgeStyle → String
  | .hard => "hard"
  | .rounded => "rounded"

def EdgeStyle.vocabulary : Vocabulary EdgeStyle :=
  ⟨"edges", [.hard, .rounded].map fun edges => (edges.name, edges)⟩

/-- How cycles are broken before ranks are assigned. -/
inductive Acyclicer where
  | greedy
deriving DecidableEq, Repr

def Acyclicer.name : Acyclicer → String
  | .greedy => "greedy"

def Acyclicer.vocabulary : Vocabulary Acyclicer :=
  ⟨"acyclicer", [.greedy].map fun acyclicer => (acyclicer.name, acyclicer)⟩

/-- The shape in which a classifier is drawn. -/
inductive Visual where
  | actor | classBox | database | ellipse | endPoint | frame | hidden | input | lollipop
  | noShape | note | package | pipe | receiver | rhomb | roundrect | sender | socket
  | startPoint | sync | table | transceiver
deriving DecidableEq, Repr

namespace Visual

def all : List Visual :=
  [.actor, .classBox, .database, .ellipse, .endPoint, .frame, .hidden, .input, .lollipop,
    .noShape, .note, .package, .pipe, .receiver, .rhomb, .roundrect, .sender, .socket,
    .startPoint, .sync, .table, .transceiver]

def name : Visual → String
  | .actor => "actor"
  | .classBox => "class"
  | .database => "database"
  | .ellipse => "ellipse"
  | .endPoint => "end"
  | .frame => "frame"
  | .hidden => "hidden"
  | .input => "input"
  | .lollipop => "lollipop"
  | .noShape => "none"
  | .note => "note"
  | .package => "package"
  | .pipe => "pipe"
  | .receiver => "receiver"
  | .rhomb => "rhomb"
  | .roundrect => "roundrect"
  | .sender => "sender"
  | .socket => "socket"
  | .startPoint => "start"
  | .sync => "sync"
  | .table => "table"
  | .transceiver => "transceiver"

def vocabulary : Vocabulary Visual := ⟨"visual", all.map fun visual => (visual.name, visual)⟩

theorem read?_name (visual : Visual) : vocabulary.read? visual.name = some visual := by
  cases visual <;> decide

end Visual

theorem Ranker.read?_name (ranker : Ranker) : vocabulary.read? ranker.name = some ranker := by
  cases ranker <;> decide

theorem EdgeStyle.read?_name (edges : EdgeStyle) :
    vocabulary.read? edges.name = some edges := by
  cases edges <;> decide

theorem Acyclicer.read?_name (acyclicer : Acyclicer) :
    vocabulary.read? acyclicer.name = some acyclicer := by
  cases acyclicer; decide

end ClassDiagram
