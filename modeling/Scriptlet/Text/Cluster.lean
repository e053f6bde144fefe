/-
What a reader takes for a single character is a cluster of one or more of them:
a letter with its marks, a syllable, a flag, pictures joined to one.  Whether a
character belongs to the cluster before it depends on its class and on a little
of what that cluster holds.  This stands for the behaviour of a library that the
reader of lines rests on; only the command comes to need it.
-/
import Scriptlet.Text.ClusterClass

namespace Scriptlet

/-- How far a cluster ends with something that another character can
complete. -/
inductive Link where
  | absent
  /-- It has begun. -/
  | begun
  /-- It waits for its other side. -/
  | waiting
deriving DecidableEq, Repr

/-- What is known of a cluster when the next character comes. -/
structure ClusterState where
  last : ClusterClass
  /-- Whether it ends with the first half of a flag. -/
  halfFlag : Bool
  picture : Link
  conjunct : Link
deriving DecidableEq, Repr

namespace ClusterState

/-- Before any character. -/
def initial : ClusterState := ⟨.other, false, .absent, .absent⟩

/-- A picture stays open behind its marks, and a joiner makes it wait for
another one. -/
def nextPicture (state : ClusterState) (c : Char) : Link :=
  if pictographs.contains c then .begun
  else
    match state.picture, ClusterClass.ofChar c with
    | .begun, .extend => .begun
    | .begun, .joiner => .waiting
    | _, _ => .absent

/-- A consonant waits for another one once there is a linker behind it; other
marks make no difference, except the one that keeps letters apart. -/
def nextConjunct (state : ClusterState) (c : Char) : Link :=
  if linkedConsonants.contains c then .begun
  else if consonantLinkers.contains c then
    if state.conjunct = .absent then .absent else .waiting
  else if c = '\u200C' then .absent
  else
    match ClusterClass.ofChar c with
    | .extend | .joiner => state.conjunct
    | _ => .absent

/-- What is known once a character has been added. -/
def next (state : ClusterState) (c : Char) : ClusterState where
  last := ClusterClass.ofChar c
  halfFlag := ClusterClass.ofChar c = .regional && !state.halfFlag
  picture := state.nextPicture c
  conjunct := state.nextConjunct c

/-- Whether a character belongs to the cluster. -/
def joins (state : ClusterState) (c : Char) : Bool :=
  match state.last, ClusterClass.ofChar c with
  | .carriageReturn, .lineFeed => true
  | .carriageReturn, _ | .lineFeed, _ | .control, _ => false
  | _, .carriageReturn | _, .lineFeed | _, .control => false
  | _, .extend | _, .joiner | _, .spacing => true
  | .prepended, _ => true
  | .leading, .leading | .leading, .vowel => true
  | .leading, .openSyllable | .leading, .closedSyllable => true
  | .openSyllable, .vowel | .openSyllable, .trailing => true
  | .vowel, .vowel | .vowel, .trailing => true
  | .closedSyllable, .trailing | .trailing, .trailing => true
  | .regional, .regional => state.halfFlag
  | _, _ =>
      (state.picture = .waiting && pictographs.contains c)
        || (state.conjunct = .waiting && linkedConsonants.contains c)

end ClusterState

/-- The clusters of a text of which `current` has been read, last character
first. -/
def clustersFrom (state : ClusterState) (current : List Char) :
    List Char → List (List Char)
  | [] => [current.reverse]
  | c :: rest =>
      if state.joins c then clustersFrom (state.next c) (c :: current) rest
      else
        current.reverse :: clustersFrom (ClusterState.initial.next c) [c] rest

/-- The clusters of a text. -/
def clusters : List Char → List (List Char)
  | [] => []
  | c :: rest => clustersFrom (ClusterState.initial.next c) [c] rest

theorem flatten_clustersFrom (state : ClusterState) (current rest : List Char) :
    (clustersFrom state current rest).flatten = current.reverse ++ rest := by
  induction rest generalizing state current with
  | nil => simp [clustersFrom]
  | cons c rest ih =>
      by_cases h : state.joins c
      · simp [clustersFrom, h, ih]
      · simp [clustersFrom, h, ih]

/-- No character is lost or moved. -/
theorem flatten_clusters (text : List Char) :
    (clusters text).flatten = text := by
  cases text with
  | nil => rfl
  | cons c rest => simp [clusters, flatten_clustersFrom]

end Scriptlet
