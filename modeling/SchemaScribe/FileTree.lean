import SchemaScribe.Text.Join
import SchemaScribe.Text.Quoted

/-! # A tree of files

Directories and text files below one root, and the writing of a file at a path. A path is followed
from the root: every name on the way must be a directory, and the last one a file or nothing. Of
what the root is in nothing is known but the files that are written there. Whatever else may go
wrong with a write is a mishap of its path.
-/
namespace SchemaScribe

abbrev Place := List String

/-- A write that is refused or breaks off: the failure, and the text that the file has afterwards
unless it is the old one. -/
structure Mishap where
  kind : String
  message : String
  left : Option String := none
deriving DecidableEq, Repr

/-- The directories below the root, the files with their texts, and the paths at which a write goes
wrong. -/
structure FileTree where
  directories : List Place := []
  files : List (Place × String) := []
  mishaps : List (String × Mishap) := []
deriving Inhabited, Repr

inductive FileFault where
  | notFound
  | notADirectory
  | isADirectory
  | nameTooLong
deriving DecidableEq, Repr

namespace FileFault

def number : FileFault → Nat
  | .notFound => 2
  | .notADirectory => 20
  | .isADirectory => 21
  | .nameTooLong => 36

def text : FileFault → String
  | .notFound => "No such file or directory"
  | .notADirectory => "Not a directory"
  | .isADirectory => "Is a directory"
  | .nameTooLong => "File name too long"

def message (fault : FileFault) (path : String) : String :=
  "[Errno " ++ toString fault.number ++ "] " ++ fault.text ++ ": " ++ Text.quote path

/-- The name of the failure of the file system that a fault stands for. -/
def kindName : FileFault → String
  | .notFound => "FileNotFoundError"
  | .notADirectory => "NotADirectoryError"
  | .isADirectory => "IsADirectoryError"
  | .nameTooLong => "OSError"

end FileFault

/-- Why a text is not written: the path leads to no place for a file, or the write has a mishap. -/
inductive WriteFault where
  | path (fault : FileFault)
  | mishap (kind message : String)
deriving DecidableEq, Repr

namespace WriteFault

def kindName : WriteFault → String
  | .path fault => fault.kindName
  | .mishap kind _ => kind

def message (fault : WriteFault) (path : String) : String :=
  match fault with
  | .path fault => fault.message path
  | .mishap _ message => message

end WriteFault

namespace FileTree

/-- The most octets that a name may have. -/
def nameLimit : Nat := 255

/-- The first number of octets that is too many for a path. -/
def pathLimit : Nat := 4096

def octetCount (s : String) : Nat := s.utf8ByteSize

/-- Is the place the root, or one of the directories that it is in? -/
def isAncestor (place : Place) : Bool := place.all (· == "..")

def hasDirectory (tree : FileTree) (place : Place) : Bool :=
  isAncestor place || tree.directories.contains place

def hasFile (tree : FileTree) (place : Place) : Bool := tree.files.any (·.1 == place)

def read? (tree : FileTree) (place : Place) : Option String := tree.files.lookup place

def enter (tree : FileTree) (place : Place) (name : String) : Except FileFault Place :=
  if name = "" ∨ name = "." then .ok place
  else if name = ".." then .ok (if isAncestor place then place ++ [name] else place.dropLast)
  else if nameLimit < octetCount name then .error .nameTooLong
  else
    let next := place ++ [name]
    if tree.hasDirectory next then .ok next
    else if tree.hasFile next then .error .notADirectory
    else .error .notFound

/-- The place of a file that can be written in a directory under a name. -/
def target (tree : FileTree) (place : Place) (name : String) : Except FileFault Place :=
  if name = "." ∨ name = ".." then .error .isADirectory
  else if nameLimit < octetCount name then .error .nameTooLong
  else if tree.hasDirectory (place ++ [name]) then .error .isADirectory
  else .ok (place ++ [name])

def splitPath (path : String) : List String × Bool :=
  let names := (path.toList.splitOn '/').map String.ofList
  let kept := (names.reverse.dropWhile (· == "")).reverse
  (kept, kept.length < names.length)

/-- The place that a path leads to, where a file can be written. -/
def resolve (tree : FileTree) (path : String) : Except FileFault Place :=
  if path = "" then .error .notFound
  else if pathLimit ≤ octetCount path then .error .nameTooLong
  else
    let (names, closed) := splitPath path
    match names.getLast? with
    | none => .error .isADirectory
    | some last => do
      let place ← names.dropLast.foldlM (enter tree) []
      if closed then .error .isADirectory else target tree place last

/-- Puts a text at a place: the file there has that text, whatever it held before. -/
def put (place : Place) (text : String) : List (Place × String) → List (Place × String)
  | [] => [(place, text)]
  | (p, t) :: rest => if p = place then (place, text) :: rest else (p, t) :: put place text rest

/-- The tree after a mishap at a path. -/
def afterMishap (tree : FileTree) (path : String) (mishap : Mishap) : FileTree :=
  match mishap.left, tree.resolve path with
  | some text, .ok place => { tree with files := put place text tree.files }
  | _, _ => tree

/-- Writes a text to the file at a path. -/
def write (tree : FileTree) (path text : String) : Except WriteFault Unit × FileTree :=
  match tree.mishaps.lookup path with
  | some mishap =>
    (.error (.mishap mishap.kind mishap.message), tree.afterMishap path mishap)
  | none =>
    match tree.resolve path with
    | .error fault => (.error (.path fault), tree)
    | .ok place => (.ok (), { tree with files := put place text tree.files })

/-- Opens the file at a path and closes it again: what text it had is gone. A mishap counts where it
comes before the file is open. -/
def clear (tree : FileTree) (path : String) : Except WriteFault Unit × FileTree :=
  match (tree.mishaps.lookup path).filter (·.left.isNone) with
  | some mishap => (.error (.mishap mishap.kind mishap.message), tree)
  | none =>
    match tree.resolve path with
    | .error fault => (.error (.path fault), tree)
    | .ok place => (.ok (), { tree with files := put place "" tree.files })

theorem lookup_put (place other : Place) (text : String) (files : List (Place × String)) :
    (put place text files).lookup other =
      if other = place then some text else files.lookup other := by
  induction files with
  | nil =>
    by_cases h : other = place
    · simp [put, h]
    · simp [put, List.lookup_cons, h, beq_eq_false_iff_ne.2 h]
  | cons file rest ih =>
    obtain ⟨p, t⟩ := file
    by_cases hp : p = place
    · subst hp
      by_cases h : other = p
      · simp [put, h]
      · simp [put, List.lookup_cons, h, beq_eq_false_iff_ne.2 h]
    · by_cases h : other = p
      · subst h
        simp [put, hp]
      · simp [put, List.lookup_cons, hp, beq_eq_false_iff_ne.2 h, ih]

/-- A text that is written at the path goes to a file at the place. -/
structure Writable (tree : FileTree) (path : String) (place : Place) : Prop where
  unhindered : tree.mishaps.lookup path = none
  resolved : tree.resolve path = .ok place

theorem write_eq_ok {tree after : FileTree} {path text : String} :
    tree.write path text = (.ok (), after) ↔
      ∃ place, tree.Writable path place ∧
        after = { tree with files := put place text tree.files } := by
  unfold write
  constructor
  · intro h
    split at h
    · simp at h
    next hm =>
      split at h
      · simp at h
      next place hp =>
        simp only [Prod.mk.injEq, true_and] at h
        exact ⟨place, ⟨hm, hp⟩, h.symm⟩
  · rintro ⟨place, ⟨hm, hp⟩, rfl⟩
    rw [hm, hp]

/-- Of all files the one that is written changes alone. -/
theorem read?_put (tree : FileTree) (place other : Place) (text : String) :
    { tree with files := put place text tree.files : FileTree }.read? other =
      if other = place then some text else tree.read? other :=
  lookup_put place other text tree.files

/-- Adds a directory, and those that it is in. -/
def addDirectory (tree : FileTree) (place : Place) : FileTree :=
  { tree with directories := tree.directories ++
      (List.range place.length).map fun i => place.take (i + 1) }

def addFile (tree : FileTree) (place : Place) (text : String) : FileTree :=
  let tree := tree.addDirectory place.dropLast
  { tree with files := put place text tree.files }

/-- A tree of the directories and files at paths from the root. -/
def ofPaths (directories : List String) (files : List (String × String)) : FileTree :=
  let tree := directories.foldl (fun tree path => tree.addDirectory (splitPath path).1) {}
  files.foldl (fun tree (path, text) => tree.addFile (splitPath path).1 text) tree

/-- The paths of the files below the root with their texts. -/
def listing (tree : FileTree) : List (String × String) :=
  (tree.files.filter fun file => file.1.head? != some "..").map fun (place, text) =>
    (Text.joinWith "/" place, text)

end FileTree
end SchemaScribe
