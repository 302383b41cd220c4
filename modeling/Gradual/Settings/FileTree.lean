/-!
Directories and files as they are found. Directories that hold something are there without being
listed.
-/

namespace Gradual

/-- The names of directories from the root of a tree down, and perhaps of a file. -/
abbrev Path := List String

/-- A path and the directories above it, the nearest first. -/
def Path.upwards : Path → List Path
  | [] => [[]]
  | name :: rest => (Path.upwards rest).map (name :: ·) ++ [[]]

inductive FileNode where
  | directory
  /-- A file with its text, if its content is one. -/
  | file (text : Option String)
  deriving DecidableEq, Repr

/-- Why a file cannot be read. -/
inductive ReadError where
  | notFound
  | isDirectory
  /-- Something above the file is not a directory. -/
  | notDirectory
  | notText
  deriving DecidableEq, Repr

def ReadError.message : ReadError → String
  | .notFound => "No such file or directory (os error 2)"
  | .isDirectory => "Is a directory (os error 21)"
  | .notDirectory => "Not a directory (os error 20)"
  | .notText => "stream did not contain valid UTF-8"

structure FileTree where
  /-- How messages refer to the root. -/
  rootName : String
  nodes : List (Path × FileNode)

namespace FileTree

/-- What is found at a path. The latest node that was put there counts. -/
def node? (t : FileTree) (p : Path) : Option FileNode :=
  match t.nodes.reverse.find? (·.1 == p) with
  | some (_, node) => some node
  | none =>
    if p.isEmpty || t.nodes.any (fun (q, _) => p.isPrefixOf q) then some .directory else none

def contains (t : FileTree) (p : Path) : Bool := (t.node? p).isSome

def isFile (t : FileTree) (p : Path) : Bool :=
  match t.node? p with
  | some (.file _) => true
  | _ => false

def read (t : FileTree) (p : Path) : Except ReadError String :=
  match t.node? p with
  | some (.file (some text)) => .ok text
  | some (.file none) => .error .notText
  | some .directory => .error .isDirectory
  | none => .error (if (Path.upwards p).tail.any t.isFile then .notDirectory else .notFound)

/-- A path as messages show it. -/
def pathText (t : FileTree) (p : Path) : String := "/".intercalate (t.rootName :: p)

end FileTree
end Gradual
