import ScratchScript.Files.Path
import ScratchScript.Project.Archive

/-!
# File trees

A tree of directories and files in which paths are looked up. An operation either succeeds or leaves the tree as it is.
-/

namespace ScratchScript

/-- What a file holds. -/
inductive Contents
  /-- Plain bytes. -/
  | bytes (data : ByteArray)
  /-- A JSON value over several lines. -/
  | json (value : Json)
  /-- An archive. -/
  | archive (packed : Archive)

def Contents.toBytes : Contents → ByteArray
  | .bytes data => data
  | .json value => value.pretty.toUTF8
  | .archive packed => packed.bytes.toByteArray

/-- The text of a file, if its bytes are UTF-8. -/
def Contents.text? (contents : Contents) : Option String :=
  String.fromUTF8? contents.toBytes

/-- The names on the way to a file or directory, innermost first. The root has none. -/
abbrev Location := List String

/-- Directories and files, and the directory in which paths start. -/
structure Tree where
  home : Location := []
  directories : List Location := []
  files : List (Location × Contents) := []

/-- Whether a file system can hold the name. -/
def nameFits (name : String) : Bool :=
  name.utf8ByteSize ≤ 255 && !name.toList.contains '\x00'

/-- Whether a file system takes the path. -/
def Path.fits (path : Path) : Bool :=
  path.toString.utf8ByteSize < 4096

namespace Tree

def isDirectory (tree : Tree) (location : Location) : Bool :=
  location.isEmpty || tree.directories.contains location

def file? (tree : Tree) (location : Location) : Option Contents :=
  tree.files.lookup location

def start (tree : Tree) (path : Path) : Location :=
  match path.anchor with
  | .root => []
  | _ => tree.home

/-! ## Looking up -/

/-- The directory that a piece leads to. -/
def enter (tree : Tree) (location : Location) (piece : String) : Option Location :=
  if Path.isIdle piece then some location
  else if piece == ".." then some location.tail
  else if nameFits piece && tree.isDirectory (piece :: location) then some (piece :: location)
  else none

/-- Where a file of that path is or would be: the pieces before the last lead through directories, and the last is
a name. -/
def target? (tree : Tree) (path : Path) : Option Location :=
  match path.pieces.reverse with
  | [] => none
  | name :: outer =>
    if Path.isIdle name || name == ".." || !nameFits name || !path.fits then none
    else (outer.reverse.foldlM tree.enter (tree.start path)).map (name :: ·)

def read? (tree : Tree) (path : Path) : Option Contents :=
  (tree.target? path).bind tree.file?

/-! ## Writing -/

def setFile (tree : Tree) (location : Location) (contents : Contents) : Tree :=
  { tree with files := (location, contents) :: tree.files.filter fun (other, _) => other != location }

/-- Writes the file of that path, which must not be a directory. -/
def write? (tree : Tree) (path : Path) (contents : Contents) : Option Tree :=
  match tree.target? path with
  | some location => if tree.isDirectory location then none else some (tree.setFile location contents)
  | none => none

/-- The directory that a piece leads to, made if it is missing. -/
def enterOrMake (state : Tree × Location) (piece : String) : Option (Tree × Location) :=
  let (tree, location) := state
  match tree.enter location piece with
  | some inner => some (tree, inner)
  | none =>
    let inner := piece :: location
    if nameFits piece && (tree.file? inner).isNone then
      some ({ tree with directories := inner :: tree.directories }, inner)
    else none

/-- Makes the directory of that path and those on the way to it. -/
def makeDirectories? (tree : Tree) (path : Path) : Option Tree :=
  if path.fits then (path.pieces.foldlM enterOrMake (tree, tree.start path)).map (·.1) else none

end Tree

end ScratchScript
