/-!
# Paths

A path is kept as it was given: where it starts, and what stands between its separators. `Path.ofString` and
`Path.toString` keep every character, so that messages show a path as the user wrote it.
-/

namespace ScratchScript

/-- Where a path starts. -/
inductive Anchor
  /-- In the working directory. -/
  | none
  /-- In the working directory, said by a leading dot. -/
  | here
  /-- In the root of the tree. -/
  | root
  deriving DecidableEq, Repr

/-- A path: where it starts, and the pieces between its separators. -/
structure Path where
  anchor : Anchor
  pieces : List String
  deriving DecidableEq, Repr

namespace Path

/-- The pieces between separators. There is always one. -/
def splitPieces : List Char → List (List Char)
  | [] => [[]]
  | c :: rest =>
    if c == '/' then [] :: splitPieces rest
    else
      match splitPieces rest with
      | [] => [[c]]
      | piece :: pieces => (c :: piece) :: pieces

def ofString (text : String) : Path :=
  match (splitPieces text.toList).map String.ofList with
  | [] => ⟨.none, []⟩
  | first :: rest =>
    if first == "" && !rest.isEmpty then ⟨.root, rest⟩
    else if first == "." then ⟨.here, rest⟩
    else ⟨.none, first :: rest⟩

def toString (path : Path) : String :=
  match path.anchor with
  | .none => "/".intercalate path.pieces
  | .here => "/".intercalate ("." :: path.pieces)
  | .root => "/" ++ "/".intercalate path.pieces

/-- A piece that leads nowhere. -/
def isIdle (piece : String) : Bool :=
  piece == "" || piece == "."

/-- The pieces from the last on, the idle ones at the end left out. -/
def reversedPieces (path : Path) : List String :=
  path.pieces.reverse.dropWhile isIdle

/-- The path to the directory that holds the last piece. -/
def parent? (path : Path) : Option Path :=
  match path.reversedPieces with
  | _ :: outer => some { path with pieces := (outer.dropWhile isIdle).reverse }
  | [] => if path.anchor == .here then some ⟨.none, []⟩ else none

/-- The name that the path ends in. -/
def fileName? (path : Path) : Option String :=
  match path.reversedPieces with
  | name :: _ => if name == ".." then none else some name
  | [] => none

/-- Parts a name at its last dot, unless the name starts with this dot. -/
def splitExtension (name : List Char) : List Char × Option (List Char) :=
  let ending := (name.reverse.takeWhile (· != '.')).reverse
  let stem := name.take (name.length - ending.length - 1)
  if stem.isEmpty then (name, none) else (stem, some ending)

/-- Gives the name that the path ends in another extension, if there is such a name. -/
def replaceExtension (path : Path) (ending : String) : Path :=
  match path.reversedPieces with
  | [] => path
  | name :: outer =>
    if name == ".." then path else
      let stem := String.ofList (splitExtension name.toList).1
      { path with pieces := ((stem ++ "." ++ ending) :: outer).reverse }

def dropEnd (path : Path) (count : Nat) : Path :=
  let text := path.toString.toList
  ofString (String.ofList (text.take (text.length - count)))

/-- The path with another extension. As many characters as the old extension has are cut off first, and what is left
may end in no name. -/
def withExtension (path : Path) (ending : String) : Path :=
  match path.fileName?.bind fun name => (splitExtension name.toList).2 with
  | some old => (path.dropEnd old.length).replaceExtension ending
  | none => path.replaceExtension ending

def isEmpty (path : Path) : Bool :=
  path.toString.isEmpty

end Path

end ScratchScript
