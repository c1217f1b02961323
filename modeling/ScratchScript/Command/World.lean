import ScratchScript.Command.Run

/-!
# The command on a file tree

A host without effects: a file tree, the bytes on the standard input, and everything that the command has shown and
noted. Any request may be refused, as where a disk is full, and what is refused changes nothing.
-/

namespace ScratchScript.Command

/-- What the command asks of its surroundings and may be refused. -/
inductive Request
  | standardInput
  | isFile (path : Path)
  | readText (path : Path)
  | makeDirectories (path : Path)
  | write (path : Path) (contents : Contents)

/-- The surroundings of the command. -/
structure World where
  tree : Tree := {}
  standardInput : ByteArray := .empty
  /-- The seed to take where none is given. -/
  seed : UInt64 := 0
  /-- The requests that are refused, whatever the tree is like. -/
  refuses : Request → Bool := fun _ => false
  /-- The lines shown to the user. -/
  shown : Array String := #[]
  /-- The lines of the log. -/
  log : Array String := #[]

namespace World

/-- The answer to a request, unless it is refused. -/
def granted {α : Type} (world : World) (request : Request) (answer : Option α) : Option α :=
  if world.refuses request then none else answer

def standardText? (world : World) : Option String :=
  world.granted .standardInput (String.fromUTF8? world.standardInput)

def find? (world : World) (path : Path) : Option Contents :=
  world.granted (.isFile path) (world.tree.read? path)

def readText? (world : World) (path : Path) : Option String :=
  world.granted (.readText path) ((world.tree.read? path).bind Contents.text?)

def makeDirectories? (world : World) (path : Path) : Option Tree :=
  world.granted (.makeDirectories path) (world.tree.makeDirectories? path)

def write? (world : World) (path : Path) (contents : Contents) : Option Tree :=
  world.granted (.write path contents) (world.tree.write? path contents)

/-- Replaces the tree, if there is a new one. Says whether there is. -/
def replaceTree (world : World) : Option Tree → Bool × World
  | some tree => (true, { world with tree })
  | none => (false, world)

instance : Host (StateM World) where
  standardInput := do return (← get).standardText?
  isFile path := do return ((← get).find? path).isSome
  readText path := do return (← get).readText? path
  makeDirectories path := modifyGet fun world => world.replaceTree (world.makeDirectories? path)
  write path contents := modifyGet fun world => world.replaceTree (world.write? path contents)
  tell line := modify fun world => { world with shown := world.shown.push line }
  log _ line := modify fun world => { world with log := world.log.push line }
  anySeed := do return (← get).seed

end World

def readIn (world : World) (options : Options) : Except Failure String × World :=
  (readSource options : ExceptT Failure (StateM World) String).run.run world

def runIn (world : World) (options : Options) : Except Failure Unit × World :=
  (run options : ExceptT Failure (StateM World) Unit).run.run world

def writeArchiveIn (world : World) (settings : Project.Settings) (graph : Graph) (path : Path) :
    Except Failure Unit × World :=
  (writeArchive settings graph path fun _ => pure () : ExceptT Failure (StateM World) Unit).run.run world

end ScratchScript.Command
