import ScratchScript.Command.Options
import ScratchScript.Compiled
import ScratchScript.Files.Tree

/-!
# Running the command

`run` reads notation, compiles it, writes the block map if it is asked for, and writes the archive. It works in any
monad with a `Host`, so that one definition serves the program and a model of it on a file tree (`World`). No file is
touched before all that goes into it is known.
-/

namespace ScratchScript.Command

/-- How much a line of the log matters. -/
inductive LogLevel
  | info
  | warning
  deriving DecidableEq, Repr

/-- What the command needs of its surroundings. -/
class Host (m : Type → Type) where
  /-- The text on the standard input, if it is text. -/
  standardInput : m (Option String)
  /-- Whether there is a file of that path. -/
  isFile : Path → m Bool
  /-- The text of a file, if it can be read. -/
  readText : Path → m (Option String)
  /-- Makes a directory and those on the way to it. Says whether it is there. -/
  makeDirectories : Path → m Bool
  /-- Writes a file. Says whether it is written. -/
  write : Path → Contents → m Bool
  /-- Shows the user a line. -/
  tell : String → m Unit
  /-- Notes a line in the log. -/
  log : LogLevel → String → m Unit
  /-- Any seed. -/
  anySeed : m UInt64

/-- Why the command fails. -/
inductive Failure
  | unreadableStandardInput
  | missingInput (path : Path)
  | unreadable (path : Path)
  | uncreatable (path : Path)
  | unwritable (path : Path)
  | project (problem : Project.Problem)
  deriving DecidableEq, Repr

def Failure.message : Failure → String
  | unreadableStandardInput => "Failed to read notation from stdin."
  | missingInput path => s!"Input file not found: '{path.toString}'."
  | unreadable path => s!"Failed to read '{path.toString}'."
  | uncreatable path => s!"Failed to create '{path.toString}'."
  | unwritable path => s!"Failed to write '{path.toString}'."
  | project problem => problem.message

/-! ## Steps -/

variable {m : Type → Type} [Monad m] [Host m]

instance {ε : Type} : Host (ExceptT ε m) where
  standardInput := ExceptT.lift Host.standardInput
  isFile path := ExceptT.lift (Host.isFile path)
  readText path := ExceptT.lift (Host.readText path)
  makeDirectories path := ExceptT.lift (Host.makeDirectories path)
  write path contents := ExceptT.lift (Host.write path contents)
  tell line := ExceptT.lift (Host.tell line)
  log level line := ExceptT.lift (Host.log level line)
  anySeed := ExceptT.lift Host.anySeed

def require (condition : Bool) (failure : Failure) : ExceptT Failure m Unit :=
  if condition then pure () else throw failure

/-- The value, or the failure if there is none. -/
def need {α : Type} (value : Option α) (failure : Failure) : ExceptT Failure m α :=
  match value with
  | some value => pure value
  | none => throw failure

/-- The value, or the problem with the project. -/
def needProject {α : Type} (value : Except Project.Problem α) : ExceptT Failure m α :=
  match value with
  | .ok value => pure value
  | .error problem => throw (.project problem)

def report (progress : Progress) : m Unit :=
  Host.tell progress.line

def readSource (options : Options) : ExceptT Failure m String := do
  if options.readsStandardInput then
    need (← Host.standardInput) .unreadableStandardInput
  else
    require (← Host.isFile options.input) (.missingInput options.input)
    need (← Host.readText options.input) (.unreadable options.input)

def logCompiled (compiled : Compiled) : m Unit := do
  compiled.warnings.forM fun warning => Host.log .warning warning.message
  Host.log .info compiled.summary
  compiled.graph.problems.forM fun problem => Host.log .warning problem.message

/-- Makes the directories on the way to a file. -/
def makeParent (path : Path) : ExceptT Failure m Unit := do
  if let some parent := path.parent? then
    if !parent.isEmpty then
      require (← Host.makeDirectories parent) (.uncreatable parent)

/-- Writes the archive of a project, with the directories on the way to it. -/
def writeArchive (settings : Project.Settings) (graph : Graph) (path : Path)
    (report : Progress → ExceptT Failure m Unit) : ExceptT Failure m Unit := do
  let archive ← needProject (Project.archive settings graph)
  (Project.archiveProgress archive.images.length).forM fun progress => report progress
  makeParent path
  require (← Host.write path (.archive archive)) (.unwritable path)

def writeBlockMap (graph : Graph) (path : Path) : ExceptT Failure m Unit := do
  let blocks ← needProject (Project.checkedBlocks graph)
  require (← Host.write path (.json blocks)) (.unwritable path)

/-- The seed that is given, or any. -/
def chooseSeed (options : Options) : m UInt64 :=
  match options.seed with
  | some seed => pure seed
  | none => Host.anySeed

def announce (options : Options) (compiled : Compiled) : m Unit := do
  logCompiled compiled
  if options.reportSkipped then
    compiled.skipped.forM fun line => Host.tell s!"Skipped line {line.number}: {line.text}"

/-- Writes the block map, if it is asked for. -/
def exportBlockMap (options : Options) (graph : Graph) : ExceptT Failure m Unit := do
  if let some path := options.json then
    report ⟨3, options.stages, "Writing block map"⟩
    writeBlockMap graph path

/-- Writes the archive and says where it is. -/
def exportArchive (options : Options) (graph : Graph) : ExceptT Failure m Unit := do
  report ⟨options.stages, options.stages, "Building .sb3"⟩
  writeArchive options.settings graph options.outputPath fun progress => report (progress.inStage options.stages)
  Host.tell s!"Wrote '{options.outputPath.toString}'."

def run (options : Options) : ExceptT Failure m Unit := do
  report ⟨1, options.stages, "Reading input"⟩
  let source ← readSource options
  report ⟨2, options.stages, "Building block graph"⟩
  let seed ← chooseSeed options
  let compiled := compile options.layout seed source
  announce options compiled
  exportBlockMap options compiled.graph
  exportArchive options compiled.graph

end ScratchScript.Command
