import ScratchScript.Condition.Blocks
import ScratchScript.Condition.Reader
import ScratchScript.Graph.Links
import ScratchScript.Vocabulary.Classify

/-!
# Assembling scripts

`Assembly.feed` adds one line to the scripts assembled so far. Open blocks with a body are kept as a stack of frames,
innermost first:

* a statement goes into the empty slot of the innermost frame, or after the last block, or onto the canvas;
* a hat closes all frames and starts a script;
* a close marker closes the innermost frame, an else marker moves it to its second slot;
* a marker that fits nothing is warned about, a line that means nothing is skipped.
-/

namespace ScratchScript

/-- A slot for a chain of statements. -/
inductive Slot
  | body
  | elseBranch
  deriving DecidableEq, Repr

def Slot.name : Slot → String
  | body => "SUBSTACK"
  | elseBranch => "SUBSTACK2"

/-- An open block with a body: the slot that is being filled, and whether it is still empty. -/
structure Frame where
  owner : Nat
  slot : Slot
  isEmpty : Bool
  deriving DecidableEq, Repr

/-- A marker that fits nothing. -/
inductive Warning
  | strayClose (line : Nat)
  | strayElse (line : Nat)
  | refusedElse (line : Nat) (opcode : Opcode)
  deriving DecidableEq, Repr

def Warning.message : Warning → String
  | strayClose line => s!"Ignoring closing marker on line {line} with nothing open"
  | strayElse line => s!"Ignoring else on line {line} outside any block"
  | refusedElse line opcode => s!"Ignoring else on line {line}: {opcode.name} cannot take it"

/-- Scripts in the making. -/
structure Assembly where
  graph : Graph := {}
  /-- Open blocks, innermost first. -/
  frames : List Frame := []
  /-- The block after which a chain goes on. -/
  last : Option Nat := none
  /-- The number of scripts. -/
  scripts : Nat := 0
  skipped : Array SourceLine := #[]
  warnings : Array Warning := #[]
  deriving DecidableEq, Repr

namespace Assembly

def depth (assembly : Assembly) : Nat :=
  assembly.frames.length

def warn (assembly : Assembly) (warning : Warning) : Assembly :=
  { assembly with warnings := assembly.warnings.push warning }

def skip (assembly : Assembly) (line : SourceLine) : Assembly :=
  { assembly with skipped := assembly.skipped.push line }

/-! ## Markers -/

/-- Closes the innermost frame. The chain goes on after its owner. -/
def close (assembly : Assembly) (line : Nat) : Assembly :=
  match assembly.frames with
  | [] => assembly.warn (.strayClose line)
  | frame :: outer => { assembly with frames := outer, last := some frame.owner }

/-- Moves the innermost frame to its else branch. -/
def enterElse (assembly : Assembly) (line : Nat) : Assembly :=
  match assembly.frames with
  | [] => assembly.warn (.strayElse line)
  | frame :: outer =>
    match assembly.graph.block? frame.owner with
    | none => assembly
    | some owner =>
      if owner.opcode.acceptsElse && frame.slot == .body then
        { assembly with
          graph := assembly.graph.modify frame.owner fun block => { block with opcode := .ifElse }
          frames := { frame with slot := .elseBranch, isEmpty := true } :: outer
          last := none }
      else assembly.warn (.refusedElse line owner.opcode)

/-! ## Statements -/

/-- Where the next statement goes. -/
inductive Place
  /-- Into the empty slot of an open block. -/
  | slot (owner : Nat) (slot : Slot)
  /-- After a block. -/
  | after (previous : Nat)
  /-- Onto the canvas. -/
  | canvas
  deriving DecidableEq, Repr

def place (assembly : Assembly) : Place :=
  match assembly.frames, assembly.last with
  | frame :: _, none => .slot frame.owner frame.slot
  | frame :: _, some previous => if frame.isEmpty then .slot frame.owner frame.slot else .after previous
  | [], some previous => .after previous
  | [], none => .canvas

/-- The frames with the slot of the innermost one filled. -/
def fillSlot : List Frame → List Frame
  | [] => []
  | frame :: outer => { frame with isEmpty := false } :: outer

def addTopLevel (layout : Layout) (assembly : Assembly) (block : Block) : Assembly :=
  { assembly with
    graph := assembly.graph.push
      { block with topLevel := true, position := some (layout.position assembly.scripts) }
    last := some assembly.graph.size
    scripts := assembly.scripts + 1 }

def addInSlot (assembly : Assembly) (owner : Nat) (slot : Slot) (block : Block) : Assembly :=
  let here := assembly.graph.size
  { assembly with
    graph := (assembly.graph.modify owner fun block => block.setInput slot.name (.block here)).push
      { block with parent := some owner }
    frames := fillSlot assembly.frames
    last := some here }

def addAfter (assembly : Assembly) (previous : Nat) (block : Block) : Assembly :=
  let here := assembly.graph.size
  { assembly with
    graph := (assembly.graph.modify previous fun block => { block with next := some here }).push
      { block with parent := (assembly.graph.block? previous).bind (Graph.containerAfter previous) }
    last := some here }

/-- Adds a block where the next statement goes. -/
def addBlock (layout : Layout) (assembly : Assembly) (block : Block) : Assembly :=
  match assembly.place with
  | .slot owner slot => assembly.addInSlot owner slot block
  | .after previous => assembly.addAfter previous block
  | .canvas => assembly.addTopLevel layout block

/-- Adds the blocks of a condition and puts them into the slot of their owner. -/
def addCondition (assembly : Assembly) (owner : Nat) (condition : Condition) : Assembly :=
  match condition with
  | .missing => assembly
  | condition =>
    let here := assembly.graph.size
    { assembly with
      graph := (assembly.graph.modify owner fun block => block.setInput "CONDITION" (.block here)).append
        (condition.blocks owner here) }

def openBody (assembly : Assembly) (owner : Nat) : Assembly :=
  { assembly with frames := ⟨owner, .body, true⟩ :: assembly.frames }

/-- The block for a statement, at the end of the graph. -/
def newBlock (assembly : Assembly) (statement : Statement) : Block :=
  Block.ofStatement (provisionalId assembly.graph.size) statement

def startScript (layout : Layout) (assembly : Assembly) (statement : Statement) : Assembly :=
  addTopLevel layout { assembly with frames := [] } (assembly.newBlock statement)

/-- Adds a statement that is no hat. -/
def addStatement (layout : Layout) (assembly : Assembly) (statement : Statement) : Assembly :=
  let here := assembly.graph.size
  let placed := assembly.addBlock layout (assembly.newBlock statement)
  let wired :=
    match statement.condition with
    | some text => placed.addCondition here (Condition.read text.toList)
    | none => placed
  if statement.opcode.opensBody then wired.openBody here else wired

/-! ## Lines -/

/-- Adds a line. -/
def feed (layout : Layout) (assembly : Assembly) (line : SourceLine) : Assembly :=
  match line.reading with
  | .blank => assembly
  | .marker .close => assembly.close line.number
  | .marker .otherwise => assembly.enterElse line.number
  | .statement statement =>
    if statement.opcode.isHat then assembly.startScript layout statement
    else assembly.addStatement layout statement
  | .unknown => assembly.skip line

def feedAll (layout : Layout) (assembly : Assembly) (lines : List SourceLine) : Assembly :=
  lines.foldl (feed layout) assembly

def ofLines (layout : Layout) (lines : List SourceLine) : Assembly :=
  feedAll layout {} lines

def ofSource (layout : Layout) (source : String) : Assembly :=
  ofLines layout (Source.lines source.toList)

end Assembly

end ScratchScript
