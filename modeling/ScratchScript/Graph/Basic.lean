import ScratchScript.Statement

/-!
# Block graphs

Blocks are kept in the order in which they were made and refer to each other by their places in that order. A graph
grows at its end only; links are set by changing a block in place. Scripts stand on the canvas in one row, a fixed step
apart; coordinates are 32-bit numbers, and a result outside their range becomes the limit that it passes.
-/

namespace ScratchScript

/-- A place on the canvas, in 32-bit coordinates. -/
structure Position where
  x : Int32
  y : Int32
  deriving DecidableEq, Repr

/-- What a slot holds: a text, or the block at a place of the graph. -/
inductive Input
  | literal (literal : Literal)
  | block (target : Nat)
  deriving DecidableEq, Repr

/-- A block and its links. -/
structure Block where
  id : String
  opcode : Opcode
  parent : Option Nat := none
  next : Option Nat := none
  inputs : List (String × Input) := []
  fields : List (String × Field) := []
  shadow : Bool := false
  topLevel : Bool := false
  position : Option Position := none
  deriving DecidableEq, Repr

/-- Sets the entry of a name, in its old place if the name is there and at the end if not. -/
def setEntry (name : String) (input : Input) : List (String × Input) → List (String × Input)
  | [] => [(name, input)]
  | (other, old) :: rest =>
    if other == name then (name, input) :: rest else (other, old) :: setEntry name input rest

namespace Block

def input? (block : Block) (name : String) : Option Input :=
  block.inputs.lookup name

def field? (block : Block) (name : String) : Option Field :=
  block.fields.lookup name

def setInput (block : Block) (name : String) (input : Input) : Block :=
  { block with inputs := setEntry name input block.inputs }

/-- The block for a statement, without links. -/
def ofStatement (id : String) (statement : Statement) : Block where
  id := id
  opcode := statement.opcode
  inputs := statement.literals.map fun (name, literal) => (name, .literal literal)
  fields := statement.fields

end Block

/-- Blocks in the order in which they were made. -/
structure Graph where
  blocks : Array Block := #[]
  deriving DecidableEq, Repr

/-- A reference to a place where there is no block. -/
structure MissingBlock where
  size : Nat
  index : Nat
  deriving DecidableEq, Repr

def MissingBlock.message (missing : MissingBlock) : String :=
  s!"index out of bounds: the len is {missing.size} but the index is {missing.index}"

namespace Graph

def size (graph : Graph) : Nat :=
  graph.blocks.size

def block? (graph : Graph) (index : Nat) : Option Block :=
  graph.blocks[index]?

/-- The block at a place, or the report that there is none. -/
def block (graph : Graph) (index : Nat) : Except MissingBlock Block :=
  match graph.block? index with
  | some block => .ok block
  | none => .error ⟨graph.size, index⟩

def push (graph : Graph) (block : Block) : Graph :=
  ⟨graph.blocks.push block⟩

def append (graph : Graph) (blocks : List Block) : Graph :=
  ⟨graph.blocks ++ blocks⟩

/-- Changes the block at a place, if there is one. -/
def modify (graph : Graph) (index : Nat) (change : Block → Block) : Graph :=
  ⟨graph.blocks.modify index change⟩

/-- Gives the block at each place the id of the place. -/
def relabel (graph : Graph) (label : Nat → String) : Graph :=
  ⟨graph.blocks.mapIdx fun index block => { block with id := label index }⟩

/-- The places of the blocks for which the test holds. -/
def places (graph : Graph) (test : Block → Bool) : List Nat :=
  (graph.blocks.toList.zipIdx.filter fun (block, _) => test block).map (·.2)

def topLevel (graph : Graph) : List Nat :=
  graph.places (·.topLevel)

def withOpcode (graph : Graph) (opcode : Opcode) : List Nat :=
  graph.places fun block => block.opcode == opcode

def usesCategory (graph : Graph) (category : Category) : Bool :=
  graph.blocks.any fun block => block.opcode.category == category

end Graph

/-! ## Layout -/

/-- The 32-bit number nearest to an integer. -/
def saturate (n : Int) : Int32 :=
  if n < -2147483648 then -2147483648
  else if 2147483647 < n then 2147483647
  else Int32.ofInt n

/-- Where scripts are placed. -/
structure Layout where
  xOrigin : Int32 := 30
  xStep : Int32 := 320
  y : Int32 := 30
  deriving DecidableEq, Repr

/-- The place of a script, the scripts counted from 0. -/
def Layout.position (layout : Layout) (script : Nat) : Position where
  x := saturate (layout.xOrigin.toInt + (saturate (layout.xStep.toInt * (saturate script).toInt)).toInt)
  y := layout.y

end ScratchScript
