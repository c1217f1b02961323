import ScratchScript.Graph.Basic

/-!
# Link problems

`Graph.problems` lists everything that is wrong with the ids and links of a graph, block by block. A hat is the
container of the chain below it; blocks chained after a top-level block that is no hat share its missing parent.
-/

namespace ScratchScript

/-- Something wrong with an id or a link. -/
inductive LinkProblem
  /-- Two blocks have one id. -/
  | sharedId (first second : Nat) (id : String)
  /-- The parent or the follower of the block is missing. -/
  | missingLink (id : String) (target : Nat)
  /-- A top-level block has a parent. -/
  | topLevelParent (id : String)
  /-- The block is neither top-level nor linked to a parent or to a chain without one. -/
  | detached (id : String)
  /-- The block in a slot is missing. -/
  | missingInput (name id : String) (target : Nat)
  /-- The block in a slot has another parent than the owner of the slot. -/
  | foreignInput (name id child : String)
  /-- A block and its follower have different containers. -/
  | foreignFollower (follower id : String)
  deriving DecidableEq, Repr

def LinkProblem.message : LinkProblem → String
  | sharedId first second id => s!"Blocks #{first} and #{second} share id '{id}'."
  | missingLink id target => s!"Block '{id}' links to missing #{target}."
  | topLevelParent id => s!"Top-level block '{id}' has a parent."
  | detached id => s!"Block '{id}' is detached."
  | missingInput name id target => s!"Input {name} of '{id}' links to missing #{target}."
  | foreignInput name id child => s!"Input {name} of '{id}' holds '{child}' whose parent is not the owner."
  | foreignFollower follower id => s!"Block '{follower}' follows '{id}' but does not share its container."

namespace Graph

/-- The container of the chain that goes on after the block. -/
def containerAfter (index : Nat) (block : Block) : Option Nat :=
  if block.opcode.isHat then some index else block.parent

/-- The last place before `index` whose block has the id. -/
def lastWithId? (graph : Graph) (index : Nat) (id : String) : Option Nat :=
  (List.range index).reverse.find? fun other => (graph.block? other).any fun block => block.id == id

/-- Whether the block at the place follows a block that has no parent and is no hat. -/
def followsHeadless (graph : Graph) (index : Nat) : Bool :=
  graph.blocks.any fun block => block.parent.isNone && !block.opcode.isHat && block.next == some index

/-- An id that an earlier block has. -/
def idProblems (graph : Graph) (index : Nat) (block : Block) : List LinkProblem :=
  match graph.lastWithId? index block.id with
  | some first => [.sharedId first index block.id]
  | none => []

/-- A parent or follower that is missing. -/
def linkProblems (graph : Graph) (block : Block) : List LinkProblem :=
  ([block.parent, block.next].filterMap id).filterMap fun target =>
    if target < graph.size then none else some (.missingLink block.id target)

/-- A parent too many or too few. -/
def parentProblems (graph : Graph) (index : Nat) (block : Block) : List LinkProblem :=
  (if block.topLevel && block.parent.isSome then [.topLevelParent block.id] else []) ++
    (if !block.topLevel && block.parent.isNone && !graph.followsHeadless index then [.detached block.id] else [])

/-- A block in a slot that is missing or has another parent. -/
def inputProblems (graph : Graph) (index : Nat) (block : Block) : List LinkProblem :=
  block.inputs.filterMap fun (name, input) =>
    match input with
    | .literal _ => none
    | .block target =>
      match graph.block? target with
      | none => some (.missingInput name block.id target)
      | some child => if child.parent == some index then none else some (.foreignInput name block.id child.id)

/-- A follower with another container. -/
def followerProblems (graph : Graph) (index : Nat) (block : Block) : List LinkProblem :=
  match block.next.bind graph.block? with
  | none => []
  | some follower =>
    if follower.parent == containerAfter index block then [] else [.foreignFollower follower.id block.id]

def blockProblems (graph : Graph) (index : Nat) (block : Block) : List LinkProblem :=
  graph.idProblems index block ++ graph.linkProblems block ++ graph.parentProblems index block ++
    graph.inputProblems index block ++ graph.followerProblems index block

/-- All problems, block by block. -/
def problems (graph : Graph) : List LinkProblem :=
  graph.blocks.toList.zipIdx.flatMap fun (block, index) => graph.blockProblems index block

end Graph

end ScratchScript
