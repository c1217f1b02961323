import ScratchScript.Graph.Basic
import ScratchScript.Json.Basic
import ScratchScript.Text.Lowercase

/-!
# Block maps

A project stores the blocks of a sprite as an object with one member for each block, under its id. Links are written as
ids, so rendering fails at the first link to a missing block: blocks in order, in each block the slots, then the
follower, then the parent.
-/

namespace ScratchScript

namespace Graph

def idOf (graph : Graph) (index : Nat) : Except MissingBlock String := do
  return (← graph.block index).id

/-- The id at the end of a link, or null. -/
def linkJson (graph : Graph) : Option Nat → Except MissingBlock Json
  | none => .ok .null
  | some index => do return .str (← graph.idOf index)

end Graph

namespace Project

/-- A text in a slot: its kind and the text, which a message gives twice. -/
def literalJson (literal : Literal) : Json :=
  match literal.kind with
  | .broadcast => .arr [.int 1, .arr [.int literal.kind.code, .str literal.value, .str literal.value]]
  | kind => .arr [.int 1, .arr [.int kind.code, .str literal.value]]

def inputJson (graph : Graph) : Input → Except MissingBlock Json
  | .literal literal => .ok (literalJson literal)
  | .block target => do return .arr [.int 2, .str (← graph.idOf target)]

def fieldJson (field : Field) : Json :=
  .arr [.str field.display, Json.ofText? field.value]

/-- The entries of the stop menu after which a script goes on. -/
def goesOn (option : String) : Bool :=
  let option := String.ofList (Text.lowercase option.toList)
  option == "other scripts in sprite" || option == "other scripts in stage"

/-- What a stop block stores about its shape: whether a block can follow. -/
def stopMutation (block : Block) : Json :=
  let option := match block.field? "STOP_OPTION" with
    | some field => field.display
    | none => ""
  .object [("tagName", .str "mutation"), ("children", .arr []),
    ("hasnext", .str (if goesOn option then "true" else "false"))]

/-- Where a top-level block stands. -/
def positionMembers : Option Position → List (String × Json)
  | some position => [("x", .int position.x.toInt), ("y", .int position.y.toInt)]
  | none => []

/-- What only a stop block has. -/
def mutationMembers (block : Block) : List (String × Json) :=
  if block.opcode == .stop then [("mutation", stopMutation block)] else []

def inputMembers (graph : Graph) (inputs : List (String × Input)) : Except MissingBlock (List (String × Json)) :=
  inputs.mapM fun (name, input) => do return (name, ← inputJson graph input)

def blockJson (graph : Graph) (block : Block) : Except MissingBlock Json := do
  let inputs ← inputMembers graph block.inputs
  let next ← graph.linkJson block.next
  let parent ← graph.linkJson block.parent
  return .object ([("opcode", .str block.opcode.name), ("next", next), ("parent", parent),
    ("inputs", .object inputs), ("fields", .object (block.fields.map fun (name, field) => (name, fieldJson field))),
    ("shadow", .bool block.shadow), ("topLevel", .bool block.topLevel)] ++
    positionMembers block.position ++ mutationMembers block)

/-- All blocks under their ids. Of two blocks with one id the later is stored. -/
def blockMap (graph : Graph) : Except MissingBlock Json := do
  return .object (← graph.blocks.toList.mapM fun block => do return (block.id, ← blockJson graph block))

end Project

end ScratchScript
