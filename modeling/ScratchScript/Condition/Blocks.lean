import ScratchScript.Condition.Basic
import ScratchScript.Graph.Basic

/-!
# The blocks of a condition

`Condition.blocks` lays a condition out as blocks: each node before its operands, the left operand before the right. A
missing operand has no block, and its slot stays empty.
-/

namespace ScratchScript

def Comparison.opcode : Comparison → Opcode
  | greater => .greaterThan
  | less => .lessThan
  | equal => .equals

def Connective.opcode : Connective → Opcode
  | and => .and
  | or => .or

/-- The id that the block at a place has until it is given its own. -/
def provisionalId (index : Nat) : String :=
  s!"b{index}"

namespace Condition

/-- The kind of block at the root of the condition. -/
def opcode? : Condition → Option Opcode
  | missing => none
  | join connective _ _ => some connective.opcode
  | not _ => some .not
  | compare comparison _ _ => some comparison.opcode
  | touching _ => some .touchingObject
  | touchingColor _ => some .touchingColor
  | keyPressed _ => some .keyPressed
  | mouseDown => some .mouseDown

/-- The slot for an operand whose blocks start at the place. -/
def slotFor (name : String) (index : Nat) : Condition → List (String × Input)
  | missing => []
  | _ => [(name, .block index)]

def textIn (name : String) (kind : LiteralKind) (value : String) : String × Input :=
  (name, .literal ⟨kind, value⟩)

/-- The blocks of the condition, of which the first has the place `index`, below the block at the place `parent`. -/
def blocks (parent index : Nat) : Condition → List Block
  | missing => []
  | join connective left right =>
    { node connective.opcode with
      inputs := slotFor "OPERAND1" (index + 1) left ++ slotFor "OPERAND2" (index + 1 + left.size) right } ::
      (blocks index (index + 1) left ++ blocks index (index + 1 + left.size) right)
  | not operand =>
    { node .not with inputs := slotFor "OPERAND" (index + 1) operand } :: blocks index (index + 1) operand
  | compare comparison left right =>
    [{ node comparison.opcode with inputs := [textIn "OPERAND1" .text left, textIn "OPERAND2" .text right] }]
  | touching target => [{ node .touchingObject with inputs := [textIn "TOUCHINGOBJECTMENU" .text target] }]
  | touchingColor color => [{ node .touchingColor with inputs := [textIn "COLOR" .color color] }]
  | keyPressed key => [{ node .keyPressed with inputs := [textIn "KEY_OPTION" .text key] }]
  | mouseDown => [node .mouseDown]
where
  /-- A block of the condition without its operands. -/
  node (opcode : Opcode) : Block := { id := provisionalId index, opcode, parent := some parent }

end Condition

end ScratchScript
