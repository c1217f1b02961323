/-!
# Conditions

The boolean expression in the header of a block. An expression that could not be read, or that is not there, is
`Condition.missing`; inside a larger condition it stands for an operand whose slot stays empty.
-/

namespace ScratchScript

/-- A relation between two texts. -/
inductive Comparison
  | greater | less | equal
  deriving DecidableEq, Repr

/-- A word that joins two conditions. -/
inductive Connective
  | and | or
  deriving DecidableEq, Repr

/-- A boolean expression. -/
inductive Condition
  | missing
  | join (connective : Connective) (left right : Condition)
  | not (operand : Condition)
  | compare (comparison : Comparison) (left right : String)
  | touching (target : String)
  | touchingColor (color : String)
  | keyPressed (key : String)
  | mouseDown
  deriving DecidableEq, Repr

/-- The number of blocks that the condition needs. -/
def Condition.size : Condition → Nat
  | missing => 0
  | join _ left right => 1 + left.size + right.size
  | not operand => 1 + operand.size
  | _ => 1

end ScratchScript
