import ScratchScript.Form
import ScratchScript.Statement
import ScratchScript.Vocabulary.Menu

/-!
# Rules

A rule recognises one kind of statement. It lists the wordings of the statement, says which hole of a wording fills
which slot or menu of the block, and may name words that keep it from applying. Rules are data; `Rule.read?` is all
that is done with them.
-/

namespace ScratchScript.Vocabulary

/-- How the text of a hole becomes the value that is stored. -/
inductive Entry
  /-- As written. -/
  | verbatim
  /-- The entry of a menu. -/
  | menu
  /-- The name of a key. -/
  | key
  /-- A place or sprite. -/
  | sprite
  /-- What to stop. -/
  | stopOption
  /-- A layer. -/
  | layer
  /-- An operand with or without brackets. -/
  | operand
  deriving DecidableEq, Repr

def Entry.value : Entry → List Char → String
  | verbatim, text => String.ofList text
  | menu, text => String.ofList (Source.dropMenuMark text)
  | key, text => keyName text
  | sprite, text => spriteName (Source.dropMenuMark text)
  | stopOption, text => Vocabulary.stopOption (Source.dropMenuMark text)
  | layer, text => layerName (Source.dropMenuMark text)
  | operand, text => String.ofList (unwrapOperand text)

/-- A slot that is filled from a hole. Holes are counted from 0. -/
structure LiteralPlan where
  slot : String
  kind : LiteralKind
  hole : Nat
  entry : Entry
  deriving DecidableEq, Repr

/-- Whether a menu entry means itself or names something of the project. -/
inductive FieldStyle
  | plain
  | named
  deriving DecidableEq, Repr

def FieldStyle.field : FieldStyle → String → Field
  | plain => Field.plain
  | named => Field.named

/-- A menu that is filled from a hole. -/
structure FieldPlan where
  slot : String
  style : FieldStyle
  hole : Nat
  entry : Entry
  deriving DecidableEq, Repr

/-- How one kind of statement is recognised. -/
structure Rule where
  name : String
  /-- The wordings, tried in order. -/
  forms : List Form
  opcode : Opcode
  /-- Words that turn the statement into another kind of block. -/
  variant : Option (List String × Opcode) := none
  /-- Words that keep the rule from applying. -/
  vetoes : List String := []
  literals : List LiteralPlan := []
  fields : List FieldPlan := []
  /-- Whether the first hole holds a condition. -/
  conditional : Bool := false

namespace Rule

def holeText (holes : List (List Char)) (hole : Nat) : List Char :=
  Text.trim (holes.getD hole [])

def mentions (words : List String) (lowered : List Char) : Bool :=
  words.any fun word => Text.occursIn word.toList lowered

def opcodeFor (rule : Rule) (lowered : List Char) : Opcode :=
  match rule.variant with
  | some (words, opcode) => if mentions words lowered then opcode else rule.opcode
  | none => rule.opcode

/-- The condition in the first hole, if there is one. -/
def conditionFor (rule : Rule) (holes : List (List Char)) : Option String :=
  if rule.conditional && !(holeText holes 0).isEmpty then some (String.ofList (holeText holes 0)) else none

/-- The statement, given the line in lowercase and the texts of the holes. -/
def statement (rule : Rule) (lowered : List Char) (holes : List (List Char)) : Statement where
  opcode := rule.opcodeFor lowered
  literals := rule.literals.map fun plan => (plan.slot, ⟨plan.kind, plan.entry.value (holeText holes plan.hole)⟩)
  fields := rule.fields.map fun plan => (plan.slot, plan.style.field (plan.entry.value (holeText holes plan.hole)))
  condition := rule.conditionFor holes

/-- What the line says by this rule. The second text is the line in lowercase. -/
def read? (rule : Rule) (line lowered : List Char) : Option Statement :=
  if mentions rule.vetoes lowered then none
  else (rule.forms.findSome? fun form => form.read? line).map (rule.statement lowered)

end Rule

end ScratchScript.Vocabulary
