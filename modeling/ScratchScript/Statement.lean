import ScratchScript.Opcode

/-!
# Statements

What one line of notation says: the kind of block, the texts in its slots, the entries of its menus and, for a header,
the text of its condition. Where the block stands and what it is linked to is not part of a statement.
-/

namespace ScratchScript

/-- The kind of a text in a slot, which decides how it can be edited. -/
inductive LiteralKind
  | number | positive | whole | integer | angle | color | text | broadcast
  deriving DecidableEq, Repr

/-- The number under which a project stores the kind. -/
def LiteralKind.code : LiteralKind → Nat
  | number => 4
  | positive => 5
  | whole => 6
  | integer => 7
  | angle => 8
  | color => 9
  | text => 10
  | broadcast => 11

/-- The kind that is stored under the number. -/
def LiteralKind.ofCode? (code : Nat) : Option LiteralKind :=
  [number, positive, whole, integer, angle, color, text, broadcast].find? fun kind => kind.code == code

/-- A text in a slot. -/
structure Literal where
  kind : LiteralKind
  value : String
  deriving DecidableEq, Repr

/-- The chosen entry of a menu: what it shows and, when it names something of the project, the name. -/
structure Field where
  display : String
  value : Option String
  deriving DecidableEq, Repr

/-- An entry that means itself. -/
def Field.plain (display : String) : Field := ⟨display, none⟩

/-- An entry that names a variable, a list or a message. -/
def Field.named (name : String) : Field := ⟨name, some name⟩

/-- What one line says. -/
structure Statement where
  opcode : Opcode
  literals : List (String × Literal) := []
  fields : List (String × Field) := []
  condition : Option String := none
  deriving DecidableEq, Repr

namespace Statement

def literal? (statement : Statement) (name : String) : Option Literal :=
  statement.literals.lookup name

def field? (statement : Statement) (name : String) : Option Field :=
  statement.fields.lookup name

end Statement

end ScratchScript
