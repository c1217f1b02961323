import ScratchScript.Source
import ScratchScript.Vocabulary.Rules

/-!
# What a line says

`Statement.ofLine?` reads one line of notation. Blank lines and structural markers say nothing; any other line is read
by the first rule of the vocabulary that applies. `SourceLine.reading` is what a line means for the script it stands in.
-/

namespace ScratchScript

namespace Vocabulary

/-- The first rule that applies to a trimmed line, with what the line says by it. -/
def firstMatch? (line : List Char) : Option (Rule × Statement) :=
  let lowered := Text.lowercase line
  rules.findSome? fun rule => (rule.read? line lowered).map (rule, ·)

/-- The rule that reads the line, with what the line says by it. -/
def classify? (line : List Char) : Option (Rule × Statement) :=
  let line := Text.trim line
  if line.isEmpty || (Source.Marker.ofLine? line).isSome then none else firstMatch? line

/-- All rules that apply to the line, each with what the line says by it. The second text is the line in lowercase. -/
def allMatches (line lowered : List Char) : List (Rule × Statement) :=
  rules.filterMap fun rule => (rule.read? line lowered).map (rule, ·)

def note (line : List Char) (rule : Rule) (statement : Statement) : String :=
  s!"'{String.ofList (Text.trim line)}' matched rule '{rule.name}' -> {statement.opcode.name}"

end Vocabulary

/-- What the line says, if anything. -/
def Statement.ofLine? (line : List Char) : Option Statement :=
  (Vocabulary.classify? line).map (·.2)

/-- What a line means. -/
inductive Reading
  /-- Nothing stands on the line. -/
  | blank
  /-- The line carries structure. -/
  | marker (marker : Source.Marker)
  /-- The line is a statement. -/
  | statement (statement : Statement)
  /-- Nothing recognises the line. -/
  | unknown
  deriving DecidableEq, Repr

def SourceLine.reading (line : SourceLine) : Reading :=
  if line.text.isEmpty then .blank else
    match Source.Marker.ofLine? line.text.toList with
    | some marker => .marker marker
    | none =>
      match Statement.ofLine? line.text.toList with
      | some statement => .statement statement
      | none => .unknown

end ScratchScript
