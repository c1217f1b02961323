import ScratchScript.Condition.Basic
import ScratchScript.Form
import ScratchScript.Vocabulary.Menu

/-!
# Conditions without operands

The leaves of a condition: comparisons such as `(a) > (b)`, and four wordings on what the sprite senses.
-/

namespace ScratchScript.Condition

/-! ## Comparisons -/

def comparison? (c : Char) : Option Comparison :=
  if c == '>' then some .greater
  else if c == '<' then some .less
  else if c == '=' then some .equal
  else none

/-- How much deeper the text is in round and square brackets after the character. -/
def bracketStep (c : Char) : Int :=
  if c == '(' || c == '[' then 1
  else if c == ')' || c == ']' then -1
  else 0

/-- The text before and after the first operator that stands between two blanks outside all brackets, for a text after
the character `before` at the given depth. -/
def splitComparison? (before : Option Char) (depth : Int) :
    List Char → Option (List Char × Comparison × List Char)
  | [] => none
  | c :: rest =>
    match comparison? c with
    | some op =>
      if depth == 0 && before == some ' ' && rest.head? == some ' ' then some ([], op, rest)
      else (splitComparison? (some c) depth rest).map fun (left, op, right) => (c :: left, op, right)
    | none =>
      (splitComparison? (some c) (depth + bracketStep c) rest).map fun (left, op, right) => (c :: left, op, right)

/-- Whether the text starts and ends with brackets of one kind. -/
def isOperand (text : List Char) : Bool :=
  text.head? == some '(' && text.getLast? == some ')' || text.head? == some '[' && text.getLast? == some ']'

def readComparison? (text : List Char) : Option Condition :=
  match splitComparison? none 0 text with
  | none => none
  | some (left, op, right) =>
    if isOperand (Text.trim left) && isOperand (Text.trim right) then
      some (.compare op (String.ofList (Vocabulary.unwrapOperand left))
        (String.ofList (Vocabulary.unwrapOperand right)))
    else none

/-! ## Wordings -/

open Form in
/-- The wordings on what the sprite senses, in the order in which they are tried. The function takes the entry in the
brackets, if there are any. -/
def wordings : List (List Form × (List Char → Condition)) := [
  ([text "touching colo" ++ maybe ["u"] ++ text "r " ++ square ++ lineEnd,
    text "tocando " ++ maybe ["el "] ++ text "color " ++ square ++ lineEnd],
   fun entry => .touchingColor (String.ofList entry)),
  ([oneOf ["touching ", "tocando "] ++ square ++ lineEnd],
   fun entry => .touching (Vocabulary.touchTarget entry)),
  ([oneOf ["key ", "tecla "] ++ square ++ oneOf [" pressed", " presionada"] ++ lineEnd],
   fun entry => .keyPressed (Vocabulary.keyName entry)),
  ([oneOf ["mouse down", "raton presionado", "ratón presionado", "mouse presionado"] ++ lineEnd],
   fun _ => .mouseDown)]

def readWording? (text : List Char) : Option Condition :=
  wordings.findSome? fun (forms, condition) =>
    (forms.findSome? fun form => form.read? text).map fun holes =>
      condition (Source.dropMenuMark (holes.headD []))

/-! ## Leaves -/

def dropQuestionMarks (text : List Char) : List Char :=
  let opened := (Text.trim text).dropWhile (· == '¿')
  Text.trim (opened.reverse.dropWhile (· == '?')).reverse

/-- The condition without operands that the text is, if any. -/
def readLeaf (text : List Char) : Condition :=
  let asked := dropQuestionMarks text
  ((readComparison? asked).or (readWording? asked)).getD .missing

end ScratchScript.Condition
