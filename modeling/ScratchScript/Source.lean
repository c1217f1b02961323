import ScratchScript.Text.Basic
import ScratchScript.Text.Lowercase

/-!
# Source texts

`lines` cuts a source into lines and cleans each of them: invisible format characters and outer white space go, code
fences are left out, and every other line keeps its number in the source, blank lines included. Some lines carry
structure rather than a block (`Marker`). The chosen entry of a menu is written with a mark after it, as in `[score v]`,
and `dropMenuMark` gives the entry.
-/

namespace ScratchScript

/-- A cleaned line and its number in the source, counted from 1. -/
structure SourceLine where
  number : Nat
  text : String
  deriving DecidableEq, Repr

namespace Source

/-- Characters without a shape of their own: the byte order mark, the zero-width space and joiners, the word joiner. -/
def isFormatMark (c : Char) : Bool :=
  [0xFEFF, 0x200B, 0x200C, 0x200D, 0x2060].contains c.toNat

/-- A line without format marks and without white space at its ends. -/
def clean (line : List Char) : List Char :=
  Text.trim (line.filter fun c => !isFormatMark c)

/-- Whether the line opens or closes a fenced piece of text: three backticks, then at most the name of a language. -/
def isFence (line : List Char) : Bool :=
  "```".toList.isPrefixOf line && (line.drop 3).all fun c => c.isAlphanum || c == '-' || c == '_'

/-- The lines of a text that starts with the character, from the lines of the text after it. -/
def joinLine (c : Char) (lines : List (List Char)) : List (List Char) :=
  if c == '\n' then [] :: lines else
    match lines with
    | [] => [[c]]
    | line :: lines => (c :: line) :: lines

/-- The pieces of the text between line feeds. A line feed at the end starts no further piece. -/
def splitLines (source : List Char) : List (List Char) :=
  source.foldr joinLine []

/-- The cleaned lines of a source. -/
def lines (source : List Char) : List SourceLine :=
  ((splitLines source).zipIdx 1).filterMap fun (line, number) =>
    if isFence (clean line) then none else some ⟨number, String.ofList (clean line)⟩

/-! ## Structural markers -/

/-- A line that carries structure. -/
inductive Marker
  /-- The end of the innermost open body. -/
  | close
  /-- The start of the else branch of the innermost open block. -/
  | otherwise
  deriving DecidableEq, Repr

def closeSpellings : List String := ["end", "fin"]

def otherwiseSpellings : List String := ["else", "sino", "si no"]

/-- The marker that the line is, white space at its ends and case aside. -/
def Marker.ofLine? (line : List Char) : Option Marker :=
  let word := String.ofList (Text.lowercase (Text.trim line))
  if closeSpellings.contains word then some .close
  else if otherwiseSpellings.contains word then some .otherwise
  else none

/-! ## Marks of menus -/

/-- The marks, in the order in which they are looked for. -/
def menuMarks : List String := [" v", " V", " ▾", " ▼"]

/-- The entry before the mark, unless nothing stands there. -/
def entryBefore? (mark text : List Char) : Option (List Char) :=
  match Text.dropMark? mark text with
  | some rest => if (Text.trimEnd rest).isEmpty then none else some (Text.trimEnd rest)
  | none => none

/-- The trimmed text without the mark of a menu. -/
def dropMenuMark (text : List Char) : List Char :=
  (menuMarks.findSome? fun mark => entryBefore? mark.toList (Text.trim text)).getD (Text.trim text)

end Source

end ScratchScript
