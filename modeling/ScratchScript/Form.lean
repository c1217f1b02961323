import ScratchScript.Text.Lowercase
import ScratchScript.Text.Basic
import ScratchScript.Text.WordChar

/-!
# Forms

A form is a wording with holes, such as `wait (…) secs`. It is a list of pieces, and each piece can take some of the
beginnings of a text, in an order of preference. `Form.read?` finds the first way, in that order, in which the pieces
take the beginning of a text one after the other, and gives what the holes took. A form does not look at the rest of
the text unless it ends with `Piece.lineEnd`.
-/

namespace ScratchScript

/-- What a hole accepts. -/
inductive Filling
  /-- Anything on one line. -/
  | inline
  /-- Anything but a closing square bracket. -/
  | unclosed

def Filling.admits : Filling → Char → Bool
  | .inline, c => c != '\n'
  | .unclosed, c => c != ']'

/-- Which of several lengths a hole prefers. -/
inductive Reach
  | shortest
  | longest

/-- One piece of a form. -/
inductive Piece
  /-- One of the spellings, the earlier the better. -/
  | word (spellings : List String)
  /-- Any amount of white space, the more the better. -/
  | gap
  /-- A text of at least `least` characters, which is kept. -/
  | hole (filling : Filling) (least : Nat) (reach : Reach)
  /-- The end of a word. -/
  | wordEnd
  /-- The end of the text. -/
  | lineEnd

namespace Piece

/-- The lengths from `least` to `most` in the order that a hole tries them. -/
def tries (least most : Nat) : Reach → List Nat
  | .shortest => List.range' least (most + 1 - least)
  | .longest => (List.range' least (most + 1 - least)).reverse

/-- How many characters at the beginning of the text the piece can take, the preferred number first. -/
def lengths : Piece → List Char → List Nat
  | word spellings, text =>
    (spellings.filter fun spelling => Text.startsWith spelling.toList text).map String.length
  | gap, text => tries 0 (text.takeWhile Text.isBlank).length .longest
  | hole filling least reach, text => tries least (text.takeWhile filling.admits).length reach
  | wordEnd, text => if text.head?.any Text.isWordChar then [] else [0]
  | lineEnd, text => if text.isEmpty then [0] else []

/-- What is kept of the text that the piece took. -/
def kept : Piece → List Char → List (List Char)
  | hole .., taken => [taken]
  | _, _ => []

end Piece

/-- A wording with holes. -/
abbrev Form := List Piece

namespace Form

/-- What the holes of the form take at the beginning of the text. -/
def read? : Form → List Char → Option (List (List Char))
  | [], _ => some []
  | piece :: form, text =>
    (piece.lengths text).findSome? fun n =>
      (read? form (text.drop n)).map (piece.kept (text.take n) ++ ·)

/-! ## Forms in use -/

def text (spelling : String) : Form := [.word [spelling]]

def oneOf (spellings : List String) : Form := [.word spellings]

/-- One of several spellings, or nothing. -/
def maybe (spellings : List String) : Form := [.word (spellings ++ [""])]

def gap : Form := [.gap]

/-- A text in round brackets, up to the nearest closing one that lets the form go on. -/
def round : Form := [.word ["("], .hole .inline 1 .shortest, .word [")"]]

/-- A text in square brackets without a closing square bracket in it. -/
def square : Form := [.word ["["], .hole .unclosed 1 .longest, .word ["]"]]

/-- A text in square brackets, up to the nearest closing one after its first character. -/
def swatch : Form := [.word ["["], .hole .inline 1 .shortest, .word ["]"]]

/-- A text between brackets of either kind, which need not agree. -/
def bracketed (reach : Reach) : Form := [.word ["[", "("], .hole .inline 1 reach, .word ["]", ")"]]

/-- The rest of the line, of at least `least` characters. -/
def restOfLine (least : Nat) : Form := [.hole .inline least .longest, .lineEnd]

/-- The rest of the line after a word, without white space at its ends and without the closing word, if it is there. -/
def headerBefore (closing : String) : Form :=
  [.wordEnd, .gap, .hole .inline 0 .shortest, .gap, .word [closing, ""], .lineEnd]

def wordEnd : Form := [.wordEnd]

def lineEnd : Form := [.lineEnd]

end Form

end ScratchScript
