import ScratchScript.Source

/-!
# Menu entries

Entries of menus are written in English or Spanish and stored in one form. Each menu is a table from spellings to the
stored form; an entry outside the table stands for itself.
-/

namespace ScratchScript.Vocabulary

/-- Stored forms of menu entries, each with its spellings in lowercase. -/
abbrev Menu := List (List String × String)

def Menu.stored? (menu : Menu) (spelling : String) : Option String :=
  (menu.find? fun (spellings, _) => spellings.contains spelling).map (·.2)

/-- The text in lowercase, as it is looked up in a menu. -/
def lowered (text : List Char) : String :=
  String.ofList (Text.lowercase text)

def keys : Menu := [
  (["espacio", "barra espaciadora"], "space"),
  (["flecha izquierda"], "left arrow"),
  (["flecha derecha"], "right arrow"),
  (["flecha arriba"], "up arrow"),
  (["flecha abajo"], "down arrow"),
  (["cualquiera"], "any")]

def sprites : Menu := [
  (["random position", "posición aleatoria", "posicion aleatoria"], "_random_"),
  (["mouse-pointer", "mouse pointer", "puntero del ratón", "puntero del raton"], "_mouse_"),
  (["myself", "mí mismo", "mi mismo"], "_myself_")]

def touchTargets : Menu := [
  (["mouse-pointer", "mouse pointer", "puntero del ratón", "puntero del raton"], "_mouse_"),
  (["edge", "borde"], "_edge_")]

def stopOptions : Menu := [
  (["all", "todos", "todo"], "all"),
  (["this script", "este programa", "este script"], "this script"),
  (["other scripts in sprite", "otros programas del objeto", "otros programas en el objeto",
    "otros programas en este objeto", "otros scripts del objeto"], "other scripts in sprite"),
  (["other scripts in stage", "otros programas del escenario"], "other scripts in stage")]

def layers : Menu := [
  (["delante", "adelante", "frente", "front"], "front"),
  (["atrás", "atras", "detrás", "detras", "back"], "back")]

/-- A key, in lowercase if it has no other name. -/
def keyName (text : List Char) : String :=
  let key := lowered (Source.dropMenuMark text)
  (keys.stored? key).getD key

/-- A place or sprite, as written if it has no other name. -/
def spriteName (entry : List Char) : String :=
  (sprites.stored? (lowered entry)).getD (String.ofList entry)

/-- A thing to touch, as written if it has no other name. -/
def touchTarget (entry : List Char) : String :=
  (touchTargets.stored? (lowered entry)).getD (String.ofList entry)

/-- What to stop, as written if it has no other name. -/
def stopOption (entry : List Char) : String :=
  (stopOptions.stored? (lowered entry)).getD (String.ofList entry)

/-- A layer, in lowercase if it has no other name. -/
def layerName (entry : List Char) : String :=
  (layers.stored? (lowered entry)).getD (lowered entry)

/-- The text inside a pair of brackets that opens and ends with the given characters. -/
def inside? (opening closing : Char) (text : List Char) : Option (List Char) :=
  match text with
  | [] => none
  | c :: rest => if c == opening then Text.dropMark? [closing] rest else none

/-- A free operand without its brackets: `(0)` is `0`, `[hello v]` is `hello`, and `7` stays as it is. -/
def unwrapOperand (text : List Char) : List Char :=
  match (inside? '(' ')' (Text.trim text)).or (inside? '[' ']' (Text.trim text)) with
  | some inner => Source.dropMenuMark inner
  | none => Text.trim text

end ScratchScript.Vocabulary
