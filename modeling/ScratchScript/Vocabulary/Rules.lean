import ScratchScript.Vocabulary.Rule

/-!
# The vocabulary

The rules in the order in which they are tried. A wording that another one begins with stands above it: `say […] for
(…) secs` above `say […]`, and `if on edge, bounce` above `if`. Every wording starts at the beginning of the line, so a
word inside a message selects no rule.
-/

namespace ScratchScript.Vocabulary

open Form

/-- Statements that start a script or send a message. -/
def events : List Rule := [
  { name := "when this sprite clicked"
    forms := [
      text "when this sprite clicked",
      text "al hacer clic en este objeto",
      text "cuando se haga clic en este objeto"]
    opcode := .whenThisSpriteClicked },
  { name := "when green flag clicked"
    forms := [
      text "when " ++ maybe ["green "] ++ text "flag clicked",
      text "al presionar " ++ maybe ["la "] ++ text "bandera verde",
      text "cuando se haga clic en"]
    opcode := .whenFlagClicked },
  { name := "when key pressed"
    forms := [
      text "when " ++ square ++ text " key pressed",
      text "al presionar " ++ maybe ["la "] ++ text "tecla " ++ square,
      text "cuando se presione " ++ maybe ["la "] ++ text "tecla " ++ square]
    opcode := .whenKeyPressed
    fields := [⟨"KEY_OPTION", .plain, 0, .key⟩] },
  { name := "when I receive"
    forms := [text "when i receive " ++ square, text "al recibir " ++ square]
    opcode := .whenBroadcastReceived
    fields := [⟨"BROADCAST_OPTION", .named, 0, .menu⟩] },
  { name := "when I start as a clone"
    forms := [text "when i start as a clone", text "al comenzar como clon"]
    opcode := .startAsClone },
  { name := "broadcast and wait"
    forms := [text "broadcast " ++ square ++ text " and wait", text "enviar " ++ square ++ text " y esperar"]
    opcode := .broadcastAndWait
    literals := [⟨"BROADCAST_INPUT", .broadcast, 0, .menu⟩] },
  { name := "broadcast"
    forms := [text "broadcast " ++ square, text "enviar " ++ square]
    opcode := .broadcast
    literals := [⟨"BROADCAST_INPUT", .broadcast, 0, .menu⟩] }]

/-- Statements that wait, repeat, decide, stop or clone. -/
def control : List Rule := [
  { name := "wait"
    forms := [
      text "wait " ++ round ++ oneOf [" secs", " sec", " seconds", " second"],
      text "esperar " ++ round ++ oneOf [" segundos", " segundo"]]
    opcode := .wait
    literals := [⟨"DURATION", .positive, 0, .verbatim⟩] },
  { name := "repeat until"
    forms := [text "repeat until" ++ gap ++ restOfLine 0, text "repetir hasta que" ++ gap ++ restOfLine 0]
    opcode := .repeatUntil
    conditional := true },
  { name := "repeat"
    forms := [text "repeat " ++ round, text "repetir " ++ round]
    opcode := .repeatTimes
    vetoes := ["until", "hasta que"]
    literals := [⟨"TIMES", .whole, 0, .verbatim⟩] },
  { name := "forever"
    forms := [text "forever" ++ wordEnd, text "por siempre" ++ wordEnd, text "repetir por siempre" ++ wordEnd]
    opcode := .forever },
  { name := "if on edge, bounce"
    forms := [
      text "if on edge" ++ maybe [","] ++ text " bounce",
      text "rebotar si " ++ maybe ["está ", "esta "] ++ text "toca" ++ maybe ["ndo"] ++ text " " ++
        maybe ["un ", "el "] ++ text "borde"]
    opcode := .ifOnEdgeBounce },
  { name := "if"
    forms := [text "if" ++ headerBefore "then", text "si" ++ headerBefore "entonces"]
    opcode := .ifThen
    conditional := true },
  { name := "stop all sounds"
    forms := [text "stop all sounds", text "detener todos los sonidos"]
    opcode := .stopAllSounds },
  { name := "stop"
    forms := [text "stop " ++ square, text "detener " ++ square]
    opcode := .stop
    fields := [⟨"STOP_OPTION", .plain, 0, .stopOption⟩] },
  { name := "create clone of"
    forms := [text "create clone of " ++ square, text "crear clon de " ++ square]
    opcode := .createCloneOf
    literals := [⟨"CLONE_OPTION", .text, 0, .sprite⟩] },
  { name := "delete this clone"
    forms := [text "delete this clone", text "borrar este clon", text "eliminar este clon"]
    opcode := .deleteThisClone }]

def motion : List Rule := [
  { name := "move"
    forms := [
      text "move " ++ round ++ oneOf [" steps", " step"],
      text "mover " ++ round ++ oneOf [" pasos", " paso"]]
    opcode := .moveSteps
    literals := [⟨"STEPS", .number, 0, .verbatim⟩] },
  { name := "turn"
    forms := [
      text "turn" ++ gap ++ maybe ["right", "left", "cw", "ccw", "↻", "↺"] ++ gap ++ round ++ gap ++
        oneOf ["degrees", "degree"],
      text "girar" ++ gap ++
        maybe ["↻", "↺", "a la derecha", "a la izquierda", "derecha", "izquierda"] ++ gap ++ round ++ gap ++
        oneOf ["grados", "grado"]]
    opcode := .turnRight
    variant := some (["left", "ccw", "↺", "izquierda"], .turnLeft)
    literals := [⟨"DEGREES", .number, 0, .verbatim⟩] },
  { name := "go to layer"
    forms := [
      text "go to " ++ square ++ text " layer",
      text "ir a " ++ maybe ["la "] ++ text "capa " ++ square]
    opcode := .goToFrontBack
    fields := [⟨"FRONT_BACK", .plain, 0, .layer⟩] },
  { name := "glide to xy"
    forms := [
      text "glide " ++ round ++ oneOf [" secs", " sec"] ++ text " to x:" ++ gap ++ round ++ gap ++ text "y:" ++
        gap ++ round,
      text "deslizar en " ++ round ++ oneOf [" segundos", " segundo"] ++ text " a x:" ++ gap ++ round ++ gap ++
        text "y:" ++ gap ++ round]
    opcode := .glideSecsToXY
    literals := [⟨"SECS", .number, 0, .verbatim⟩, ⟨"X", .number, 1, .verbatim⟩, ⟨"Y", .number, 2, .verbatim⟩] },
  { name := "go to xy"
    forms := [
      text "go to x:" ++ gap ++ round ++ gap ++ text "y:" ++ gap ++ round,
      text "ir a x:" ++ gap ++ round ++ gap ++ text "y:" ++ gap ++ round]
    opcode := .goToXY
    literals := [⟨"X", .number, 0, .verbatim⟩, ⟨"Y", .number, 1, .verbatim⟩] },
  { name := "go to"
    forms := [text "go to " ++ square, text "ir a " ++ square]
    opcode := .goTo
    vetoes := ["x:"]
    literals := [⟨"TO", .text, 0, .sprite⟩] },
  { name := "point in direction"
    forms := [
      text "point in direction " ++ round,
      text "apuntar en direcci" ++ oneOf ["o", "ó"] ++ text "n " ++ round]
    opcode := .pointInDirection
    literals := [⟨"DIRECTION", .angle, 0, .verbatim⟩] },
  { name := "point towards"
    forms := [text "point towards " ++ square, text "apuntar hacia " ++ square]
    opcode := .pointTowards
    literals := [⟨"TOWARDS", .text, 0, .sprite⟩] },
  { name := "set x"
    forms := [text "set x to " ++ round, text "fijar x a " ++ round]
    opcode := .setX
    literals := [⟨"X", .number, 0, .verbatim⟩] },
  { name := "set y"
    forms := [text "set y to " ++ round, text "fijar y a " ++ round]
    opcode := .setY
    literals := [⟨"Y", .number, 0, .verbatim⟩] },
  { name := "change x"
    forms := [text "change x by " ++ round, text "cambiar x en " ++ round]
    opcode := .changeXBy
    literals := [⟨"DX", .number, 0, .verbatim⟩] },
  { name := "change y"
    forms := [text "change y by " ++ round, text "cambiar y en " ++ round]
    opcode := .changeYBy
    literals := [⟨"DY", .number, 0, .verbatim⟩] }]

/-- Statements on what the sprite says and what it looks like. -/
def looks : List Rule := [
  { name := "say for secs"
    forms := [
      text "say " ++ bracketed .shortest ++ text " for " ++ round ++
        oneOf [" secs", " sec", " seconds", " second"],
      text "decir " ++ bracketed .shortest ++ oneOf [" durante ", " por "] ++ round ++
        oneOf [" segundos", " segundo"]]
    opcode := .sayForSecs
    literals := [⟨"MESSAGE", .text, 0, .verbatim⟩, ⟨"SECS", .number, 1, .verbatim⟩] },
  { name := "say"
    forms := [text "say " ++ bracketed .longest, text "decir " ++ bracketed .longest]
    opcode := .say
    literals := [⟨"MESSAGE", .text, 0, .verbatim⟩] },
  { name := "think for secs"
    forms := [
      text "think " ++ bracketed .shortest ++ text " for " ++ round ++
        oneOf [" secs", " sec", " seconds", " second"],
      text "pensar " ++ bracketed .shortest ++ oneOf [" durante ", " por "] ++ round ++
        oneOf [" segundos", " segundo"]]
    opcode := .thinkForSecs
    literals := [⟨"MESSAGE", .text, 0, .verbatim⟩, ⟨"SECS", .number, 1, .verbatim⟩] },
  { name := "think"
    forms := [text "think " ++ bracketed .longest, text "pensar " ++ bracketed .longest]
    opcode := .think
    literals := [⟨"MESSAGE", .text, 0, .verbatim⟩] },
  { name := "show"
    forms := [text "show" ++ lineEnd, text "mostrar" ++ lineEnd]
    opcode := .showSprite },
  { name := "hide"
    forms := [text "hide" ++ lineEnd, text "esconder" ++ lineEnd, text "ocultar" ++ lineEnd]
    opcode := .hideSprite },
  { name := "switch costume"
    forms := [
      text "switch costume to " ++ square,
      text "cambiar " ++ maybe ["el "] ++ text "disfraz a " ++ square]
    opcode := .switchCostumeTo
    literals := [⟨"COSTUME", .text, 0, .menu⟩] },
  { name := "next costume"
    forms := [text "next costume", text "siguiente disfraz"]
    opcode := .nextCostume },
  { name := "switch backdrop"
    forms := [
      text "switch backdrop to " ++ square,
      text "cambiar " ++ maybe ["el "] ++ text "fondo a " ++ square]
    opcode := .switchBackdropTo
    literals := [⟨"BACKDROP", .text, 0, .menu⟩] },
  { name := "change size"
    forms := [
      text "change size by " ++ round,
      text "cambiar " ++ maybe ["el "] ++ text "tamaño en " ++ round]
    opcode := .changeSizeBy
    literals := [⟨"CHANGE", .number, 0, .verbatim⟩] },
  { name := "set size"
    forms := [
      text "set size to " ++ round,
      text "fijar " ++ maybe ["el "] ++ text "tamaño a " ++ round]
    opcode := .setSizeTo
    literals := [⟨"SIZE", .number, 0, .verbatim⟩] }]

def sound : List Rule := [
  { name := "play sound until done"
    forms := [
      text "play sound " ++ square ++ text " until done",
      text "tocar sonido " ++ square ++ text " hasta que termine"]
    opcode := .playUntilDone
    literals := [⟨"SOUND_MENU", .text, 0, .menu⟩] },
  { name := "start sound"
    forms := [
      text "start sound " ++ square,
      text "play sound " ++ square,
      text "iniciar sonido " ++ square,
      text "tocar sonido " ++ square]
    opcode := .startSound
    literals := [⟨"SOUND_MENU", .text, 0, .menu⟩] },
  { name := "change volume"
    forms := [
      text "change volume by " ++ round,
      text "cambiar " ++ maybe ["el "] ++ text "volumen en " ++ round]
    opcode := .changeVolumeBy
    literals := [⟨"VOLUME", .number, 0, .verbatim⟩] },
  { name := "set volume"
    forms := [
      text "set volume to " ++ round,
      text "fijar " ++ maybe ["el "] ++ text "volumen a " ++ round]
    opcode := .setVolumeTo
    literals := [⟨"VOLUME", .number, 0, .verbatim⟩] }]

/-- Statements that ask or reset. -/
def sensing : List Rule := [
  { name := "ask and wait"
    forms := [
      text "ask " ++ bracketed .shortest ++ text " and wait",
      text "preguntar " ++ bracketed .shortest ++ text " y esperar"]
    opcode := .askAndWait
    literals := [⟨"QUESTION", .text, 0, .verbatim⟩] },
  { name := "reset timer"
    forms := [
      text "reset timer",
      text "reiniciar " ++ maybe ["el "] ++ text "cronómetro",
      text "reiniciar " ++ maybe ["el "] ++ text "cronometro",
      text "reiniciar " ++ maybe ["el "] ++ text "temporizador"]
    opcode := .resetTimer }]

def data : List Rule := [
  { name := "set variable"
    forms := [
      text "set " ++ square ++ text " to " ++ restOfLine 1,
      oneOf ["establecer ", "fijar "] ++ square ++ text " a " ++ restOfLine 1]
    opcode := .setVariableTo
    literals := [⟨"VALUE", .text, 1, .operand⟩]
    fields := [⟨"VARIABLE", .named, 0, .menu⟩] },
  { name := "change variable"
    forms := [
      text "change " ++ square ++ text " by " ++ round,
      text "cambiar " ++ square ++ oneOf [" en ", " por "] ++ round]
    opcode := .changeVariableBy
    literals := [⟨"VALUE", .number, 1, .verbatim⟩]
    fields := [⟨"VARIABLE", .named, 0, .menu⟩] },
  { name := "show variable"
    forms := [text "show variable " ++ square, text "mostrar variable " ++ square]
    opcode := .showVariable
    fields := [⟨"VARIABLE", .named, 0, .menu⟩] },
  { name := "hide variable"
    forms := [text "hide variable " ++ square, oneOf ["esconder ", "ocultar "] ++ text "variable " ++ square]
    opcode := .hideVariable
    fields := [⟨"VARIABLE", .named, 0, .menu⟩] }]

def lists : List Rule := [
  { name := "add to list"
    forms := [
      text "add " ++ bracketed .shortest ++ text " to " ++ square,
      text "añadir " ++ bracketed .shortest ++ text " a " ++ square,
      text "agregar " ++ bracketed .shortest ++ text " a " ++ square]
    opcode := .addToList
    literals := [⟨"ITEM", .text, 0, .verbatim⟩]
    fields := [⟨"LIST", .named, 1, .menu⟩] },
  { name := "delete all of list"
    forms := [text "delete all of " ++ square, text "borrar todo de " ++ square]
    opcode := .deleteAllOfList
    fields := [⟨"LIST", .named, 0, .menu⟩] },
  { name := "delete of list"
    forms := [
      text "delete " ++ maybe ["item "] ++ round ++ text " of " ++ square,
      text "borrar " ++ maybe ["elemento "] ++ round ++ text " de " ++ square]
    opcode := .deleteOfList
    literals := [⟨"INDEX", .integer, 0, .verbatim⟩]
    fields := [⟨"LIST", .named, 1, .menu⟩] },
  { name := "insert at list"
    forms := [
      text "insert " ++ bracketed .shortest ++ text " at " ++ round ++ text " of " ++ square,
      text "insertar " ++ bracketed .shortest ++ text " en " ++ round ++ text " de " ++ square]
    opcode := .insertAtList
    literals := [⟨"ITEM", .text, 0, .verbatim⟩, ⟨"INDEX", .integer, 1, .verbatim⟩]
    fields := [⟨"LIST", .named, 2, .menu⟩] },
  { name := "replace item of list"
    forms := [
      text "replace item " ++ round ++ text " of " ++ square ++ text " with " ++ bracketed .shortest,
      text "reemplazar elemento " ++ round ++ text " de " ++ square ++ oneOf [" por ", " con "] ++
        bracketed .shortest]
    opcode := .replaceItemOfList
    literals := [⟨"INDEX", .integer, 0, .verbatim⟩, ⟨"ITEM", .text, 2, .verbatim⟩]
    fields := [⟨"LIST", .named, 1, .menu⟩] }]

def pen : List Rule := [
  { name := "pen down"
    forms := [text "pen down" ++ lineEnd, text "bajar l" ++ oneOf ["a", "á"] ++ text "piz" ++ lineEnd]
    opcode := .penDown },
  { name := "pen up"
    forms := [text "pen up" ++ lineEnd, text "subir l" ++ oneOf ["a", "á"] ++ text "piz" ++ lineEnd]
    opcode := .penUp },
  { name := "erase all"
    forms := [text "erase all" ++ lineEnd, text "clear" ++ lineEnd, text "borrar todo" ++ lineEnd]
    opcode := .eraseAll },
  { name := "stamp"
    forms := [text "stamp" ++ lineEnd, text "sellar" ++ lineEnd]
    opcode := .stamp },
  { name := "set pen color"
    forms := [
      text "set pen colo" ++ maybe ["u"] ++ text "r to " ++ swatch,
      text "fijar " ++ maybe ["el "] ++ text "color de" ++ maybe ["l"] ++ text " l" ++ oneOf ["a", "á"] ++
        text "piz a " ++ swatch]
    opcode := .setPenColor
    literals := [⟨"COLOR", .color, 0, .verbatim⟩] },
  { name := "change pen size"
    forms := [
      text "change pen size by " ++ round,
      text "cambiar " ++ maybe ["el "] ++ text "tamaño de" ++ maybe ["l"] ++ text " l" ++ oneOf ["a", "á"] ++
        text "piz en " ++ round]
    opcode := .changePenSizeBy
    literals := [⟨"SIZE", .number, 0, .verbatim⟩] },
  { name := "set pen size"
    forms := [
      text "set pen size to " ++ round,
      text "fijar " ++ maybe ["el "] ++ text "tamaño de" ++ maybe ["l"] ++ text " l" ++ oneOf ["a", "á"] ++
        text "piz a " ++ round]
    opcode := .setPenSizeTo
    literals := [⟨"SIZE", .number, 0, .verbatim⟩] }]

/-- All rules, in the order in which they are tried. -/
def rules : List Rule :=
  events ++ control ++ motion ++ looks ++ sound ++ sensing ++ data ++ lists ++ pen

end ScratchScript.Vocabulary
