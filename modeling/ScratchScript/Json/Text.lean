import ScratchScript.Json.Basic

/-!
# The text of a JSON value

`Json.compact` writes a value without white space, `Json.pretty` over several lines with an indent of two blanks. Both
escape quotes, backslashes and control characters, and nothing else.
-/

namespace ScratchScript.Json

def hexDigit (n : Nat) : Char :=
  if n < 10 then Char.ofNat (0x30 + n) else Char.ofNat (0x61 + (n - 10))

/-- A character inside quotes. -/
def escapeChar (c : Char) : List Char :=
  if c == '"' || c == '\\' then ['\\', c]
  else if c == '\x08' then ['\\', 'b']
  else if c == '\x0c' then ['\\', 'f']
  else if c == '\n' then ['\\', 'n']
  else if c == '\r' then ['\\', 'r']
  else if c == '\t' then ['\\', 't']
  else if c.toNat < 0x20 then ['\\', 'u', '0', '0', hexDigit (c.toNat / 16), hexDigit (c.toNat % 16)]
  else [c]

def quote (text : String) : String :=
  String.ofList ('"' :: text.toList.flatMap escapeChar ++ ['"'])

def tenthsText (value : Int) : String :=
  (if value < 0 then "-" else "") ++ s!"{value.natAbs / 10}.{value.natAbs % 10}"

/-- Items between brackets, one to a line at the given indent, or none. -/
def block (opening closing : String) (indent : Nat) (items : List String) : String :=
  if items.isEmpty then opening ++ closing else
    let margin := String.ofList (List.replicate indent ' ')
    opening ++ "\n" ++ ",\n".intercalate (items.map fun item => margin ++ "  " ++ item) ++ "\n" ++ margin ++ closing

mutual

/-- The text of a value without white space. -/
def compact : Json → String
  | null => "null"
  | bool value => if value then "true" else "false"
  | int value => toString value
  | tenths value => tenthsText value
  | str value => quote value
  | arr items => "[" ++ ",".intercalate (compactItems items) ++ "]"
  | obj members => "\x7b" ++ ",".intercalate (compactMembers members) ++ "\x7d"

def compactItems : List Json → List String
  | [] => []
  | item :: items => compact item :: compactItems items

def compactMembers : List (String × Json) → List String
  | [] => []
  | (name, value) :: members => (quote name ++ ":" ++ compact value) :: compactMembers members

end

mutual

/-- The text of a value over several lines, of which those after the first have at least the given indent. -/
def prettyAt (indent : Nat) : Json → String
  | null => "null"
  | bool value => if value then "true" else "false"
  | int value => toString value
  | tenths value => tenthsText value
  | str value => quote value
  | arr items => block "[" "]" indent (prettyItems (indent + 2) items)
  | obj members => block "\x7b" "\x7d" indent (prettyMembers (indent + 2) members)

def prettyItems (indent : Nat) : List Json → List String
  | [] => []
  | item :: items => prettyAt indent item :: prettyItems indent items

def prettyMembers (indent : Nat) : List (String × Json) → List String
  | [] => []
  | (name, value) :: members => (quote name ++ ": " ++ prettyAt indent value) :: prettyMembers indent members

end

/-- The text of a value over several lines. -/
def pretty (value : Json) : String :=
  prettyAt 0 value

end ScratchScript.Json
