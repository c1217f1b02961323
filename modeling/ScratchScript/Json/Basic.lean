/-!
# JSON values

A project is stored as JSON. The members of an object are kept in increasing order of their names, so that a value has
one text; `putNamed` adds a member and lets a later one of the same name win.
-/

namespace ScratchScript

/-- Named entries with one more, in increasing order of the names. An entry of the same name gives way to it. -/
def putNamed {α : Type} (name : String) (value : α) : List (String × α) → List (String × α)
  | [] => [(name, value)]
  | (other, old) :: rest =>
    if name < other then (name, value) :: (other, old) :: rest
    else if name = other then (name, value) :: rest
    else (other, old) :: putNamed name value rest

inductive Json
  | null
  | bool (value : Bool)
  | int (value : Int)
  /-- A number with one decimal place, in tenths. -/
  | tenths (value : Int)
  | str (value : String)
  | arr (items : List Json)
  | obj (members : List (String × Json))

namespace Json

def putAll (members : List (String × Json)) (new : List (String × Json)) : List (String × Json) :=
  new.foldl (fun members (name, value) => putNamed name value members) members

/-- The object with the given members, the last one of each name. -/
def object (members : List (String × Json)) : Json :=
  .obj (putAll [] members)

/-- A text, or null if there is none. -/
def ofText? : Option String → Json
  | some text => .str text
  | none => .null

/-- The member of that name, if the value is an object that has one. -/
def member? : Json → String → Option Json
  | obj members, name => members.lookup name
  | _, _ => none

end Json

end ScratchScript
