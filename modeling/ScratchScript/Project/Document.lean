import ScratchScript.Project.BlockMap
import ScratchScript.Project.Costume
import ScratchScript.Text.Basic

/-!
# Projects

`Project.build` makes the description of a project with two targets, the stage and a sprite that holds all scripts. On
the way it collects the images of the costumes that the targets wear, by name, so that an image that several targets
share is there once.
-/

namespace ScratchScript.Project

/-- How a project is made. -/
structure Settings where
  scaleCostume : Bool := true
  spriteName : String := "Sprite1"
  deriving DecidableEq, Repr

/-- Why there is no project. -/
inductive Problem
  /-- The sprite has no name. -/
  | emptyName
  /-- The name of the sprite belongs to the stage. -/
  | reservedName (name : String)
  /-- A block links to a missing one. -/
  | missing (block : MissingBlock)
  deriving DecidableEq, Repr

def Problem.message : Problem → String
  | emptyName => "Sprite name must not be empty."
  | reservedName name => s!"Sprite name '{name}' is reserved for the stage."
  | missing block => block.message

def Settings.costume (settings : Settings) : Costume :=
  if settings.scaleCostume then .scaled else .natural

/-- The name of the sprite, if it can have it. -/
def Settings.checkedName (settings : Settings) : Except Problem String :=
  let name := Text.trim settings.spriteName.toList
  if name.isEmpty then .error .emptyName
  else if name.map Char.toLower == "stage".toList then .error (.reservedName (String.ofList name))
  else .ok (String.ofList name)

def targetMembers (isStage : Bool) (name : String) (blocks : Json) (costume : Json) (layer : Int) :
    List (String × Json) :=
  [("isStage", .bool isStage), ("name", .str name), ("variables", .object []), ("lists", .object []),
    ("broadcasts", .object []), ("blocks", blocks), ("comments", .object []), ("currentCostume", .int 0),
    ("costumes", .arr [costume]), ("sounds", .arr []), ("volume", .int 100), ("layerOrder", .int layer)]

def stageMembers : List (String × Json) :=
  [("tempo", .int 60), ("videoTransparency", .int 50), ("videoState", .str "on"), ("textToSpeechLanguage", .null)]

def spriteMembers : List (String × Json) :=
  [("visible", .bool true), ("x", .int 0), ("y", .int 0), ("size", .int 100), ("direction", .int 90),
    ("draggable", .bool false), ("rotationStyle", .str "all around")]

def target (isStage : Bool) (name : String) (blocks : Json) (costume : Json) (layer : Int) : Json :=
  .object (targetMembers isStage name blocks costume layer ++ if isStage then stageMembers else spriteMembers)

def extensions (graph : Graph) : List String :=
  if graph.usesCategory .pen then ["pen"] else []

def maker : Json :=
  .object [("semver", .str "3.0.0"), ("vm", .str "0.2.0"), ("agent", .str "sbblocks-rs/0.3.0")]

/-- The block map, or the problem with it. -/
def checkedBlocks (graph : Graph) : Except Problem Json :=
  match blockMap graph with
  | .ok blocks => .ok blocks
  | .error missing => .error (.missing missing)

/-! ## Building -/

/-- The images that the targets wear, in increasing order of their names. -/
abbrev Assets := List (String × String)

/-- Building may fail, and collects images. -/
abbrev Build := StateT Assets (Except Problem)

/-- Describes the costume of a target and keeps its image. -/
def buildCostume (settings : Settings) (name : String) : Build Json := do
  modify (putNamed settings.costume.fileName settings.costume.image)
  return settings.costume.json name

def buildTarget (settings : Settings) (isStage : Bool) (name : String) (blocks : Json) (layer : Int) : Build Json := do
  let costume ← buildCostume settings (if isStage then "backdrop1" else "costume1")
  return target isStage name blocks costume layer

def build (settings : Settings) (graph : Graph) : Build Json := do
  let name ← settings.checkedName
  let stage ← buildTarget settings true "Stage" (.object []) 0
  let blocks ← checkedBlocks graph
  let sprite ← buildTarget settings false name blocks 1
  return .object [("targets", .arr [stage, sprite]), ("monitors", .arr []),
    ("extensions", .arr ((extensions graph).map .str)), ("meta", maker)]

/-- The description of the project. -/
def document (settings : Settings) (graph : Graph) : Except Problem Json :=
  (build settings graph).run' []

end ScratchScript.Project
