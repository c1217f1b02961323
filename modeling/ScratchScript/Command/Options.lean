import ScratchScript.Files.Path
import ScratchScript.Project.Document
import ScratchScript.Graph.Basic

/-!
# Command line options

`Options.parse` reads the arguments of the command from left to right. The last value stays pending until the next
argument shows that it is complete, so a fault of the next argument itself is reported before a fault of that value.
-/

namespace ScratchScript.Command

/-! ## Numbers -/

/-- The number that the digits stand for. There must be one digit at least. -/
def digits? (text : List Char) : Option Nat :=
  if text.isEmpty || !text.all Char.isDigit then none
  else some (text.foldl (fun n c => 10 * n + (c.toNat - '0'.toNat)) 0)

/-- Reads a number without a sign or with a plus. -/
def unsigned? (text : List Char) : Option Nat :=
  match text with
  | c :: rest => if c == '+' then digits? rest else digits? text
  | [] => none

/-- Reads a number with an optional sign. -/
def signed? (text : List Char) : Option Int :=
  match text with
  | c :: rest => if c == '-' then (digits? rest).map fun n => -(n : Int) else (unsigned? text).map Int.ofNat
  | [] => none

/-- Reads a number of 64 bits. -/
def seed? (text : String) : Option UInt64 :=
  (unsigned? text.toList).bind fun n => if n < UInt64.size then some (UInt64.ofNat n) else none

/-- Reads a signed number of 32 bits. -/
def coordinate? (text : String) : Option Int32 :=
  (signed? text.toList).bind fun n =>
    if Int32.minValue.toInt ≤ n ∧ n ≤ Int32.maxValue.toInt then some (Int32.ofInt n) else none

/-! ## Options -/

/-- What the command is asked to do. -/
structure Options where
  input : Path
  output : Option Path := none
  json : Option Path := none
  reportSkipped : Bool := false
  seed : Option UInt64 := none
  xStep : Option Int32 := none
  naturalCostume : Bool := false
  spriteName : Option String := none
  deriving DecidableEq, Repr

namespace Options

def readsStandardInput (options : Options) : Bool :=
  options.input.toString == "-"

def outputPath (options : Options) : Path :=
  match options.output with
  | some path => path
  | none => if options.readsStandardInput then .ofString "project.sb3" else options.input.withExtension "sb3"

def stages (options : Options) : Nat :=
  if options.json.isSome then 4 else 3

def layout (options : Options) : Layout :=
  let base : Layout := {}
  { base with xStep := options.xStep.getD base.xStep }

def settings (options : Options) : Project.Settings :=
  let base : Project.Settings := {}
  { scaleCostume := !options.naturalCostume, spriteName := options.spriteName.getD base.spriteName }

end Options

/-- What is wrong with the arguments, or the wish for help. -/
inductive UsageError
  /-- There is no input. -/
  | missingInput
  /-- There is no such option, or no place for the value. -/
  | unknownArgument
  /-- An option has no value, or a path is empty. -/
  | missingValue
  /-- A value is no number of the right range. -/
  | badNumber
  /-- An option is given twice. -/
  | repeated
  /-- An option that takes no value has one. -/
  | needlessValue
  /-- The user asks for help. -/
  | helpRequested
  deriving DecidableEq, Repr

/-- The options with a value. -/
inductive Key
  | json
  | seed
  | xStep
  | spriteName
  deriving DecidableEq, Repr

/-- The options without a value. -/
inductive Flag
  | reportSkipped
  | naturalCostume
  deriving DecidableEq, Repr

def Key.names : List (String × Key) :=
  [("json", json), ("seed", seed), ("x-step", xStep), ("sprite-name", spriteName)]

def Flag.names : List (String × Flag) :=
  [("report-skipped", reportSkipped), ("no-svg-scale", naturalCostume)]

/-! ## Arguments -/

/-- What an argument is. -/
inductive Argument
  /-- The end of the options. -/
  | separator
  | unknown
  | help
  /-- An option without a value that is given one. -/
  | needless
  | flag (flag : Flag)
  /-- An option with a value, which may be attached. -/
  | option (key : Key) (attached : Option String)
  | value (text : String)
  deriving DecidableEq, Repr

namespace Argument

/-- The argument of a long name with an optional value. -/
def ofLong (name : String) (attached : Option String) : Argument :=
  match Key.names.lookup name with
  | some key => option key attached
  | none =>
    match Flag.names.lookup name with
    | some known => if attached.isSome then needless else flag known
    | none => if name != "help" then unknown else if attached.isSome then needless else help

/-- Parts a text at the first equals sign. -/
def splitValue (text : List Char) : String × Option String :=
  match text.dropWhile (· != '=') with
  | [] => (String.ofList text, none)
  | _ :: attached => (String.ofList (text.takeWhile (· != '=')), some (String.ofList attached))

/-- What the argument is. -/
def ofString (text : String) : Argument :=
  match text.toList with
  | first :: second :: rest =>
    if first != '-' then value text
    else if second == '-' then
      if rest.isEmpty then separator else ofLong (splitValue rest).1 (splitValue rest).2
    else if second == 'h' then help else unknown
  | _ => value text

end Argument

/-! ## Reading arguments -/

/-- A value that is not complete yet. -/
inductive Pending
  | nothing
  /-- An option, with its value if it is there. -/
  | option (key : Key) (value : Option String)
  | path (text : String)
  deriving DecidableEq, Repr

/-- What has been read. -/
structure Draft where
  input : Option Path := none
  output : Option Path := none
  json : Option Path := none
  reportSkipped : Bool := false
  seed : Option UInt64 := none
  xStep : Option Int32 := none
  naturalCostume : Bool := false
  spriteName : Option String := none
  pending : Pending := .nothing
  /-- Whether all arguments that follow are paths. -/
  optionsEnded : Bool := false
  deriving DecidableEq, Repr

namespace Draft

/-- Reads a path, which has at least one character. -/
def readPath (text : String) : Except UsageError Path :=
  if text.isEmpty then .error .missingValue else .ok (.ofString text)

def readNumber {α : Type} (number : Option α) : Except UsageError α :=
  match number with
  | some n => .ok n
  | none => .error .badNumber

def has (draft : Draft) : Key → Bool
  | .json => draft.json.isSome
  | .seed => draft.seed.isSome
  | .xStep => draft.xStep.isSome
  | .spriteName => draft.spriteName.isSome

def setValue (draft : Draft) (key : Key) (value : String) : Except UsageError Draft :=
  if draft.has key then .error .repeated else
    match key with
    | .json => do return { draft with json := some (← readPath value) }
    | .seed => do return { draft with seed := some (← readNumber (seed? value)) }
    | .xStep => do return { draft with xStep := some (← readNumber (coordinate? value)) }
    | .spriteName => .ok { draft with spriteName := some value }

def setFlag (draft : Draft) : Flag → Except UsageError Draft
  | .reportSkipped => if draft.reportSkipped then .error .repeated else .ok { draft with reportSkipped := true }
  | .naturalCostume => if draft.naturalCostume then .error .repeated else .ok { draft with naturalCostume := true }

/-- Sets the input, or the output if the input is there. -/
def setPath (draft : Draft) (path : Path) : Draft :=
  if draft.input.isNone then { draft with input := some path } else { draft with output := some path }

/-- Completes the pending value. -/
def settle (draft : Draft) : Except UsageError Draft :=
  let settled := { draft with pending := .nothing }
  match draft.pending with
  | .nothing => .ok settled
  | .option _ none => .error .missingValue
  | .option key (some value) => settled.setValue key value
  | .path text => do return settled.setPath (← readPath text)

/-- The number of paths, the pending one among them. -/
def pathCount (draft : Draft) : Nat :=
  draft.input.toList.length + draft.output.toList.length +
    (match draft.pending with
      | .path _ => 1
      | _ => 0)

def takePath (draft : Draft) (text : String) : Except UsageError Draft :=
  if 2 ≤ draft.pathCount then .error .unknownArgument
  else do return { ← draft.settle with pending := .path text }

/-- Takes a value: that of the pending option, or a path. -/
def takeValue (draft : Draft) (text : String) : Except UsageError Draft :=
  match draft.pending with
  | .option key none => .ok { draft with pending := .option key (some text) }
  | _ => draft.takePath text

/-- Takes an argument before the end of the options. -/
def takeArgument (draft : Draft) : Argument → Except UsageError Draft
  | .separator => .ok { draft with optionsEnded := true }
  | .unknown => .error .unknownArgument
  | .needless => .error .needlessValue
  | .help => do
    let _ ← draft.settle
    .error .helpRequested
  | .flag flag => do (← draft.settle).setFlag flag
  | .option key (some value) => do (← draft.settle).setValue key value
  | .option key none => do return { ← draft.settle with pending := .option key none }
  | .value text => draft.takeValue text

/-- Takes an argument. A step may start with a dash, so whatever follows its option is its value. -/
def take (draft : Draft) (text : String) : Except UsageError Draft :=
  if draft.optionsEnded then draft.takePath text
  else if draft.pending = .option .xStep none then draft.takeValue text
  else draft.takeArgument (.ofString text)

/-- The options, if there is an input. -/
def finish (draft : Draft) : Except UsageError Options :=
  match draft.input with
  | none => .error .missingInput
  | some input => .ok
    { input, output := draft.output, json := draft.json, reportSkipped := draft.reportSkipped, seed := draft.seed,
      xStep := draft.xStep, naturalCostume := draft.naturalCostume, spriteName := draft.spriteName }

end Draft

def Options.parse (arguments : List String) : Except UsageError Options := do
  let draft ← arguments.foldlM Draft.take {}
  (← draft.settle).finish

end ScratchScript.Command
