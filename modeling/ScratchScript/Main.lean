import ScratchScript.Command.Run

/-!
# The program

Reads the arguments and runs the command on the files of the machine.
-/

namespace ScratchScript

/-- What the user is shown on a wish for help. -/
def helpText : String :=
  "Turns block notation (English or Spanish) into a Scratch 3 project.\n\n" ++
  "Usage: scratchscript [OPTIONS] <INPUT> [OUTPUT]\n\n" ++
  "Arguments:\n" ++
  "  <INPUT>   Notation file, or '-' to read stdin\n" ++
  "  [OUTPUT]  Archive path, by default INPUT with an .sb3 extension\n\n" ++
  "Options:\n" ++
  "      --json <PATH>         Also write the block map as JSON to this path\n" ++
  "      --report-skipped      List lines that matched no block on stderr\n" ++
  "      --seed <SEED>         Seed block ids for reproducible output\n" ++
  "      --x-step <X_STEP>     Horizontal distance between scripts [default: 320]\n" ++
  "      --no-svg-scale        Keep the costume at its natural size\n" ++
  "      --sprite-name <NAME>  Name of the sprite holding the scripts [default: Sprite1]\n" ++
  "  -h, --help                Print help"

/-- What the user is shown when the arguments are wrong. -/
def usageText : Command.UsageError → String
  | .missingInput => "error: the input is missing"
  | .unknownArgument => "error: unexpected argument"
  | .missingValue => "error: a value is required"
  | .badNumber => "error: invalid number"
  | .repeated => "error: an option cannot be used multiple times"
  | .needlessValue => "error: unexpected value for an option"
  | .helpRequested => helpText

/-- Runs an action and says whether it succeeded. -/
def succeeds (action : IO Unit) : IO Bool :=
  try
    action
    return true
  catch _ => return false

/-- The text of bytes that are read, if reading succeeds and they are UTF-8. -/
def textOf? (read : IO ByteArray) : IO (Option String) :=
  try
    return String.fromUTF8? (← read)
  catch _ => return none

/-- Reads a stream to its end. -/
partial def readToEnd (stream : IO.FS.Stream) (sofar : ByteArray) : IO ByteArray := do
  let chunk ← stream.read 65536
  if chunk.isEmpty then return sofar
  readToEnd stream (sofar ++ chunk)

instance : Command.Host IO where
  standardInput := textOf? do readToEnd (← IO.getStdin) .empty
  isFile path := do
    try
      IO.FS.withFile path.toString .read fun handle => do
        let _ ← handle.read 1
      return true
    catch _ => return false
  readText path := textOf? (IO.FS.readBinFile path.toString)
  makeDirectories path := succeeds (IO.FS.createDirAll path.toString)
  write path contents := succeeds (IO.FS.writeBinFile path.toString contents.toBytes)
  tell line := IO.eprintln line
  log level line := do
    if level = .warning then IO.eprintln ("[WARN] " ++ line)
  anySeed := do
    let bytes ← IO.getRandomBytes 8
    return UInt64.ofNat (Digest.ofLittleEndian bytes.toList)

end ScratchScript

open ScratchScript in
def main (arguments : List String) : IO UInt32 := do
  match Command.Options.parse arguments with
  | .error .helpRequested =>
    IO.println helpText
    return 0
  | .error problem =>
    IO.eprintln (usageText problem)
    return 2
  | .ok options =>
    match ← (Command.run options : ExceptT Command.Failure IO Unit).run with
    | .ok () => return 0
    | .error failure =>
      IO.eprintln ("Error: " ++ failure.message)
      return 1
