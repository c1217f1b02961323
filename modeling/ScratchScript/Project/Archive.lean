import ScratchScript.Digest
import ScratchScript.Json.Text
import ScratchScript.Project.Document

/-!
# Archives

A project is stored as an archive: the description, and then the images that its targets wear. `Archive.bytes` writes
the archive with its entries as they are, without compression. `Progress` is how far a task of several steps is, and the
line that shows it.
-/

namespace ScratchScript

/-- A named text in an archive. -/
structure Entry where
  name : String
  text : String
  deriving DecidableEq, Repr

namespace Entry

/-- The contents. -/
def bytes (entry : Entry) : List UInt8 :=
  entry.text.toUTF8.toList

def size (entry : Entry) : Nat :=
  entry.text.utf8ByteSize

def checksum (entry : Entry) : UInt32 :=
  Digest.crc32 entry.bytes

/-- What both headers of an entry say: version, flags for names in UTF-8, method, time and date, checksum, sizes,
length of the name, length of extra data. -/
def headerBytes (entry : Entry) : List UInt8 :=
  let size := Digest.littleEndian 4 entry.size
  [20, 0, 0, 8, 0, 0, 0, 0, 33, 0] ++ Digest.littleEndian 4 entry.checksum.toNat ++ size ++ size ++
    Digest.littleEndian 2 entry.name.utf8ByteSize ++ [0, 0]

def localBytes (entry : Entry) : List UInt8 :=
  [0x50, 0x4b, 3, 4] ++ entry.headerBytes ++ entry.name.toUTF8.toList ++ entry.bytes

/-- The line of the directory for an entry that starts at the offset. -/
def directoryBytes (entry : Entry) (offset : Nat) : List UInt8 :=
  [0x50, 0x4b, 1, 2, 20, 0] ++ entry.headerBytes ++ List.replicate 10 0 ++ Digest.littleEndian 4 offset ++
    entry.name.toUTF8.toList

end Entry

/-- Entries in the order in which they are stored. -/
structure Archive where
  entries : List Entry
  deriving DecidableEq, Repr

namespace Archive

/-- The directory of entries of which the first starts at the offset. -/
def directory (offset : Nat) : List Entry → List UInt8
  | [] => []
  | entry :: rest => entry.directoryBytes offset ++ directory (offset + entry.localBytes.length) rest

/-- The archive as a file: the entries, the directory and where to find it. -/
def bytes (archive : Archive) : List UInt8 :=
  let contents := archive.entries.flatMap Entry.localBytes
  let directory := directory 0 archive.entries
  let count := Digest.littleEndian 2 archive.entries.length
  contents ++ directory ++ [0x50, 0x4b, 5, 6, 0, 0, 0, 0] ++ count ++ count ++
    Digest.littleEndian 4 directory.length ++ Digest.littleEndian 4 contents.length ++ [0, 0]

def names (archive : Archive) : List String :=
  archive.entries.map (·.name)

/-- The entries after the description. -/
def images (archive : Archive) : List Entry :=
  archive.entries.tail

end Archive

/-! ## Progress -/

/-- How far a task is. -/
structure Progress where
  step : Nat
  total : Nat
  label : String
  deriving DecidableEq, Repr

namespace Progress

/-- A bar of `width` cells that is filled in proportion, rounded to the nearest cell. -/
def bar (step total width : Nat) : String :=
  let filled := (step * width + total / 2) / total
  String.ofList ('[' :: (List.range width).map (fun i => if i < filled then '=' else '-') ++ [']'])

def line (progress : Progress) : String :=
  s!"[Translate] {progress.label}... ({progress.step}/{progress.total}) " ++ bar progress.step progress.total 14

/-- The progress inside the last stage of a task, of which the stages before it are done. -/
def inStage (progress : Progress) (stage : Nat) : Progress :=
  { progress with step := stage + progress.step - 1, total := stage + progress.total - 1 }

end Progress

/-! ## The archive of a project -/

namespace Project

def archive (settings : Settings) (graph : Graph) : Except Problem Archive := do
  let (description, assets) ← (build settings graph).run []
  return ⟨⟨"project.json", description.compact⟩ :: assets.map fun (name, image) => ⟨name, image⟩⟩

/-- What is reported while an archive of so many images is put together. -/
def archiveProgress (assets : Nat := 1) : List Progress :=
  ⟨1, 1, "Writing project.json"⟩ ::
    (List.range assets).map fun index => ⟨index + 1, max assets 1, "Packaging assets"⟩

end Project

end ScratchScript
