import ScratchScript.BlockId.Issuer
import ScratchScript.Script

/-!
# Compiled notation

`compile` turns notation into a block graph: the scripts are assembled, and then each block gets the id that the seed
gives to its place. A seed whose stream runs out of fresh ids gives none, and the blocks keep the names of their places.
-/

namespace ScratchScript

/-- What notation becomes. -/
structure Compiled where
  graph : Graph
  skipped : List SourceLine
  warnings : List Warning
  deriving DecidableEq, Repr

/-- The id of a place: the one that is listed for it, or else its name. -/
def placeId (ids : Array String) (index : Nat) : String :=
  ids.getD index (provisionalId index)

namespace Compiled

/-- The result of an assembly, with ids that name the places of blocks. -/
def ofAssembly (assembly : Assembly) : Compiled :=
  ⟨assembly.graph, assembly.skipped.toList, assembly.warnings.toList⟩

def relabel (compiled : Compiled) (label : Nat → String) : Compiled :=
  { compiled with graph := compiled.graph.relabel label }

def seeded (compiled : Compiled) (seed : UInt64) : Compiled :=
  compiled.relabel (placeId (BlockId.firstIds seed compiled.graph.size).toArray)

def scriptCount (compiled : Compiled) : Nat :=
  compiled.graph.topLevel.length

def summary (compiled : Compiled) : String :=
  s!"Built {compiled.graph.size} block(s) in {compiled.scriptCount} script(s); " ++
    s!"{compiled.skipped.length} line(s) skipped"

end Compiled

/-- Compiles notation, with ids that name the places of blocks. -/
def compilePlain (layout : Layout) (source : String) : Compiled :=
  .ofAssembly (.ofSource layout source)

/-- Compiles notation, with the ids of a seed. -/
def compile (layout : Layout) (seed : UInt64) (source : String) : Compiled :=
  (compilePlain layout source).seeded seed

end ScratchScript
