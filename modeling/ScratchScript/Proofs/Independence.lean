import ScratchScript.Compiled
import ScratchScript.Proofs.Canvas
import ScratchScript.Proofs.Preorder

/-!
# Scripts are independent

`ofLines_append_hat`: what stands before a hat and what starts with it do not touch each other. Fed one after the other,
they give the blocks of the one and then the blocks of the other with their links moved on, whatever the lines before
the hat have left open. Only the places of the later scripts on the canvas depend on how many scripts there are before.

A hat closes all open blocks and ends the chain before it (`feed_hat`), so that from the hat on the run after other
lines mirrors the run from the start.
-/

namespace ScratchScript

def Compiled.ofLines (layout : Layout) (seed : UInt64) (lines : List SourceLine) : Compiled :=
  (Compiled.ofAssembly (.ofLines layout lines)).seeded seed

def Block.unnamed (block : Block) : Block :=
  { block with id := "" }

namespace Assembly

variable {layout : Layout}

/-- A hat is fed as if nothing were open and no chain went on. -/
theorem feed_hat {hat : SourceLine} {statement : Statement} (hline : hat.Says statement)
    (hhat : statement.opcode.isHat = true) (assembly : Assembly) :
    assembly.feed layout hat = { assembly with frames := [], last := none }.feed layout hat := by
  unfold feed
  rw [reading_eq_statement_iff.2 hline]
  dsimp only
  rw [if_pos hhat, if_pos hhat]
  rfl

theorem mirrors_reset (f : String → String) (assembly : Assembly) :
    Mirrors f {} assembly { assembly with frames := [], last := none } := by
  refine ⟨?_, rfl, rfl, ?_, ?_⟩
  · exact (List.append_nil _).symm
  · exact (List.append_nil _).symm
  · exact (List.append_nil _).symm

theorem mirrors_append_hat {hat : SourceLine} {statement : Statement} (hline : hat.Says statement)
    (hhat : statement.opcode.isHat = true) (before after : List SourceLine) :
    Mirrors id (ofLines layout (hat :: after)) (ofLines layout before) (ofLines layout (before ++ hat :: after)) := by
  have hlines : List.Forall₂ (SourceLine.Alike id) (hat :: after) (hat :: after) :=
    List.forall₂_same.2 fun line _ => SourceLine.Alike.refl id line
  have hrun := (mirrors_reset id (ofLines layout before)).feedAll layout hlines
  have hboth : ofLines layout (before ++ hat :: after) =
      feedAll layout { ofLines layout before with frames := [], last := none } (hat :: after) := by
    rw [ofLines, feedAll_append, feedAll_cons, feedAll_cons, feed_hat hline hhat]
    rfl
  rw [hboth]
  exact hrun

end Assembly

/-! ## Blocks without their ids -/

theorem mapTexts_id (block : Block) : block.mapTexts id = block := by
  have hinput : ∀ input : Input, input.mapText id = input := fun input => by cases input <;> rfl
  have hfield : ∀ field : Field, field.mapTexts id = field := fun field => by simp [Field.mapTexts]
  simp [Block.mapTexts, hinput, hfield]

theorem shift_zero (block : Block) : block.shift 0 = block := by
  have hinput : ∀ input : Input, input.shift 0 = input := fun input => by cases input <;> simp [Input.shift]
  simp [Block.shift, hinput]

theorem moved_id (n : Nat) (block : Block) : block.moved n id = (block.shift n).unnamed := by
  rw [Block.moved, mapTexts_id]
  rfl

theorem moved_zero_id (block : Block) : block.moved 0 id = block.unnamed := by
  rw [moved_id, shift_zero]

namespace Graph

theorem countP_topLevel (graph : Graph) : graph.toList.countP Block.topLevel = graph.topLevel.length := by
  have hplaces : ∀ (blocks : List Block) (first : Nat),
      blocks.countP Block.topLevel = (canvasPlaces first blocks).length := by
    intro blocks
    induction blocks with
    | nil => exact fun _ => rfl
    | cons block blocks ih =>
      intro first
      rw [canvasPlaces_cons, List.countP_cons, ih (first + 1)]
      split <;> simp
  exact hplaces graph.toList 0

theorem unnamed_relabel {α : Type} (graph : Graph) (label : Nat → String) (index : Nat) {g : Block → α}
    (hg : ∀ (block : Block) (id : String), g { block with id := id } = g block) :
    ((graph.relabel label).block? index).map g = (graph.block? index).map g := by
  rw [block?_relabel, Option.map_map]
  congr 1
  funext block
  exact hg block _

end Graph

/-- Scripts are independent: lines from a hat on give the same blocks after other lines as alone, further on, in later
places of the canvas and with other ids, and leave the blocks of the lines before as they are. -/
theorem ofLines_append_hat (layout : Layout) (before after : List SourceLine) {hat : SourceLine} {statement : Statement}
    (hline : hat.Says statement) (hhat : statement.opcode.isHat = true) (seed seedBefore seedAfter : UInt64) :
    let first := Compiled.ofLines layout seedBefore before
    let second := Compiled.ofLines layout seedAfter (hat :: after)
    let both := Compiled.ofLines layout seed (before ++ hat :: after)
    let n := first.graph.size
    both.graph.size = n + second.graph.size ∧
      (∀ index < n, (both.graph.block? index).map Block.unnamed = (first.graph.block? index).map Block.unnamed) ∧
      (∀ index, (both.graph.block? (n + index)).map Block.unnamed = (second.graph.block? index).map fun block =>
        { (block.shift n).unnamed with
          position := (second.graph.topLevel.idxOf? index).map
            fun script => layout.position (first.graph.topLevel.length + script) }) ∧
      both.skipped = first.skipped ++ second.skipped ∧ both.warnings = first.warnings ++ second.warnings := by
  intro first second both n
  have hmirrors := @Assembly.mirrors_append_hat layout hat statement hline hhat before after
  have hsettled := Assembly.settled_ofLines layout before
  have hblocks := hmirrors.toList_eq hsettled (Assembly.settled_ofLines layout _)
  have hn : n = (Assembly.ofLines layout before).graph.size := Graph.size_relabel _ _
  have hscripts : first.graph.topLevel.length = (Assembly.ofLines layout before).scripts := by
    rw [← hsettled.2, Graph.countP_topLevel]
    exact congrArg List.length (Graph.topLevel_relabel _ _)
  have htopLevel : second.graph.topLevel = canvasPlaces 0 (Assembly.ofLines layout (hat :: after)).graph.toList :=
    Graph.topLevel_relabel _ _
  -- both sides of the comparison at one place
  have hplace : ∀ index, (both.graph.block? index).map Block.unnamed =
      ((Assembly.ofLines layout (before ++ hat :: after)).graph.toList.map (Block.moved 0 id))[index]? := by
    intro index
    rw [List.getElem?_map, ← Graph.block?_eq_getElem?, funext moved_zero_id]
    exact Graph.unnamed_relabel _ _ _ fun _ _ => rfl
  refine ⟨?_, ?_, ?_, ?_, ?_⟩
  · have hsecond : second.graph.size = (Assembly.ofLines layout (hat :: after)).graph.size := Graph.size_relabel _ _
    rw [hn, hsecond]
    exact (Graph.size_relabel _ _).trans hmirrors.graph.size
  · intro index hlt
    rw [hplace, hblocks, List.getElem?_append_left (by simpa [← Graph.size_eq_length, ← hn] using hlt),
      List.getElem?_map, ← Graph.block?_eq_getElem?, funext moved_zero_id]
    exact (Graph.unnamed_relabel _ _ _ fun _ _ => rfl).symm
  · intro index
    have hoffset :
        n + index - ((Assembly.ofLines layout before).graph.toList.map (Block.moved 0 id)).length = index := by
      rw [List.length_map, ← Graph.size_eq_length, hn]
      omega
    rw [hplace, hblocks, List.getElem?_append_right (by simp [← Graph.size_eq_length, ← hn]), hoffset,
      List.getElem?_map, getElem?_settle layout _ 0, Option.map_map, ← Graph.block?_eq_getElem?, Nat.zero_add,
      funext (moved_id _), ← htopLevel, ← hscripts, ← hn]
    exact (Graph.unnamed_relabel _ _ _ fun _ _ => rfl).symm
  · have hskipped := hmirrors.skipped
    rw [show SourceLine.mapText id = id from rfl, List.map_id, List.map_id, List.map_id] at hskipped
    exact hskipped
  · exact hmirrors.warnings

/-- A loop that is left open does not reach over a hat, and the script of the hat stands in the second place. -/
theorem ofLines_append_hat_open :
    let before : List SourceLine := [⟨1, "forever"⟩]
    let hat : SourceLine := ⟨2, "when green flag clicked"⟩
    let after : List SourceLine := [⟨3, "show"⟩, ⟨4, "end"⟩]
    let second := Compiled.ofLines {} 8 (hat :: after)
    let both := Compiled.ofLines {} 9 (before ++ hat :: after)
    hat.Says ⟨.whenFlagClicked, [], [], none⟩ ∧ both.graph.size = 1 + second.graph.size ∧
      (both.graph.block? (1 + 0)).map Block.unnamed = (second.graph.block? 0).map fun block =>
        { (block.shift 1).unnamed with position := some ⟨350, 30⟩ } := by
  intro before hat after second both
  have hline : hat.Says ⟨.whenFlagClicked, [], [], none⟩ := by
    rw [SourceLine.Says]
    decide +kernel
  obtain ⟨hsize, -, hblocks, -⟩ := ofLines_append_hat {} before after hline (by decide) 9 7 8
  have hbefore : (Compiled.ofLines {} 7 before).graph.size = 1 := by decide +kernel
  have hposition : (second.graph.topLevel.idxOf? 0).map (fun script =>
      Layout.position {} ((Compiled.ofLines {} 7 before).graph.topLevel.length + script)) = some ⟨350, 30⟩ := by
    decide +kernel
  rw [hbefore] at hsize hblocks
  exact ⟨hline, hsize, by rw [hblocks 0, hposition]⟩

end ScratchScript
