import ScratchScript.Proofs.Canvas
import ScratchScript.Proofs.Preorder

/-!
# Scripts in a row

Which blocks start scripts, and where these stand: a block is on the canvas exactly if it is a hat or the very first
block, and the scripts stand in one row, in the order of their first blocks (`compile_inRow`).

* A statement goes onto the canvas only while there are no blocks at all, since from the first block on there is always
  a block to go after or a slot to go into. An else marker ends the chain before it but leaves its own slot open.
  `Assembly.Headed` says so of the assembly, and every line keeps it (`Headed.feed`).
* Coordinates are computed with a limit to 32 bits after each operation (`Layout.toInt_position_x`). Limits keep the
  order of numbers (`clamp_mono`), so the row does not turn back.
-/

namespace ScratchScript

/-! ## Limits of coordinates -/

/-- The integer nearest to a number among those of 32 bits. -/
def clamp (n : Int) : Int :=
  max (-2147483648) (min 2147483647 n)

theorem clamp_mono {m n : Int} (h : m ≤ n) : clamp m ≤ clamp n := by
  unfold clamp
  omega

theorem toInt_saturate (n : Int) : (saturate n).toInt = clamp n := by
  unfold saturate clamp
  split_ifs with hlow hhigh
  · have hlimit : (-2147483648 : Int32).toInt = -2147483648 := by decide
    omega
  · have hlimit : (2147483647 : Int32).toInt = 2147483647 := by decide
    omega
  · rw [Int32.toInt_ofInt_of_le (by omega) (by omega)]
    omega

namespace Layout

variable (layout : Layout)

/-- The horizontal place of a script in exact numbers. The number of the script and the two results are limited. -/
def rowX (script : Nat) : Int :=
  clamp (layout.xOrigin.toInt + clamp (layout.xStep.toInt * (min script 2147483647 : Nat)))

theorem toInt_position_x (script : Nat) : (layout.position script).x.toInt = layout.rowX script := by
  have hscript : clamp script = (min script 2147483647 : Nat) := by
    unfold clamp
    omega
  simp only [position, rowX, toInt_saturate, hscript]

variable {layout} {first second : Nat} (h : first ≤ second)
include h

theorem rowX_le_of_nonneg (hstep : 0 ≤ layout.xStep) : layout.rowX first ≤ layout.rowX second := by
  have hlimited : ((min first 2147483647 : Nat) : Int) ≤ (min second 2147483647 : Nat) := by omega
  have hproduct := Int.mul_le_mul_of_nonneg_left hlimited (Int32.le_iff_toInt_le.1 hstep)
  have hsum := Int.add_le_add_left (clamp_mono hproduct) layout.xOrigin.toInt
  exact clamp_mono hsum

theorem rowX_le_of_nonpos (hstep : layout.xStep ≤ 0) : layout.rowX second ≤ layout.rowX first := by
  have hlimited : ((min first 2147483647 : Nat) : Int) ≤ (min second 2147483647 : Nat) := by omega
  have hproduct := Int.mul_le_mul_of_nonpos_left (Int32.le_iff_toInt_le.1 hstep) hlimited
  have hsum := Int.add_le_add_left (clamp_mono hproduct) layout.xOrigin.toInt
  exact clamp_mono hsum

end Layout

/-! ## Which blocks start scripts -/

theorem Condition.isHat_of_opcode? {condition : Condition} {opcode : Opcode} (h : condition.opcode? = some opcode) :
    opcode.isHat = false := by
  cases condition with
  | missing => simp [opcode?] at h
  | join connective left right =>
    obtain rfl := Option.some.inj h
    cases connective <;> rfl
  | compare comparison left right =>
    obtain rfl := Option.some.inj h
    cases comparison <;> rfl
  | _ =>
    obtain rfl := Option.some.inj h
    rfl

namespace Graph

/-- The blocks on the canvas are the hats and the first block. -/
def StartsAtHats (graph : Graph) : Prop :=
  ∀ index block, graph.block? index = some block → (block.topLevel = true ↔ block.opcode.isHat = true ∨ index = 0)

namespace StartsAtHats

variable {graph : Graph} (h : graph.StartsAtHats)
include h

theorem modify {place : Nat} {change : Block → Block}
    (hchange : ∀ block, graph.block? place = some block →
      (change block).topLevel = block.topLevel ∧ (change block).opcode.isHat = block.opcode.isHat) :
    (graph.modify place change).StartsAtHats := by
  intro index changed hchanged
  rw [block?_modify, Option.map_eq_some_iff] at hchanged
  obtain ⟨block, hblock, rfl⟩ := hchanged
  split_ifs with hplace
  · subst hplace
    obtain ⟨htop, hhat⟩ := hchange block hblock
    rw [htop, hhat]
    exact h index block hblock
  · exact h index block hblock

theorem append {block : Block} {blocks : List Block}
    (hblock : block.topLevel = true ↔ block.opcode.isHat = true ∨ graph.size = 0)
    (hbelow : ∀ below ∈ blocks, below.topLevel = false ∧ below.opcode.isHat = false) :
    (graph.append (block :: blocks)).StartsAtHats := by
  intro index other hother
  rcases Nat.lt_trichotomy index graph.size with hlt | rfl | hgt
  · obtain ⟨old, hold⟩ := exists_block?_of_lt hlt
    obtain rfl := Option.some.inj ((block?_append_of_some hold _).symm.trans hother)
    exact h index old hold
  · obtain rfl := Option.some.inj ((block?_append_size graph block blocks).symm.trans hother)
    exact hblock
  · -- beyond the new block there is no first place any more
    have hmem : other ∈ blocks := by
      rw [show block :: blocks = [block] ++ blocks from rfl, ← append_append] at hother
      refine mem_of_block?_append ?_ hother
      rw [size_append, List.length_singleton]
      omega
    obtain ⟨htop, hhat⟩ := hbelow other hmem
    have hne : index ≠ 0 := by omega
    simp [htop, hhat, hne]

end StartsAtHats

end Graph

namespace Assembly

/-- Scripts start at hats, and a statement goes onto the canvas only to be the first block. -/
structure Headed (assembly : Assembly) : Prop where
  starts : assembly.graph.StartsAtHats
  canvas_iff : assembly.place = .canvas ↔ assembly.graph.size = 0

variable {layout : Layout} {assembly : Assembly}

theorem place_eq_canvas_iff : assembly.place = .canvas ↔ assembly.frames = [] ∧ assembly.last = none := by
  cases hframes : assembly.frames with
  | nil => cases hlast : assembly.last <;> simp [place, hframes, hlast]
  | cons frame outer =>
    cases hlast : assembly.last with
    | none => simp [place, hframes, hlast]
    | some previous => cases hempty : frame.isEmpty <;> simp [place, hframes, hlast, hempty]

theorem isSome_spot_iff : (assembly.spot layout).isSome = true ↔ assembly.place = .canvas := by
  unfold spot
  cases assembly.place <;> simp

theorem starts_joined (h : assembly.graph.StartsAtHats) : assembly.joined.StartsAtHats := by
  unfold joined
  split
  · exact h.modify fun block _ => ⟨rfl, rfl⟩
  · exact h.modify fun block _ => ⟨rfl, rfl⟩
  · exact h

namespace Headed

theorem empty : Headed {} :=
  ⟨fun index block h => by simp [Graph.block?] at h, by decide⟩

variable (h : assembly.Headed)
include h

theorem close (line : Nat) : (assembly.close line).Headed := by
  unfold Assembly.close
  split
  · exact ⟨h.starts, h.canvas_iff⟩
  · rename_i frame outer hframes
    have hsize : assembly.graph.size ≠ 0 := by
      rw [Ne, ← h.canvas_iff, place_eq_canvas_iff, hframes]
      simp
    refine ⟨h.starts, iff_of_false ?_ hsize⟩
    simp [place_eq_canvas_iff]

theorem enterElse (line : Nat) : (assembly.enterElse line).Headed := by
  unfold Assembly.enterElse
  split
  · exact ⟨h.starts, h.canvas_iff⟩
  · rename_i frame outer hframes
    split
    · exact h
    · rename_i owner howner
      split_ifs with helse
      · refine ⟨h.starts.modify fun block hblock => ⟨rfl, ?_⟩, iff_of_false ?_ ?_⟩
        · -- the block was an `if` and becomes one with two branches
          obtain rfl := Option.some.inj (howner.symm.trans hblock)
          have haccepts : owner.opcode.acceptsElse = true := (Bool.and_eq_true_iff.1 helse).1
          exact (Opcode.isHat_of_opensBody (Opcode.opensBody_of_acceptsElse haccepts)).symm
        · simp [place_eq_canvas_iff]
        · have hlt := Graph.lt_size_of_block? howner
          rw [Graph.size_modify]
          omega
      · exact ⟨h.starts, h.canvas_iff⟩

theorem startScript {statement : Statement} (hhat : statement.opcode.isHat = true) :
    (assembly.startScript layout statement).Headed := by
  unfold Assembly.startScript addTopLevel
  refine ⟨?_, iff_of_false ?_ ?_⟩
  · rw [Graph.push_eq_append]
    exact h.starts.append (iff_of_true rfl (.inl hhat)) (by simp)
  · simp [place_eq_canvas_iff]
  · rw [Graph.push_eq_append, Graph.size_append]
    simp

theorem addStatement {statement : Statement} (hhat : statement.opcode.isHat = false) :
    (assembly.addStatement layout statement).Headed := by
  have hblock : (statement.block (assembly.spot layout) assembly.container assembly.graph.size).topLevel = true ↔
      (statement.block (assembly.spot layout) assembly.container assembly.graph.size).opcode.isHat = true ∨
        assembly.joined.size = 0 := by
    rw [Statement.block_topLevel, Statement.block_opcode, hhat, size_joined, isSome_spot_iff, h.canvas_iff]
    simp
  have hbelow : ∀ below ∈ statement.conditionBlocks assembly.graph.size,
      below.topLevel = false ∧ below.opcode.isHat = false := by
    intro below hmem
    obtain ⟨⟨node, hnode⟩, htop, -⟩ := Condition.of_mem_blocks hmem
    exact ⟨htop, Condition.isHat_of_opcode? hnode⟩
  have hgrown := (starts_joined h.starts).append hblock hbelow
  have hsize : (assembly.joined.append
      (statement.block (assembly.spot layout) assembly.container assembly.graph.size ::
        statement.conditionBlocks assembly.graph.size)).size ≠ 0 := by
    rw [Graph.size_append, List.length_cons]
    omega
  rw [addStatement_eq]
  dsimp only
  split
  · exact ⟨hgrown, iff_of_false (by simp [place_eq_canvas_iff, openBody]) hsize⟩
  · exact ⟨hgrown, iff_of_false (by simp [place_eq_canvas_iff, grown]) hsize⟩

/-- A line keeps the hats in front. -/
theorem feed (line : SourceLine) : (assembly.feed layout line).Headed := by
  unfold Assembly.feed
  cases line.reading with
  | blank => exact h
  | unknown => exact ⟨h.starts, h.canvas_iff⟩
  | statement statement =>
    dsimp only
    split_ifs with hhat
    · exact h.startScript hhat
    · exact h.addStatement (Bool.eq_false_iff.2 hhat)
  | marker marker =>
    cases marker with
    | close => exact h.close line.number
    | otherwise => exact h.enterElse line.number

theorem feedAll (lines : List SourceLine) : (assembly.feedAll layout lines).Headed := by
  induction lines generalizing assembly with
  | nil => exact h
  | cons line lines ih => exact ih (h.feed line)

end Headed

end Assembly

/-! ## Where scripts stand -/

namespace Graph

/-- The positions of the scripts, in the order of their first blocks. -/
def scriptPositions (graph : Graph) : List Position :=
  graph.topLevel.filterMap fun index => (graph.block? index).bind Block.position

/-- Scripts start at hats, and only the first may lack one. They stand in a row as the layout has it, other blocks have
no position, and the row does not turn back, however many scripts there are. -/
structure InRow (layout : Layout) (graph : Graph) : Prop where
  starts : graph.StartsAtHats
  headless_first : ∀ number index block, graph.topLevel[number]? = some index → graph.block? index = some block →
    block.opcode.isHat = false → number = 0
  position_eq : ∀ number index, graph.topLevel[number]? = some index → ∃ block position,
    graph.block? index = some block ∧ block.position = some position ∧
      position.x.toInt = layout.rowX number ∧ position.y = layout.y
  position_none : ∀ index block, graph.block? index = some block → block.topLevel = false → block.position = none
  rising : 0 ≤ layout.xStep → graph.scriptPositions.Pairwise fun first second => first.x ≤ second.x
  falling : layout.xStep ≤ 0 → graph.scriptPositions.Pairwise fun first second => second.x ≤ first.x

variable {layout : Layout} {graph : Graph}

theorem pairwise_topLevel (graph : Graph) : graph.topLevel.Pairwise (· < ·) := by
  rw [topLevel_eq_topLevelOn]
  exact List.Pairwise.filter _ (List.pairwise_lt_range' ..)

theorem idxOf?_topLevel {number index : Nat} (h : graph.topLevel[number]? = some index) :
    graph.topLevel.idxOf? index = some number := by
  obtain ⟨hlt, rfl⟩ := List.getElem?_eq_some_iff.1 h
  rw [List.idxOf?_eq_some_iff]
  refine ⟨hlt, rfl, fun other hother heq => ?_⟩
  have hless := List.pairwise_iff_getElem.1 graph.pairwise_topLevel other number (by omega) hlt hother
  omega

theorem eq_zero_of_topLevel {number : Nat} (h : graph.topLevel[number]? = some 0) : number = 0 := by
  cases number with
  | zero => rfl
  | succ number =>
    obtain ⟨hlt, hzero⟩ := List.getElem?_eq_some_iff.1 h
    have hless := List.pairwise_iff_getElem.1 graph.pairwise_topLevel 0 (number + 1) (by omega) hlt (by omega)
    omega

namespace Settled

variable {scripts : Nat} (h : graph.Settled layout scripts)
include h

theorem position_eq {index : Nat} {block : Block} (hblock : graph.block? index = some block) :
    block.position = (graph.topLevel.idxOf? index).map layout.position := by
  have hsettled := getElem?_settle layout 0 0 index graph.toList
  rw [h.1, ← block?_eq_getElem?, hblock, Option.map_some, Option.some.injEq, Nat.zero_add] at hsettled
  have hposition := congrArg Block.position hsettled
  simp only [Nat.zero_add] at hposition
  exact hposition

theorem position_of_topLevel {number index : Nat} (hindex : graph.topLevel[number]? = some index) :
    (graph.block? index).bind Block.position = some (layout.position number) := by
  obtain ⟨block, hblock, -⟩ := mem_topLevel_iff.1 (List.mem_of_getElem? hindex)
  rw [hblock, Option.bind_some, h.position_eq hblock, idxOf?_topLevel hindex, Option.map_some]

theorem scriptPositions_eq : graph.scriptPositions = (List.range graph.topLevel.length).map layout.position := by
  have hpositions : graph.topLevel.map (fun index => (graph.block? index).bind Block.position) =
      (List.range graph.topLevel.length).map fun number => some (layout.position number) := by
    apply List.ext_getElem?
    intro number
    rw [List.getElem?_map, List.getElem?_map]
    cases hindex : graph.topLevel[number]? with
    | none =>
      rw [List.getElem?_eq_none (by simpa using hindex)]
      rfl
    | some index =>
      rw [List.getElem?_range (List.getElem?_eq_some_iff.1 hindex).1, Option.map_some, Option.map_some,
        h.position_of_topLevel hindex]
  calc graph.scriptPositions
      = (graph.topLevel.map fun index => (graph.block? index).bind Block.position).filterMap id := by
        rw [List.filterMap_map]
        rfl
    _ = (List.range graph.topLevel.length).map layout.position := by
        rw [hpositions, List.filterMap_map, ← List.filterMap_eq_map]
        rfl

theorem inRow (hstarts : graph.StartsAtHats) : graph.InRow layout := by
  have hpairwise : ∀ {R : Position → Position → Prop},
      (∀ first second, first < second → R (layout.position first) (layout.position second)) →
        graph.scriptPositions.Pairwise R := by
    intro R hR
    rw [h.scriptPositions_eq, List.pairwise_map]
    exact List.pairwise_lt_range.imp fun hlt => hR _ _ hlt
  refine ⟨hstarts, ?_, ?_, ?_, fun hstep => hpairwise ?_, fun hstep => hpairwise ?_⟩
  · intro number index block hindex hblock hhat
    obtain ⟨other, hother, htop⟩ := mem_topLevel_iff.1 (List.mem_of_getElem? hindex)
    obtain rfl := Option.some.inj (hblock.symm.trans hother)
    obtain rfl : index = 0 := by simpa [hhat] using (hstarts index block hblock).1 htop
    exact eq_zero_of_topLevel hindex
  · intro number index hindex
    obtain ⟨block, hblock, hposition⟩ := Option.bind_eq_some_iff.1 (h.position_of_topLevel hindex)
    exact ⟨block, _, hblock, hposition, layout.toInt_position_x number, rfl⟩
  · intro index block hblock htop
    have hnot : index ∉ graph.topLevel := by
      rw [mem_topLevel_iff]
      rintro ⟨other, hother, hotherTop⟩
      obtain rfl := Option.some.inj (hblock.symm.trans hother)
      simp [htop] at hotherTop
    rw [h.position_eq hblock, List.idxOf?_eq_none_iff.2 hnot, Option.map_none]
  · intro first second hlt
    rw [Int32.le_iff_toInt_le, layout.toInt_position_x, layout.toInt_position_x]
    exact Layout.rowX_le_of_nonneg (Nat.le_of_lt hlt) hstep
  · intro first second hlt
    rw [Int32.le_iff_toInt_le, layout.toInt_position_x, layout.toInt_position_x]
    exact Layout.rowX_le_of_nonpos (Nat.le_of_lt hlt) hstep

end Settled

theorem InRow.relabel (h : graph.InRow layout) (label : Nat → String) : (graph.relabel label).InRow layout := by
  have hpositions : (graph.relabel label).scriptPositions = graph.scriptPositions := by
    unfold scriptPositions
    rw [topLevel_relabel]
    congr 1
    funext index
    rw [block?_relabel]
    cases graph.block? index <;> rfl
  have hold : ∀ {index block}, (graph.relabel label).block? index = some block →
      ∃ old, graph.block? index = some old ∧ block = { old with id := label index } := by
    intro index block hblock
    rw [block?_relabel, Option.map_eq_some_iff] at hblock
    obtain ⟨old, hold, rfl⟩ := hblock
    exact ⟨old, hold, rfl⟩
  refine ⟨?_, ?_, ?_, ?_, hpositions ▸ h.rising, hpositions ▸ h.falling⟩
  · intro index block hblock
    obtain ⟨old, hgraph, rfl⟩ := hold hblock
    exact h.starts index old hgraph
  · intro number index block hindex hblock hhat
    rw [topLevel_relabel] at hindex
    obtain ⟨old, hgraph, rfl⟩ := hold hblock
    exact h.headless_first number index old hindex hgraph hhat
  · intro number index hindex
    rw [topLevel_relabel] at hindex
    obtain ⟨old, position, hgraph, hposition⟩ := h.position_eq number index hindex
    exact ⟨_, position, block?_relabel_of_some hgraph label, hposition⟩
  · intro index block hblock htop
    obtain ⟨old, hgraph, rfl⟩ := hold hblock
    exact h.position_none index old hgraph htop

end Graph

/-- Whatever the source and the layout, the scripts of the compiled graph stand in a row, with the ids of any seed as
well as with ids that name places. -/
theorem compile_inRow (layout : Layout) (seed : UInt64) (source : String) :
    (compile layout seed source).graph.InRow layout ∧ (compilePlain layout source).graph.InRow layout := by
  have hsettled := Assembly.settled_ofLines layout (Source.lines source.toList)
  have hheaded := @Assembly.Headed.feedAll layout _ .empty (Source.lines source.toList)
  have hplain : (compilePlain layout source).graph.InRow layout := hsettled.inRow hheaded.starts
  exact ⟨hplain.relabel _, hplain⟩

end ScratchScript
