import ScratchScript.Proofs.Nesting
import ScratchScript.Proofs.ReadBack
import ScratchScript.Proofs.Renaming

/-!
# Wiring a condition

What wiring a condition into a block does to scripts in the making, whatever they are (`addCondition_wired`). `Wired`
lists it:

* a frame: nothing but the graph changes, and of the blocks that were there only the owner, in its slot `CONDITION`;
* the new blocks: one for each node, in the order of a visit from the first of them, each below the block whose slot it
  is in;
* nothing is lost: the links of the new blocks give the condition back, and a slot for a missing operand is not there.

The blocks are laid out with all their links at once. Making them one after the other, a node before its operands and
its slots filled only after the operands are there, gives the same (`Drawing.bind_emit`).
-/

namespace ScratchScript

/-- Whether the block has slots for conditions and for nothing else. -/
def Opcode.takesOperands : Opcode → Bool
  | and | or | not => true
  | _ => false

/-- The second assembly is the first one with the condition in the slot of the owner. -/
structure Assembly.Wired (before : Assembly) (owner : Nat) (condition : Condition) (after : Assembly) : Prop where
  frames : after.frames = before.frames
  last : after.last = before.last
  scripts : after.scripts = before.scripts
  reports : after.skipped = before.skipped ∧ after.warnings = before.warnings
  size : after.graph.size = before.graph.size + condition.size
  keepsBut : before.graph.KeepsBut after.graph owner
  owner_slot : ∀ block, before.graph.block? owner = some block → ∃ changed, after.graph.block? owner = some changed ∧
    { changed with inputs := block.inputs } = block ∧ changed.input? "CONDITION" = some (.block before.graph.size) ∧
    ∀ name ≠ "CONDITION", changed.input? name = block.input? name
  walksOver : after.graph.WalksOver [before.graph.size] before.graph.size condition.size
  root_parent : ∃ root, after.graph.block? before.graph.size = some root ∧ root.parent = some owner
  operand_parent : ∀ index block target, before.graph.size ≤ index → after.graph.block? index = some block →
    target ∈ block.inner → ∃ operand, after.graph.block? target = some operand ∧ operand.parent = some index
  absent_slot : ∀ index block, before.graph.size ≤ index → after.graph.block? index = some block →
    block.opcode.takesOperands = true → ∀ name, block.target? name = none → block.input? name = none
  readBack : after.graph.conditionAt? condition.size (some before.graph.size) = some condition

/-! ## Slots for operands -/

theorem exists_of_mem_linkTo {name : String} {target : Option Nat} {entry : String × Input}
    (h : entry ∈ linkTo name target) : ∃ place, entry.2 = .block place := by
  obtain ⟨place, -, rfl⟩ := List.mem_map.1 h
  exact ⟨place, rfl⟩

theorem Condition.exists_of_mem_inputs {condition : Condition} {parent index : Nat} {block : Block}
    (h : block ∈ condition.blocks parent index) (hoperator : block.opcode.takesOperands = true) :
    ∀ entry ∈ block.inputs, ∃ place, entry.2 = .block place := by
  induction condition generalizing parent index with
  | missing => simp [Condition.blocks] at h
  | join connective left right ihleft ihright =>
    rcases List.mem_cons.1 h with rfl | hmem
    · intro entry hentry
      rw [slotFor_eq, slotFor_eq] at hentry
      rcases List.mem_append.1 hentry with hentry | hentry
      · exact exists_of_mem_linkTo hentry
      · exact exists_of_mem_linkTo hentry
    · rcases List.mem_append.1 hmem with hmem | hmem
      · exact ihleft hmem
      · exact ihright hmem
  | not operand ih =>
    rcases List.mem_cons.1 h with rfl | hmem
    · intro entry hentry
      rw [slotFor_eq] at hentry
      exact exists_of_mem_linkTo hentry
    · exact ih hmem
  | compare comparison left right =>
    obtain rfl := List.mem_singleton.1 h
    cases comparison <;> exact absurd hoperator Bool.false_ne_true
  | _ =>
    obtain rfl := List.mem_singleton.1 h
    exact absurd hoperator Bool.false_ne_true

theorem Block.exists_mem_inputs {block : Block} {target : Nat} (h : target ∈ block.inner) :
    ∃ name, (name, Input.block target) ∈ block.inputs := by
  obtain ⟨⟨name, input⟩, hmem, hinput⟩ := List.mem_filterMap.1 h
  cases input with
  | literal text => simp at hinput
  | block place =>
    obtain rfl : place = target := by simpa using hinput
    exact ⟨name, hmem⟩

theorem Block.input?_eq_none_of_target? {block : Block}
    (hblocks : ∀ entry ∈ block.inputs, ∃ place, entry.2 = .block place)
    {name : String} (h : block.target? name = none) : block.input? name = none := by
  cases hinput : block.input? name with
  | none => rfl
  | some input =>
    obtain ⟨front, after, hentries, -⟩ := List.lookup_eq_some_iff.1 hinput
    obtain ⟨place, rfl⟩ : ∃ place, input = .block place := hblocks (name, input) (by simp [hentries])
    simp [Block.target?, hinput] at h

/-! ## Wiring -/

theorem Condition.root?_of_ne_missing {condition : Condition} (h : condition ≠ .missing) (index : Nat) :
    condition.root? index = some index := by
  cases condition with
  | missing => exact absurd rfl h
  | _ => rfl

namespace Assembly

variable {assembly : Assembly} {owner : Nat} {condition : Condition}

theorem addCondition_eq (h : condition ≠ .missing) :
    assembly.addCondition owner condition =
      { assembly with
        graph := (assembly.graph.modify owner fun block =>
          block.setInput "CONDITION" (.block assembly.graph.size)).append
            (condition.blocks owner assembly.graph.size) } := by
  cases condition with
  | missing => exact absurd rfl h
  | _ => rfl

theorem mem_blocks_of_block? (h : condition ≠ .missing) {index : Nat} {block : Block}
    (hle : assembly.graph.size ≤ index)
    (hblock : (assembly.addCondition owner condition).graph.block? index = some block) :
    block ∈ condition.blocks owner assembly.graph.size := by
  rw [addCondition_eq h] at hblock
  refine Graph.mem_of_block?_append ?_ hblock
  rwa [Graph.size_modify]

/-- Wiring a condition changes what `Wired` lists, and makes the same blocks as drawing them one by one does. -/
theorem addCondition_wired (howner : owner < assembly.graph.size) (h : condition ≠ .missing) :
    assembly.Wired owner condition (assembly.addCondition owner condition) ∧
      ∀ seed, (Drawing.of? seed assembly).bind (Drawing.emit owner "CONDITION" condition) =
        Drawing.of? seed (assembly.addCondition owner condition) := by
  have hblocks := @mem_blocks_of_block? assembly owner condition h
  have hroot := condition.root?_of_ne_missing h assembly.graph.size
  generalize hafter : assembly.addCondition owner condition = after at hblocks ⊢
  have hgraph : after.graph = (assembly.graph.modify owner fun block =>
      block.setInput "CONDITION" (.block assembly.graph.size)).append (condition.blocks owner assembly.graph.size) := by
    rw [← hafter, addCondition_eq h]
  have hholds : after.graph.Holds assembly.graph.size (condition.blocks owner assembly.graph.size) := by
    have hnew := (assembly.graph.modify owner fun block =>
      block.setInput "CONDITION" (.block assembly.graph.size)).holds_append_self
        (condition.blocks owner assembly.graph.size)
    rwa [← hgraph, Graph.size_modify] at hnew
  have hsize : after.graph.size = assembly.graph.size + condition.size := by
    rw [hgraph, Graph.size_append, Graph.size_modify, Condition.length_blocks]
  have hrest : after.frames = assembly.frames ∧ after.last = assembly.last ∧ after.scripts = assembly.scripts ∧
      after.skipped = assembly.skipped ∧ after.warnings = assembly.warnings := by
    rw [← hafter, addCondition_eq h]
    exact ⟨rfl, rfl, rfl, rfl, rfl⟩
  obtain ⟨hframes, hlast, hscripts, hreports⟩ := hrest
  refine ⟨⟨hframes, hlast, hscripts, hreports, hsize, ?_, ?_, ?_, ?_, ?_, ?_, ?_⟩, ?_⟩
  · rw [hgraph]
    exact (Graph.keepsBut_modify _ _ _).append _
  · intro block hblock
    refine ⟨block.setInput "CONDITION" (.block assembly.graph.size), ?_, rfl, lookup_setEntry_self _ _ _, ?_⟩
    · rw [hgraph]
      exact Graph.block?_append_of_some (Graph.block?_modify_self hblock _) _
    · intro name hname
      exact lookup_setEntry_of_ne hname _ _
  · have hwalks := condition.walksOver hholds
    rwa [hroot] at hwalks
  · exact Condition.parent_of_root? hholds hroot
  · intro index block target hle hblock htarget
    have hlt := Graph.lt_size_of_block? hblock
    obtain ⟨hlinked, -⟩ := condition.linkedOn hholds (by omega) index block hle (by omega) hblock
    obtain ⟨name, hmem⟩ := Block.exists_mem_inputs htarget
    exact hlinked.input_parent name target hmem
  · intro index block hle hblock hoperator name
    exact Block.input?_eq_none_of_target? (Condition.exists_of_mem_inputs (hblocks hle hblock) hoperator)
  · have hread := condition.conditionAt?_of_holds hholds (Nat.le_refl _)
    rwa [hroot] at hread
  · intro seed
    rw [Drawing.bind_emit seed condition "CONDITION" howner, ← Drawing.addCondition_eq_plugged, hafter]

/-- The owner has a condition already, and two operands are missing. -/
theorem addCondition_wired_nested :
    let assembly : Assembly :=
      { graph := ⟨#[{ id := "a", opcode := .mouseDown, parent := some 1 },
          { id := "b", opcode := .ifThen, inputs := [("CONDITION", .block 0), ("SUBSTACK", .block 2)] },
          { id := "c", opcode := .stamp, parent := some 1 }]⟩,
        frames := [⟨1, .body, false⟩], last := some 2 }
    let condition : Condition := .join .and (.not .missing) (.join .or .missing (.compare .less "a" "b"))
    (1 < assembly.graph.size ∧ condition ≠ .missing) ∧
      assembly.Wired 1 condition (assembly.addCondition 1 condition) ∧
      (assembly.addCondition 1 condition).graph.conditionAt? 4 (some 3) = some condition := by
  intro assembly condition
  have howner : 1 < assembly.graph.size := by decide
  have hpresent : condition ≠ .missing := by decide
  have hwired := (addCondition_wired howner hpresent).1
  exact ⟨⟨howner, hpresent⟩, hwired, hwired.readBack⟩

end Assembly

end ScratchScript
