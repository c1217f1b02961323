import ScratchScript.Proofs.Graph
import ScratchScript.Proofs.Program

/-!
# Feeding a program

`feedAll_chain` and `feedAll_program`: the lines that write a program down assemble into the blocks of the program. The
argument runs along the writing. What the assembly does with one statement depends on three things only: where the
statement goes (`joined` is the graph with the link to it set), what its parent is (`container`), and whether it stands
on the canvas (`spot`). An assembly that grows by some blocks at that place is `grown`, and one that has in addition
opened the first of them is `opened`. Each step of a writing takes one of these forms into another:

* a statement grows the assembly by its own blocks (`addStatement_simple`, `addStatement_header`);
* a chain in the empty slot of an open block is growth of that block's own blocks (`plus_opened`), and so is a chain
  after the first of the new blocks (`plus_grown`);
* the markers close the block or move it to its second slot (`close_opened`, `enterElse_opened`).
-/

namespace ScratchScript.Assembly

variable (layout : Layout) (assembly : Assembly)

/-! ## Where the next statement goes -/

/-- The graph with the link to the next statement set. -/
def joined : Graph :=
  match assembly.place with
  | .slot owner slot => assembly.graph.modify owner fun block => block.setInput slot.name (.block assembly.graph.size)
  | .after previous => assembly.graph.modify previous fun block => { block with next := some assembly.graph.size }
  | .canvas => assembly.graph

/-- The parent of the next statement. -/
def container : Option Nat :=
  match assembly.place with
  | .slot owner _ => some owner
  | .after previous => (assembly.graph.block? previous).bind (Graph.containerAfter previous)
  | .canvas => none

/-- The place of the next statement on the canvas, if it goes there. -/
def spot : Option Position :=
  match assembly.place with
  | .canvas => some (layout.position assembly.scripts)
  | _ => none

/-- The assembly with some more blocks where the next statement goes. -/
def grown (blocks : List Block) (last : Option Nat) : Assembly :=
  { assembly with
    graph := assembly.joined.append blocks
    frames := fillSlot assembly.frames
    last := last
    scripts := assembly.scripts + if (assembly.spot layout).isSome then 1 else 0 }

/-- The assembly with some more blocks, of which the first is open. -/
def opened (block : Block) (blocks : List Block) (slot : Slot) (isEmpty : Bool) (last : Option Nat) : Assembly :=
  { assembly.grown layout (block :: blocks) last with
    frames := ⟨assembly.graph.size, slot, isEmpty⟩ :: fillSlot assembly.frames }

/-- The assembly with the blocks of a chain where the next statement goes. -/
def plus (chain : Chain Statement) : Assembly :=
  match chain with
  | .done => assembly
  | chain =>
    assembly.grown layout (chain.blocks (assembly.spot layout) assembly.container assembly.graph.size)
      (chain.lastFrom assembly.last assembly.graph.size)

variable {layout assembly}

@[simp] theorem fillSlot_fillSlot (frames : List Frame) : fillSlot (fillSlot frames) = fillSlot frames := by
  cases frames <;> rfl

theorem fillSlot_of_place_after {previous : Nat} (h : assembly.place = .after previous) :
    fillSlot assembly.frames = assembly.frames := by
  cases hframes : assembly.frames with
  | nil => rfl
  | cons frame outer =>
    cases hlast : assembly.last with
    | none => simp [place, hframes, hlast] at h
    | some last =>
      cases hempty : frame.isEmpty with
      | true => simp [place, hframes, hlast, hempty] at h
      | false => simp [fillSlot, ← hempty]

theorem fillSlot_of_place_canvas (h : assembly.place = .canvas) : fillSlot assembly.frames = assembly.frames := by
  cases hframes : assembly.frames with
  | nil => rfl
  | cons frame outer =>
    cases hlast : assembly.last with
    | none => simp [place, hframes, hlast] at h
    | some last => cases hempty : frame.isEmpty <;> simp [place, hframes, hlast, hempty] at h

@[simp] theorem size_joined : assembly.joined.size = assembly.graph.size := by
  unfold joined
  split <;> simp

@[simp] theorem graph_grown (blocks : List Block) (last : Option Nat) :
    (assembly.grown layout blocks last).graph = assembly.joined.append blocks := rfl

theorem size_grown (block : Block) (blocks : List Block) (last : Option Nat) :
    (assembly.grown layout (block :: blocks) last).graph.size = assembly.graph.size + 1 + blocks.length := by
  rw [graph_grown, Graph.size_append, size_joined, List.length_cons]
  omega

theorem grown_of_spot (h : assembly.spot layout = none) (blocks : List Block) (last : Option Nat) :
    assembly.grown layout blocks last =
      { assembly with
        graph := assembly.joined.append blocks
        frames := fillSlot assembly.frames
        last := last } := by
  simp [grown, h]

theorem joined_of_slot {owner : Nat} {slot : Slot} (h : assembly.place = .slot owner slot) :
    assembly.joined =
      assembly.graph.modify owner fun block => block.setInput slot.name (.block assembly.graph.size) := by
  simp [joined, h]

theorem joined_of_after {previous : Nat} (h : assembly.place = .after previous) :
    assembly.joined =
      assembly.graph.modify previous fun block => { block with next := some assembly.graph.size } := by
  simp [joined, h]

theorem plus_of_ne_done {chain : Chain Statement} (h : chain ≠ .done) :
    assembly.plus layout chain =
      assembly.grown layout (chain.blocks (assembly.spot layout) assembly.container assembly.graph.size)
        (chain.lastFrom assembly.last assembly.graph.size) := by
  cases chain <;> simp [plus] at h ⊢

theorem place_grown (blocks : List Block) (index : Nat) :
    (assembly.grown layout blocks (some index)).place = .after index := by
  cases hframes : assembly.frames <;> simp [grown, place, hframes, fillSlot]

theorem place_opened (block : Block) (blocks : List Block) (slot : Slot) (last : Option Nat) :
    (assembly.opened layout block blocks slot true last).place = .slot assembly.graph.size slot := by
  cases last <;> simp [opened, grown, place]

/-! ## One statement -/

theorem addBlock_ofStatement (id : String) (statement : Statement) :
    assembly.addBlock layout (Block.ofStatement id statement) =
      assembly.grown layout
        [{ Block.ofStatement id statement with
            parent := assembly.container
            topLevel := (assembly.spot layout).isSome
            position := assembly.spot layout }]
        (some assembly.graph.size) := by
  unfold addBlock grown joined container spot
  cases hplace : assembly.place with
  | slot owner slot => simp [addInSlot, Graph.push_eq_append, Block.ofStatement]
  | after previous => simp [addAfter, Graph.push_eq_append, Block.ofStatement, fillSlot_of_place_after hplace]
  | canvas => simp [addTopLevel, Graph.push_eq_append, Block.ofStatement, fillSlot_of_place_canvas hplace]

theorem addCondition_grown (block : Block) (last : Option Nat) (condition : Condition) :
    (assembly.grown layout [block] last).addCondition assembly.graph.size condition =
      assembly.grown layout
        (block.holding "CONDITION" (condition.root? (assembly.graph.size + 1)) ::
          condition.blocks assembly.graph.size (assembly.graph.size + 1)) last := by
  have hmodify : ∀ change : Block → Block,
      (assembly.joined.append [block]).modify assembly.graph.size change =
        assembly.joined.append [change block] := by
    intro change
    rw [← size_joined, Graph.modify_append_size]
  cases condition <;>
    simp [addCondition, grown, hmodify, Graph.append_append, Block.holding, Condition.root?, Condition.blocks]

theorem addStatement_eq (statement : Statement) :
    assembly.addStatement layout statement =
      let placed := assembly.grown layout
        (statement.block (assembly.spot layout) assembly.container assembly.graph.size ::
          statement.conditionBlocks assembly.graph.size) (some assembly.graph.size)
      if statement.opcode.opensBody then placed.openBody assembly.graph.size else placed := by
  have hwired := @addCondition_grown layout assembly
    { Block.ofStatement (provisionalId assembly.graph.size) statement with
      parent := assembly.container
      topLevel := (assembly.spot layout).isSome
      position := assembly.spot layout }
    (some assembly.graph.size) statement.conditionRead
  unfold addStatement newBlock
  rw [addBlock_ofStatement]
  cases hcondition : statement.condition with
  | none =>
    simp only [Statement.conditionRead, hcondition, addCondition] at hwired
    simp only [hwired, Statement.block, Statement.conditionBlocks, Statement.conditionRead, hcondition]
  | some text =>
    simp only [Statement.conditionRead, hcondition] at hwired
    simp only [hwired, Statement.block, Statement.conditionBlocks, Statement.conditionRead, hcondition]

theorem addStatement_simple {statement : Statement} (h : statement.opcode.opensBody = false) :
    assembly.addStatement layout statement =
      assembly.grown layout
        (statement.block (assembly.spot layout) assembly.container assembly.graph.size ::
          statement.conditionBlocks assembly.graph.size) (some assembly.graph.size) := by
  simp [addStatement_eq, h]

theorem addStatement_header {header : Statement} (h : header.opcode.opensBody = true) :
    assembly.addStatement layout header =
      assembly.opened layout (header.block (assembly.spot layout) assembly.container assembly.graph.size)
        (header.conditionBlocks assembly.graph.size) .body true (some assembly.graph.size) := by
  simp [addStatement_eq, h, openBody, opened, grown]

/-! ## Chains and markers -/

theorem container_grown (block : Block) (blocks : List Block) :
    (assembly.grown layout (block :: blocks) (some assembly.graph.size)).container =
      Graph.containerAfter assembly.graph.size block := by
  have hblock := Graph.block?_append_size assembly.joined block blocks
  rw [size_joined] at hblock
  simp only [container, place_grown, graph_grown, hblock, Option.bind_some]

theorem joined_grown (block : Block) (blocks : List Block) :
    (assembly.grown layout (block :: blocks) (some assembly.graph.size)).joined =
      assembly.joined.append
        ({ block with next := some (assembly.graph.size + 1 + blocks.length) } :: blocks) := by
  have hmodify := Graph.modify_append_size assembly.joined block blocks
    fun block => { block with next := some (assembly.graph.size + 1 + blocks.length) }
  rw [size_joined] at hmodify
  rw [← hmodify, joined_of_after (place_grown _ _), size_grown, graph_grown]

/-- A chain after the first of the new blocks. -/
theorem plus_grown {block : Block} {blocks : List Block} {after : Nat} (chain : Chain Statement)
    (hnext : block.next = none) (hafter : assembly.graph.size + 1 + blocks.length = after) :
    (assembly.grown layout (block :: blocks) (some assembly.graph.size)).plus layout chain =
      assembly.grown layout
        ({ block with next := chain.start? after } ::
          (blocks ++ chain.blocks none (Graph.containerAfter assembly.graph.size block) after))
        (chain.lastFrom (some assembly.graph.size) after) := by
  subst hafter
  by_cases hdone : chain = .done
  · subst hdone
    simp [plus, Chain.start?, Chain.blocks, Chain.lastFrom, ← hnext]
  · have hspot : (assembly.grown layout (block :: blocks) (some assembly.graph.size)).spot layout = none := by
      simp [spot, place_grown]
    rw [plus_of_ne_done hdone, Chain.start?_of_ne_done hdone, grown_of_spot hspot, joined_grown, size_grown, hspot,
      container_grown, Graph.append_append]
    simp [grown]

theorem size_opened (block : Block) (blocks : List Block) (slot : Slot) (isEmpty : Bool) (last : Option Nat) :
    (assembly.opened layout block blocks slot isEmpty last).graph.size = assembly.graph.size + 1 + blocks.length :=
  @size_grown layout assembly block blocks last

theorem joined_opened (block : Block) (blocks : List Block) (slot : Slot) (last : Option Nat) :
    (assembly.opened layout block blocks slot true last).joined =
      assembly.joined.append
        (block.setInput slot.name (.block (assembly.graph.size + 1 + blocks.length)) :: blocks) := by
  have hmodify := Graph.modify_append_size assembly.joined block blocks
    fun block => block.setInput slot.name (.block (assembly.graph.size + 1 + blocks.length))
  rw [size_joined] at hmodify
  rw [← hmodify, joined_of_slot (place_opened _ _ _ _), size_opened]
  rfl

/-- A chain in the empty slot of an open block. -/
theorem plus_opened {block : Block} {blocks : List Block} {slot : Slot} {last : Option Nat} {inner : Nat}
    (chain : Chain Statement) (hinner : assembly.graph.size + 1 + blocks.length = inner) :
    ∃ isEmpty, (assembly.opened layout block blocks slot true last).plus layout chain =
      assembly.opened layout (block.holding slot.name (chain.start? inner))
        (blocks ++ chain.blocks none (some assembly.graph.size) inner) slot isEmpty (chain.lastFrom last inner) := by
  subst hinner
  by_cases hdone : chain = .done
  · subst hdone
    exact ⟨true, by simp [plus, Chain.start?, Chain.blocks, Chain.lastFrom, Block.holding]⟩
  · refine ⟨false, ?_⟩
    have hplace := @place_opened layout assembly block blocks slot last
    have hspot : (assembly.opened layout block blocks slot true last).spot layout = none := by
      simp [spot, hplace]
    have hcontainer : (assembly.opened layout block blocks slot true last).container = some assembly.graph.size := by
      simp [container, hplace]
    rw [plus_of_ne_done hdone, Chain.start?_of_ne_done hdone, grown_of_spot hspot, joined_opened, hspot, hcontainer,
      size_opened, Graph.append_append]
    simp [opened, grown, fillSlot, Block.holding]

theorem close_opened (block : Block) (blocks : List Block) (slot : Slot) (isEmpty : Bool) (last : Option Nat)
    (number : Nat) :
    (assembly.opened layout block blocks slot isEmpty last).close number =
      assembly.grown layout (block :: blocks) (some assembly.graph.size) := by
  simp [close, opened, grown]

theorem enterElse_opened {block : Block} (h : block.opcode.acceptsElse = true) (blocks : List Block)
    (isEmpty : Bool) (last : Option Nat) (number : Nat) :
    (assembly.opened layout block blocks .body isEmpty last).enterElse number =
      assembly.opened layout { block with opcode := .ifElse } blocks .elseBranch true none := by
  have hblock := Graph.block?_append_size assembly.joined block blocks
  have hmodify := Graph.modify_append_size assembly.joined block blocks fun block => { block with opcode := .ifElse }
  rw [size_joined] at hblock hmodify
  simp [enterElse, opened, grown, hblock, h, hmodify]

/-! ## Lines -/

theorem feedAll_append (before after : List SourceLine) :
    feedAll layout assembly (before ++ after) = feedAll layout (feedAll layout assembly before) after :=
  List.foldl_append

theorem feedAll_cons (line : SourceLine) (lines : List SourceLine) :
    feedAll layout assembly (line :: lines) = feedAll layout (assembly.feed layout line) lines := rfl

theorem feed_of_statement {line : SourceLine} {statement : Statement} (h : line.Says statement)
    (hhat : statement.opcode.isHat = false) : assembly.feed layout line = assembly.addStatement layout statement := by
  simp [feed, reading_eq_statement_iff.2 h, hhat]

theorem feed_of_marks_close {line : SourceLine} (h : line.Marks .close) :
    assembly.feed layout line = assembly.close line.number := by
  simp [feed, reading_eq_marker h]

theorem feed_of_marks_otherwise {line : SourceLine} (h : line.Marks .otherwise) :
    assembly.feed layout line = assembly.enterElse line.number := by
  simp [feed, reading_eq_marker h]

theorem containerAfter_eq {block : Block} (parent : Option Nat) (hhat : block.opcode.isHat = false)
    (hparent : block.parent = parent) (index : Nat) : Graph.containerAfter index block = parent := by
  simp [Graph.containerAfter, hhat, hparent]

theorem feedAll_header {line : SourceLine} {header : Statement} {body : Chain Statement} {inner : List SourceLine}
    (hline : line.Says header) (hheader : header.opcode.opensBody = true)
    (hbody : ∀ assembly, feedAll layout assembly inner = assembly.plus layout body) (assembly : Assembly) :
    ∃ isEmpty last, feedAll layout assembly (line :: inner) =
      assembly.opened layout
        ((header.block (assembly.spot layout) assembly.container assembly.graph.size).holding Slot.body.name
          (body.start? (assembly.graph.size + header.size)))
        (header.conditionBlocks assembly.graph.size ++
          body.blocks none (some assembly.graph.size) (assembly.graph.size + header.size))
        .body isEmpty last := by
  have hhat := Opcode.isHat_of_opensBody hheader
  obtain ⟨isEmpty, hplus⟩ := @plus_opened layout assembly
    (header.block (assembly.spot layout) assembly.container assembly.graph.size)
    (header.conditionBlocks assembly.graph.size) .body (some assembly.graph.size) _ body
    (header.after_conditionBlocks assembly.graph.size)
  rw [feedAll_cons, feed_of_statement hline hhat, addStatement_header hheader, hbody]
  exact ⟨isEmpty, _, hplus⟩

/-- The lines that write a chain down assemble into the blocks of the chain. -/
theorem feedAll_chain {chain : Chain Statement} {lines : List SourceLine} (hwritten : chain.Written lines)
    (hformed : chain.WellFormed) (assembly : Assembly) :
    feedAll layout assembly lines = assembly.plus layout chain := by
  induction hwritten generalizing assembly with
  | done => rfl
  | @simple line statement rest after hline _ ih =>
    obtain ⟨hhat, hbody, hrest⟩ := hformed
    have hafter := statement.after_conditionBlocks assembly.graph.size
    rw [feedAll_cons, feed_of_statement hline hhat, addStatement_simple hbody, ih hrest,
      plus_grown rest (by simp) hafter, containerAfter_eq assembly.container (by simpa using hhat) (by simp),
      plus_of_ne_done (by simp)]
    rfl
  | @loop line close header body rest inner after hline _ hclose _ ihbody ihrest =>
    obtain ⟨hheader, hbody, hrest⟩ := hformed
    have hhat := Opcode.isHat_of_opensBody hheader
    have hafter := Chain.after_body assembly.graph.size header body
    obtain ⟨isEmpty, last, hopen⟩ := feedAll_header hline hheader (ihbody hbody) assembly
    rw [← List.cons_append, feedAll_append, hopen, feedAll_cons, feed_of_marks_close hclose, close_opened,
      ihrest hrest, plus_grown rest (by simp) hafter,
      containerAfter_eq assembly.container (by simpa using hhat) (by simp),
      plus_of_ne_done (by simp)]
    rfl
  | @branch line middle close header body otherwise rest inner other after hline _ hmiddle _ hclose _ ihbody ihother
      ihrest =>
    obtain ⟨helse, hbody, hotherwise, hrest⟩ := hformed
    have hheader := Opcode.opensBody_of_acceptsElse helse
    have hafter := Chain.after_otherwise assembly.graph.size header body otherwise
    obtain ⟨isEmpty, last, hopen⟩ := feedAll_header hline hheader (ihbody hbody) assembly
    obtain ⟨_, hother⟩ := @plus_opened layout assembly
      { (header.block (assembly.spot layout) assembly.container assembly.graph.size).holding Slot.body.name
          (body.start? (assembly.graph.size + header.size)) with opcode := .ifElse }
      (header.conditionBlocks assembly.graph.size ++
        body.blocks none (some assembly.graph.size) (assembly.graph.size + header.size)) .elseBranch none
      _ otherwise (Chain.after_body assembly.graph.size header body)
    rw [← List.cons_append, feedAll_append, hopen, feedAll_cons, feed_of_marks_otherwise hmiddle,
      enterElse_opened (by simpa using helse), feedAll_append, ihother hotherwise, hother, feedAll_cons,
      feed_of_marks_close hclose, close_opened, ihrest hrest, plus_grown rest (by simp) hafter,
      containerAfter_eq assembly.container (by simp [Opcode.isHat]) (by simp), plus_of_ne_done (by simp)]
    rfl

/-! ## Scripts -/

variable (layout) in
/-- The later assembly has the scripts of a program in addition, and nothing skipped or warned about. -/
structure Gains (before after : Assembly) (program : Program Statement) : Prop where
  graph : after.graph = before.graph.append (program.blocks layout before.scripts before.graph.size)
  scripts : after.scripts = before.scripts + program.length
  skipped : after.skipped = before.skipped
  warnings : after.warnings = before.warnings

theorem startScript_eq {hat : Statement} (h : hat.conditionRead = .missing) :
    assembly.startScript layout hat =
      { assembly with frames := [], last := none : Assembly }.grown layout
        [hat.block (some (layout.position assembly.scripts)) none assembly.graph.size] (some assembly.graph.size) := by
  simp [startScript, addTopLevel, grown, joined, spot, place, fillSlot, newBlock, Statement.block, h,
    Condition.root?, Block.holding, Graph.push_eq_append, Block.ofStatement]

theorem gains_grown {script : Script Statement} {last : Option Nat} (hcanvas : assembly.place = .canvas) :
    Gains layout assembly
      (assembly.grown layout (script.blocks (layout.position assembly.scripts) assembly.graph.size) last) [script] := by
  constructor
  · simp [grown, joined, hcanvas, Program.blocks]
  · simp [grown, spot, hcanvas]
  · rfl
  · rfl

theorem gains_script {script : Script Statement} {lines : List SourceLine} (hwritten : script.Written lines)
    (hformed : script.WellFormed) (hcanvas : script.hat = none → assembly.place = .canvas) :
    Gains layout assembly (feedAll layout assembly lines) [script] := by
  obtain ⟨hhats, hheadless, hchain⟩ := hformed
  cases hwritten with
  | @hat line hat chain lines hline hlines =>
    have hhat := hhats hat rfl
    have hmissing := Statement.conditionRead_of_isHat (Statement.regular_of_ofLine? hline) hhat
    have hfeed : assembly.feed layout line = assembly.startScript layout hat := by
      simp [feed, reading_eq_statement_iff.2 hline, hhat]
    -- a hat leaves nothing of the frames and of the chain before it
    have hgains := @gains_grown layout { assembly with frames := [], last := none } ⟨some hat, chain⟩
      (chain.lastFrom (some assembly.graph.size) (assembly.graph.size + 1)) rfl
    have hcontainer : Graph.containerAfter assembly.graph.size
        (hat.block (some (layout.position assembly.scripts)) none assembly.graph.size) =
          some assembly.graph.size := by
      simp [Graph.containerAfter, hhat]
    rw [feedAll_cons, hfeed, startScript_eq hmissing, feedAll_chain hlines hchain, plus_grown chain (by simp) rfl,
      hcontainer]
    exact ⟨hgains.graph, hgains.scripts, hgains.skipped, hgains.warnings⟩
  | @headless chain lines hlines =>
    have hplace := hcanvas rfl
    rw [feedAll_chain hlines hchain, plus_of_ne_done (hheadless rfl)]
    have hgains := @gains_grown layout assembly ⟨none, chain⟩ (chain.lastFrom assembly.last assembly.graph.size) hplace
    simpa [spot, container, hplace, Script.blocks] using hgains

/-- The lines that write a program down assemble into its scripts. A program whose first script lacks its hat can only
be fed to an assembly that has nothing to attach the script to. -/
theorem gains_program {program : Program Statement} {lines : List SourceLine} (hwritten : program.Written lines)
    (hformed : program.WellFormed) (assembly : Assembly)
    (hcanvas : ∀ script, program.head? = some script → script.hat = none → assembly.place = .canvas) :
    Gains layout assembly (feedAll layout assembly lines) program := by
  induction hwritten generalizing assembly with
  | nil => exact ⟨by simp [Program.blocks, feedAll, Graph.append], by simp [feedAll], rfl, rfl⟩
  | @cons script program lines after hscript _ ih =>
    obtain ⟨hall, hhats⟩ := hformed
    have hfirst : Gains layout assembly (feedAll layout assembly lines) [script] :=
      gains_script hscript (hall script (by simp)) (hcanvas script rfl)
    have hrest := ih ⟨fun other h => hall other (by simp [h]), fun other h => hhats other (List.mem_of_mem_tail h)⟩
      (feedAll layout assembly lines)
      (fun other h hnone => absurd hnone (hhats other (List.mem_of_mem_head? h)))
    rw [feedAll_append]
    constructor
    · rw [hrest.graph, hfirst.graph, hfirst.scripts, Graph.append_append]
      simp [Program.blocks, Script.length_blocks]
    · rw [hrest.scripts, hfirst.scripts]
      simp [Nat.add_assoc, Nat.add_comm 1]
    · rw [hrest.skipped, hfirst.skipped]
    · rw [hrest.warnings, hfirst.warnings]

theorem ofLines_written {program : Program Statement} {lines : List SourceLine} (hwritten : program.Written lines)
    (hformed : program.WellFormed) :
    (ofLines layout lines).graph = program.graph layout ∧ (ofLines layout lines).skipped = #[] ∧
      (ofLines layout lines).warnings = #[] := by
  have hgains := @gains_program layout program lines hwritten hformed {} (fun _ _ _ => rfl)
  refine ⟨?_, hgains.skipped, hgains.warnings⟩
  apply Graph.ext_toList
  rw [ofLines, hgains.graph, Graph.toList_append]
  rfl

end ScratchScript.Assembly
