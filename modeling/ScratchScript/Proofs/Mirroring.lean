import ScratchScript.Proofs.Feeding

/-!
# Two runs side by side

What the assembly does with a line depends on where its open blocks are, not on what stands before them, and on the kind
of the line, not on the texts in it. `Mirrors` compares two runs in this sense. The second run may start with blocks
`front` of its own, so that all places in it are shifted, and its lines may have other texts, which are compared through
a function `f`. Ids and positions are left out of the comparison: both are known from the places of the blocks.

* `Block.seen` is the view through which blocks are compared, and it commutes with every change that the assembly makes
  to a block.
* `Mirrors.feed` is the step: lines that read alike keep two assemblies alike. `Mirrors.feedAll` is the run.
-/

namespace ScratchScript

/-! ## Other places and other texts -/

def Literal.mapText (f : String → String) (literal : Literal) : Literal :=
  { literal with value := f literal.value }

def Field.mapTexts (f : String → String) (field : Field) : Field :=
  ⟨f field.display, field.value.map f⟩

/-- What a slot holds, with a link moved on by `n` places. -/
def Input.shift (n : Nat) : Input → Input
  | literal text => literal text
  | block target => block (n + target)

def Input.mapText (f : String → String) : Input → Input
  | literal text => literal (text.mapText f)
  | block target => block target

/-- The block with all its links moved on by `n` places. -/
def Block.shift (n : Nat) (block : Block) : Block :=
  { block with
    parent := block.parent.map (n + ·)
    next := block.next.map (n + ·)
    inputs := block.inputs.map fun (name, input) => (name, input.shift n) }

def Block.mapTexts (f : String → String) (block : Block) : Block :=
  { block with
    inputs := block.inputs.map fun (name, input) => (name, input.mapText f)
    fields := block.fields.map fun (name, field) => (name, field.mapTexts f) }

/-- The block without its id and its position, with links moved on and other texts. -/
def Block.seen (n : Nat) (f : String → String) (block : Block) : Block :=
  { (block.shift n).mapTexts f with id := "", position := none }

def Condition.mapTexts (f : String → String) : Condition → Condition
  | missing => missing
  | join connective left right => join connective (left.mapTexts f) (right.mapTexts f)
  | not operand => not (operand.mapTexts f)
  | compare comparison left right => compare comparison (f left) (f right)
  | touching target => touching (f target)
  | touchingColor color => touchingColor (f color)
  | keyPressed key => keyPressed (f key)
  | mouseDown => mouseDown

def Content.mapTexts (f : String → String) (content : Content) : Content where
  opcode := content.opcode
  literals := content.literals.map fun (name, literal) => (name, literal.mapText f)
  fields := content.fields.map fun (name, field) => (name, field.mapTexts f)
  condition := content.condition.mapTexts f

def SourceLine.mapText (f : String → String) (line : SourceLine) : SourceLine :=
  { line with text := f line.text }

/-- The readings are alike: what they say agrees as far as `f` tells. -/
inductive Reading.Alike (f : String → String) : Reading → Reading → Prop
  | blank : Alike f .blank .blank
  | marker (marker : Source.Marker) : Alike f (.marker marker) (.marker marker)
  | statement {first second : Statement} : first.content.mapTexts f = second.content.mapTexts f →
      Alike f (.statement first) (.statement second)
  | unknown : Alike f .unknown .unknown

/-- The lines have the same number, texts that agree as far as `f` tells, and readings that are alike. -/
structure SourceLine.Alike (f : String → String) (first second : SourceLine) : Prop where
  text : first.mapText f = second.mapText f
  reading : first.reading.Alike f second.reading

theorem Reading.Alike.refl (f : String → String) (reading : Reading) : reading.Alike f reading := by
  cases reading with
  | blank => exact .blank
  | marker marker => exact .marker marker
  | statement statement => exact .statement rfl
  | unknown => exact .unknown

theorem SourceLine.Alike.refl (f : String → String) (line : SourceLine) : line.Alike f line :=
  ⟨rfl, Reading.Alike.refl f line.reading⟩

section Seen

variable (n : Nat) (f : String → String)

theorem Block.seen_eq (block : Block) : block.seen n f =
    { block with
      id := ""
      parent := block.parent.map (n + ·)
      next := block.next.map (n + ·)
      inputs := block.inputs.map fun (name, input) => (name, (input.shift n).mapText f)
      fields := block.fields.map fun (name, field) => (name, field.mapTexts f)
      position := none } := by
  simp [seen, shift, mapTexts, Function.comp_def]

variable {n f} in
theorem Block.opcode_of_seen {m : Nat} {block other : Block} (h : other.seen m f = block.seen n f) :
    other.opcode = block.opcode := by
  have hopcode : (other.seen m f).opcode = (block.seen n f).opcode := by rw [h]
  exact hopcode

variable {n f} in
theorem Block.parent_of_seen {block other : Block} (h : other.seen 0 f = block.seen n f) :
    other.parent = block.parent.map (n + ·) := by
  have hparent : (other.seen 0 f).parent = (block.seen n f).parent := by rw [h]
  simpa [seen_eq] using hparent

theorem setEntry_map (g : Input → Input) (name : String) (input : Input) (entries : List (String × Input)) :
    (setEntry name input entries).map (fun (name, input) => (name, g input)) =
      setEntry name (g input) (entries.map fun (name, input) => (name, g input)) := by
  induction entries with
  | nil => rfl
  | cons entry entries ih =>
    obtain ⟨other, old⟩ := entry
    simp only [setEntry, List.map_cons]
    split
    · rfl
    · rw [List.map_cons, ih]

theorem Block.seen_setInput (block : Block) (name : String) (target : Nat) :
    (block.setInput name (.block target)).seen n f = (block.seen n f).setInput name (.block (n + target)) := by
  simp only [seen_eq, setInput, setEntry_map fun input => (input.shift n).mapText f]
  rfl

theorem Block.seen_next (block : Block) (target : Nat) :
    { block with next := some target }.seen n f = { block.seen n f with next := some (n + target) } := by
  simp [seen_eq]

theorem Block.seen_opcode (block : Block) (opcode : Opcode) :
    { block with opcode := opcode }.seen n f = { block.seen n f with opcode := opcode } := by
  simp [seen_eq]

/-! ## The blocks of a statement -/

theorem Condition.root?_mapTexts (index : Nat) (condition : Condition) :
    (condition.mapTexts f).root? index = condition.root? index := by
  cases condition <;> rfl

theorem Condition.size_mapTexts (condition : Condition) : (condition.mapTexts f).size = condition.size := by
  induction condition with
  | join connective left right ihleft ihright => simp only [mapTexts, size, ihleft, ihright]
  | not operand ih => simp only [mapTexts, size, ih]
  | _ => rfl

theorem Condition.slotFor_mapTexts (name : String) (index : Nat) (condition : Condition) :
    (condition.slotFor name index).map (fun (name, input) => (name, (input.shift n).mapText f)) =
      (condition.mapTexts f).slotFor name (n + index) := by
  cases condition <;> rfl

theorem Condition.blocks_seen (condition : Condition) (parent index : Nat) :
    (condition.blocks parent index).map (Block.seen n f) =
      ((condition.mapTexts f).blocks (n + parent) (n + index)).map fun block => { block with id := "" } := by
  induction condition generalizing parent index with
  | missing => rfl
  | join connective left right ihleft ihright =>
    simp only [mapTexts, blocks, List.map_cons, List.map_append, ihleft, ihright, Block.seen_eq, slotFor_mapTexts,
      size_mapTexts, ← Nat.add_assoc]
    rfl
  | not operand ih =>
    simp only [mapTexts, blocks, List.map_cons, ih, Block.seen_eq, slotFor_mapTexts, ← Nat.add_assoc]
    rfl
  | _ => simp [mapTexts, blocks, Block.seen_eq, blocks.node, textIn, Input.shift,
      Input.mapText, Literal.mapText]

theorem Block.seen_holding (block : Block) (name : String) (target : Option Nat) :
    (block.holding name target).seen n f = (block.seen n f).holding name (target.map (n + ·)) := by
  cases target with
  | none => rfl
  | some target => exact block.seen_setInput n f name target

/-- The block of what a statement says, without its condition. -/
def Content.bare (topLevel : Bool) (parent : Option Nat) (content : Content) : Block where
  id := ""
  opcode := content.opcode
  parent := parent
  inputs := content.literals.map fun (name, literal) => (name, .literal literal)
  fields := content.fields
  topLevel := topLevel

variable {f} in
theorem Statement.opcode_of_content {first second : Statement}
    (h : first.content.mapTexts f = second.content.mapTexts f) : first.opcode = second.opcode := by
  have hopcode : (first.content.mapTexts f).opcode = (second.content.mapTexts f).opcode := by rw [h]
  exact hopcode

theorem Statement.bare_seen (statement : Statement) (id : String) (spot : Option Position) (topLevel : Bool)
    (parent : Option Nat) :
    { Block.ofStatement id statement with parent := parent, topLevel := topLevel, position := spot : Block }.seen n f =
      (statement.content.mapTexts f).bare topLevel (parent.map (n + ·)) := by
  simp [Block.seen_eq, Block.ofStatement, Content.bare, Content.mapTexts, Statement.content, Input.shift,
    Input.mapText, Function.comp_def]

theorem Statement.block_seen (statement : Statement) (spot : Option Position) (parent : Option Nat) (index : Nat) :
    (statement.block spot parent index).seen n f =
      ((statement.content.mapTexts f).bare spot.isSome (parent.map (n + ·))).holding "CONDITION"
        ((statement.content.mapTexts f).condition.root? (n + index + 1)) := by
  have hroot : (statement.conditionRead.root? (index + 1)).map (n + ·) =
      (statement.content.mapTexts f).condition.root? (n + index + 1) := by
    have hmapTexts : (statement.content.mapTexts f).condition = statement.conditionRead.mapTexts f := rfl
    rw [hmapTexts, Condition.root?_mapTexts]
    cases statement.conditionRead <;> rfl
  rw [Statement.block, Block.seen_holding, Statement.bare_seen, hroot]

theorem Statement.conditionBlocks_seen (statement : Statement) (index : Nat) :
    (statement.conditionBlocks index).map (Block.seen n f) =
      ((statement.content.mapTexts f).condition.blocks (n + index) (n + index + 1)).map
        fun block => { block with id := "" } := by
  rw [Statement.conditionBlocks, Condition.blocks_seen]
  rfl

end Seen

/-! ## Graphs -/

theorem map_modify {α β : Type} {s : α → β} {change : α → α} {changed : β → β}
    (h : ∀ a, s (change a) = changed (s a)) (l : List α) (place : Nat) :
    (l.modify place change).map s = (l.map s).modify place changed := by
  apply List.ext_getElem?
  intro index
  simp only [List.getElem?_map, List.getElem?_modify]
  cases l[index]? with
  | none => rfl
  | some a => by_cases hplace : place = index <;> simp [hplace, h]

theorem modify_append_add {α : Type} (front l : List α) (place : Nat) (change : α → α) :
    (front ++ l).modify (front.length + place) change = front ++ l.modify place change := by
  induction front with
  | nil => simp
  | cons a front ih =>
    rw [List.length_cons, Nat.succ_add, List.cons_append, List.modify_succ_cons, ih, List.cons_append]

namespace Graph

/-- The second graph is `front` and then the first graph, up to ids and positions, with links moved on and texts that
agree as far as `f` tells. -/
def Mirrors (f : String → String) (graph front other : Graph) : Prop :=
  other.toList.map (Block.seen 0 f) =
    front.toList.map (Block.seen 0 f) ++ graph.toList.map (Block.seen front.size f)

namespace Mirrors

variable {f : String → String} {front graph other : Graph} (h : graph.Mirrors f front other)
include h

theorem size : other.size = front.size + graph.size := by
  have hlength := congrArg List.length h
  simpa [size_eq_length] using hlength

theorem block? (index : Nat) :
    (other.block? (front.size + index)).map (Block.seen 0 f) = (graph.block? index).map (Block.seen front.size f) := by
  have hindex := congrArg (fun blocks => blocks[front.size + index]?) h
  rw [List.getElem?_append_right (by simp [size_eq_length])] at hindex
  simpa [block?_eq_getElem?, size_eq_length] using hindex

theorem append {blocks others : List Block}
    (hblocks : others.map (Block.seen 0 f) = blocks.map (Block.seen front.size f)) :
    (graph.append blocks).Mirrors f front (other.append others) := by
  unfold Mirrors at *
  rw [toList_append, toList_append, List.map_append, List.map_append, h, hblocks, List.append_assoc]

theorem modify {change changeOther : Block → Block} (changed : Block → Block) (place : Nat)
    (hother : ∀ block, (changeOther block).seen 0 f = changed (block.seen 0 f))
    (hchange : ∀ block, (change block).seen front.size f = changed (block.seen front.size f)) :
    (graph.modify place change).Mirrors f front (other.modify (front.size + place) changeOther) := by
  have hlength : front.size = (front.toList.map (Block.seen 0 f)).length := by simp [size_eq_length]
  unfold Mirrors at *
  rw [toList_modify, toList_modify, map_modify hother, map_modify hchange, h]
  nth_rewrite 2 [hlength]
  rw [modify_append_add]

theorem setInput (owner : Nat) (name : String) (target : Nat) :
    (graph.modify owner fun block => block.setInput name (.block target)).Mirrors f front
      (other.modify (front.size + owner) fun block => block.setInput name (.block (front.size + target))) := by
  apply h.modify (fun block => block.setInput name (.block (front.size + target))) owner
  · intro block
    rw [Block.seen_setInput, Nat.zero_add]
  · exact fun block => block.seen_setInput _ _ name target

theorem setNext (previous target : Nat) :
    (graph.modify previous fun block => { block with next := some target }).Mirrors f front
      (other.modify (front.size + previous) fun block => { block with next := some (front.size + target) }) := by
  apply h.modify (fun block => { block with next := some (front.size + target) }) previous
  · intro block
    rw [Block.seen_next, Nat.zero_add]
  · exact fun block => block.seen_next _ _ target

theorem setOpcode (owner : Nat) (opcode : Opcode) :
    (graph.modify owner fun block => { block with opcode := opcode }).Mirrors f front
      (other.modify (front.size + owner) fun block => { block with opcode := opcode }) :=
  h.modify (fun block => { block with opcode := opcode }) owner (fun block => block.seen_opcode _ _ opcode)
    fun block => block.seen_opcode _ _ opcode

end Mirrors

end Graph

/-! ## Assemblies -/

def Frame.shift (n : Nat) (frame : Frame) : Frame :=
  { frame with owner := n + frame.owner }

namespace Assembly

/-- The second assembly is at the same point of the same scripts as the first one, after the scripts of `front`. -/
structure Mirrors (f : String → String) (assembly front other : Assembly) : Prop where
  graph : assembly.graph.Mirrors f front.graph other.graph
  frames : other.frames = assembly.frames.map (Frame.shift front.graph.size)
  last : other.last = assembly.last.map (front.graph.size + ·)
  skipped : other.skipped.toList.map (SourceLine.mapText f) =
    front.skipped.toList.map (SourceLine.mapText f) ++ assembly.skipped.toList.map (SourceLine.mapText f)
  warnings : other.warnings.toList = front.warnings.toList ++ assembly.warnings.toList

namespace Mirrors

variable {f : String → String} {assembly front other : Assembly} (h : assembly.Mirrors f front other)
include h

/-! ### Markers -/

theorem warn (warning : Warning) : (assembly.warn warning).Mirrors f front (other.warn warning) := by
  refine ⟨h.graph, h.frames, h.last, h.skipped, ?_⟩
  simp [Assembly.warn, h.warnings]

theorem close (number : Nat) : (assembly.close number).Mirrors f front (other.close number) := by
  unfold Assembly.close
  rw [h.frames]
  cases assembly.frames with
  | nil => exact h.warn _
  | cons frame outer => exact ⟨h.graph, rfl, rfl, h.skipped, h.warnings⟩

theorem enterElse (number : Nat) : (assembly.enterElse number).Mirrors f front (other.enterElse number) := by
  have hframes := h.frames
  cases hopen : assembly.frames with
  | nil =>
    rw [hopen, List.map_nil] at hframes
    simpa only [Assembly.enterElse, hopen, hframes] using h.warn _
  | cons frame outer =>
    rw [hopen, List.map_cons] at hframes
    have hblock := h.graph.block? frame.owner
    have hplace : (frame.shift front.graph.size).owner = front.graph.size + frame.owner := rfl
    cases howner : assembly.graph.block? frame.owner with
    | none =>
      rw [howner, Option.map_none, Option.map_eq_none_iff] at hblock
      simpa only [Assembly.enterElse, hopen, hframes, hplace, howner, hblock] using h
    | some owner =>
      rw [howner, Option.map_some, Option.map_eq_some_iff] at hblock
      obtain ⟨mirrored, hmirrored, hseen⟩ := hblock
      have hslot : (frame.shift front.graph.size).slot = frame.slot := rfl
      simp only [Assembly.enterElse, hopen, hframes, hplace, hslot, howner, hmirrored, Block.opcode_of_seen hseen]
      split
      · exact ⟨h.graph.setOpcode frame.owner .ifElse, rfl, rfl, h.skipped, h.warnings⟩
      · exact h.warn _

/-! ### Statements -/

theorem place : other.place =
    match assembly.place with
    | .slot owner slot => .slot (front.graph.size + owner) slot
    | .after previous => .after (front.graph.size + previous)
    | .canvas => .canvas := by
  unfold Assembly.place
  rw [h.frames, h.last]
  cases assembly.frames with
  | nil => cases assembly.last <;> rfl
  | cons frame outer =>
    cases assembly.last with
    | none => rfl
    | some previous => cases hempty : frame.isEmpty <;> simp [Frame.shift, hempty]

theorem container : other.container = assembly.container.map (front.graph.size + ·) := by
  unfold Assembly.container
  rw [h.place]
  cases assembly.place with
  | slot owner slot => rfl
  | canvas => rfl
  | after previous =>
    have hblock := h.graph.block? previous
    dsimp only
    cases hprevious : assembly.graph.block? previous with
    | none =>
      rw [hprevious, Option.map_none, Option.map_eq_none_iff] at hblock
      rw [hblock]
      rfl
    | some block =>
      rw [hprevious, Option.map_some, Option.map_eq_some_iff] at hblock
      obtain ⟨mirrored, hmirrored, hseen⟩ := hblock
      rw [hmirrored, Option.bind_some, Option.bind_some, Graph.containerAfter, Graph.containerAfter,
        Block.opcode_of_seen hseen, Block.parent_of_seen hseen]
      split <;> rfl

theorem joined : assembly.joined.Mirrors f front.graph other.joined := by
  unfold Assembly.joined
  rw [h.place, h.graph.size]
  cases assembly.place with
  | slot owner slot => exact h.graph.setInput owner slot.name assembly.graph.size
  | after previous => exact h.graph.setNext previous assembly.graph.size
  | canvas => exact h.graph

theorem isSome_spot (layout : Layout) : (other.spot layout).isSome = (assembly.spot layout).isSome := by
  unfold Assembly.spot
  rw [h.place]
  cases assembly.place <;> simp

theorem grown (layout : Layout) {blocks others : List Block}
    (hblocks : others.map (Block.seen 0 f) = blocks.map (Block.seen front.graph.size f)) :
    (assembly.grown layout blocks (some assembly.graph.size)).Mirrors f front
      (other.grown layout others (some other.graph.size)) := by
  refine ⟨h.joined.append hblocks, ?_, ?_, h.skipped, h.warnings⟩
  · show fillSlot other.frames = (fillSlot assembly.frames).map (Frame.shift front.graph.size)
    rw [h.frames]
    cases assembly.frames <;> rfl
  · show some other.graph.size = _
    rw [h.graph.size]
    rfl

theorem openBody (owner : Nat) :
    (assembly.openBody owner).Mirrors f front (other.openBody (front.graph.size + owner)) := by
  refine ⟨h.graph, ?_, h.last, h.skipped, h.warnings⟩
  show _ :: other.frames = _
  rw [h.frames]
  rfl

theorem addStatement (layout : Layout) {first second : Statement}
    (hcontent : first.content.mapTexts f = second.content.mapTexts f) :
    (assembly.addStatement layout first).Mirrors f front (other.addStatement layout second) := by
  have hopcode := Statement.opcode_of_content hcontent
  have hblocks : (second.block (other.spot layout) other.container other.graph.size ::
        second.conditionBlocks other.graph.size).map (Block.seen 0 f) =
      (first.block (assembly.spot layout) assembly.container assembly.graph.size ::
        first.conditionBlocks assembly.graph.size).map (Block.seen front.graph.size f) := by
    rw [List.map_cons, List.map_cons, Statement.block_seen, Statement.block_seen, Statement.conditionBlocks_seen,
      Statement.conditionBlocks_seen, hcontent, h.isSome_spot, h.container, h.graph.size]
    simp [Function.comp_def]
  have hgrown := h.grown layout hblocks
  rw [addStatement_eq, addStatement_eq]
  dsimp only
  rw [hopcode]
  split
  · rw [h.graph.size] at hgrown ⊢
    exact hgrown.openBody assembly.graph.size
  · exact hgrown

theorem startScript (layout : Layout) {first second : Statement}
    (hcontent : first.content.mapTexts f = second.content.mapTexts f) :
    (assembly.startScript layout first).Mirrors f front (other.startScript layout second) := by
  have hblock : ∀ spot spotOther : Option Position,
      [{ other.newBlock second with topLevel := true, position := spotOther }].map (Block.seen 0 f) =
        [{ assembly.newBlock first with topLevel := true, position := spot }].map (Block.seen front.graph.size f) := by
    intro spot spotOther
    have hfirst := first.bare_seen front.graph.size f (provisionalId assembly.graph.size) spot true none
    have hsecond := second.bare_seen 0 f (provisionalId other.graph.size) spotOther true none
    rw [List.map_singleton, List.map_singleton]
    exact congrArg (fun block => [block]) ((hsecond.trans (by rw [hcontent]; rfl)).trans hfirst.symm)
  unfold Assembly.startScript addTopLevel
  rw [Graph.push_eq_append, Graph.push_eq_append]
  refine ⟨h.graph.append (hblock _ _), rfl, ?_, h.skipped, h.warnings⟩
  show some other.graph.size = _
  rw [h.graph.size]
  rfl

/-! ### Lines -/

theorem feed (layout : Layout) {first second : SourceLine} (hlines : first.Alike f second) :
    (assembly.feed layout first).Mirrors f front (other.feed layout second) := by
  obtain ⟨htext, hreading⟩ := hlines
  have hnumber : first.number = second.number := by
    have hsame : (first.mapText f).number = (second.mapText f).number := by rw [htext]
    exact hsame
  unfold Assembly.feed
  generalize first.reading = firstReading, second.reading = secondReading at hreading
  cases hreading with
  | blank => exact h
  | marker marker =>
    cases marker with
    | close => exact hnumber ▸ h.close first.number
    | otherwise => exact hnumber ▸ h.enterElse first.number
  | statement hcontent =>
    dsimp only
    rw [Statement.opcode_of_content hcontent]
    split
    · exact h.startScript layout hcontent
    · exact h.addStatement layout hcontent
  | unknown =>
    refine ⟨h.graph, h.frames, h.last, ?_, h.warnings⟩
    simp [skip, h.skipped, htext]

theorem feedAll (layout : Layout) {lines others : List SourceLine}
    (hlines : List.Forall₂ (SourceLine.Alike f) lines others) :
    (assembly.feedAll layout lines).Mirrors f front (other.feedAll layout others) := by
  induction hlines generalizing assembly other with
  | nil => exact h
  | cons hline _ ih => exact ih (h.feed layout hline)

end Mirrors

end Assembly

end ScratchScript
