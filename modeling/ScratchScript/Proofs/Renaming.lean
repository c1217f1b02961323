import ScratchScript.Compiled
import ScratchScript.Proofs.BlockMap
import ScratchScript.Proofs.Feeding
import ScratchScript.Proofs.FreshIds
import ScratchScript.Proofs.Placement

/-!
# Ids as a renaming

A graph is assembled with ids that name places and gets the ids of a seed at the end. `Drawing` makes the same blocks
with their ids at once, one block and one id after the other: the id of a statement is drawn before those of its
condition, that of a node of a condition before those of its operands, and a block is put into its slot only after all
blocks below it are there. Both ways lead to the same blocks, since the order in which blocks are made is the order of
their places.

Drawing an id has no result if the stream never gives one, so that drawing blocks has its results in `Option`, and the
lemmas about it are equations there.

* `Drawing.Issues` is the step: adding one block commutes with giving ids to all of them.
* `bind_emit` carries it over the recursion on a condition, `bind_feed` to a line and `ofSource_eq` to a source.
-/

namespace ScratchScript

/-! ## Drawing ids one by one -/

/-- Scripts in the making whose blocks get their ids when they are made. -/
structure Drawing where
  assembly : Assembly
  issuer : BlockId.Issuer

namespace Drawing

/-- Makes a block with the next id and adds it as `add` says. -/
def make (add : Assembly → Block → Assembly) (block : Block) (drawing : Drawing) : Option Drawing :=
  drawing.issuer.next?.map fun (id, issuer) => ⟨add drawing.assembly { block with id := id }, issuer⟩

/-- Adds a block at the end, without a link to it. -/
def push (assembly : Assembly) (block : Block) : Assembly :=
  { assembly with graph := assembly.graph.push block }

def link (owner : Nat) (name : String) (target : Nat) (assembly : Assembly) : Assembly :=
  { assembly with graph := assembly.graph.modify owner fun block => block.setInput name (.block target) }

def change (f : Assembly → Assembly) (drawing : Drawing) : Drawing :=
  { drawing with assembly := f drawing.assembly }

/-- Makes the blocks of a condition, a node before its operands, and puts the first of them into a slot. -/
def emit (owner : Nat) (name : String) (condition : Condition) (drawing : Drawing) : Option Drawing :=
  let here := drawing.assembly.graph.size
  match condition with
  | .missing => some drawing
  | .join connective left right =>
    drawing.make push { id := "", opcode := connective.opcode, parent := some owner }
      |>.bind (emit here "OPERAND1" left)
      |>.bind (emit here "OPERAND2" right)
      |>.map (change (link owner name here))
  | .not operand =>
    drawing.make push { id := "", opcode := .not, parent := some owner }
      |>.bind (emit here "OPERAND" operand)
      |>.map (change (link owner name here))
  | leaf =>
    (leaf.blocks owner here).foldlM (fun (made : Drawing) block => made.make push block) drawing
      |>.map (change (link owner name here))

def feed (layout : Layout) (drawing : Drawing) (line : SourceLine) : Option Drawing :=
  match line.reading with
  | .statement statement =>
    if statement.opcode.isHat then
      drawing.make (fun assembly => .addTopLevel layout { assembly with frames := [] }) (.ofStatement "" statement)
    else
      let here := drawing.assembly.graph.size
      drawing.make (.addBlock layout) (.ofStatement "" statement)
        |>.bind (emit here "CONDITION" statement.conditionRead)
        |>.map (change fun wired => if statement.opcode.opensBody then wired.openBody here else wired)
  | _ => some (drawing.change (·.feed layout line))

/-- The scripts of a source, with the ids of a seed. -/
def ofSource (layout : Layout) (seed : UInt64) (source : String) : Option Drawing :=
  (Source.lines source.toList).foldlM (feed layout) ⟨{}, .ofSeed seed⟩

/-! ## Giving ids afterwards -/

def labelled (label : Nat → String) (assembly : Assembly) : Assembly :=
  { assembly with graph := assembly.graph.relabel label }

/-- An assembly whose blocks have got the ids of the seed, in the order of their places. -/
def of? (seed : UInt64) (assembly : Assembly) : Option Drawing :=
  ((BlockId.Issuer.ofSeed seed).after? assembly.graph.size).map fun issuer =>
    ⟨labelled (placeId issuer.issued.reverse.toArray) assembly, issuer⟩

/-- Adding a block as `add` does makes the graph one block longer, and ids can be given before or after. -/
structure Issues (add : Assembly → Block → Assembly) : Prop where
  size : ∀ assembly block, (add assembly block).graph.size = assembly.graph.size + 1
  labelled : ∀ label assembly block,
    add (labelled label assembly) { block with id := label assembly.graph.size } = labelled label (add assembly block)

theorem placeId_append (ids : List String) (id : String) (index : Nat) (h : index < ids.length) :
    placeId (ids ++ [id]).toArray index = placeId ids.toArray index := by
  rw [placeId, placeId, Array.getD_eq_getD_getElem?, Array.getD_eq_getD_getElem?, List.getElem?_toArray,
    List.getElem?_toArray, List.getElem?_append_left h]

theorem placeId_length (ids : List String) (id : String) : placeId (ids ++ [id]).toArray ids.length = id := by
  rw [placeId, Array.getD_eq_getD_getElem?, List.getElem?_toArray, List.getElem?_append_right (Nat.le_refl _),
    Nat.sub_self]
  rfl

theorem labelled_append {assembly : Assembly} {ids : List String} (h : assembly.graph.size = ids.length) (id : String) :
    labelled (placeId (ids ++ [id]).toArray) assembly = labelled (placeId ids.toArray) assembly := by
  rw [labelled, labelled,
    Graph.relabel_congr fun index hlt => placeId_append ids id index (Nat.lt_of_lt_of_eq hlt h)]

theorem Issues.bind_make {add : Assembly → Block → Assembly} (h : Issues add) (seed : UInt64) (assembly : Assembly)
    (block : Block) (id : String) :
    (of? seed assembly).bind (make add block) = of? seed (add assembly { block with id := id }) := by
  rw [of?, of?, h.size, BlockId.Issuer.after?]
  cases hissuer : (BlockId.Issuer.ofSeed seed).after? assembly.graph.size with
  | none => rfl
  | some issuer =>
    have hlength : assembly.graph.size = issuer.issued.reverse.length := by
      rw [List.length_reverse, (BlockId.Issuer.proper_after hissuer).2]
    rw [Option.map_some, Option.bind_some, make]
    show issuer.next?.map _ = ((some issuer).bind fun issuer => issuer.next?.bind _).map _
    cases hnext : issuer.next? with
    | none => simp [hnext]
    | some drawn =>
      obtain ⟨word, rest⟩ := drawn
      have hlabelled := h.labelled (placeId (issuer.issued.reverse ++ [word]).toArray) assembly { block with id := id }
      rw [labelled_append hlength] at hlabelled
      nth_rewrite 1 [hlength] at hlabelled
      rw [placeId_length] at hlabelled
      simp only [Option.map_some, Option.bind_some, hnext, BlockId.Issuer.issued_of_next? hnext, List.reverse_cons]
      rw [← hlabelled]

theorem issues_push : Issues push where
  size assembly block := by simp [push, Graph.push_eq_append]
  labelled label assembly block := by simp only [push, Drawing.labelled, Graph.relabel_push]

theorem relabel_setInput (graph : Graph) (label : Nat → String) (place : Nat) (name : String) (input : Input) :
    (graph.modify place fun block => block.setInput name input).relabel label =
      (graph.relabel label).modify place fun block => block.setInput name input :=
  graph.relabel_modify label place _ fun _ _ => rfl

theorem issues_addTopLevel (layout : Layout) : Issues (.addTopLevel layout) where
  size assembly block := by simp [Assembly.addTopLevel, Graph.push_eq_append]
  labelled label assembly block := by
    simp only [Assembly.addTopLevel, Drawing.labelled, Graph.relabel_push, Graph.size_relabel]

theorem issues_addInSlot (owner : Nat) (slot : Slot) : Issues (·.addInSlot owner slot ·) where
  size assembly block := by simp [Assembly.addInSlot, Graph.push_eq_append]
  labelled label assembly block := by
    simp only [Assembly.addInSlot, Drawing.labelled, Graph.relabel_push, Graph.size_relabel, Graph.size_modify,
      relabel_setInput]

theorem issues_addAfter (previous : Nat) : Issues (·.addAfter previous ·) where
  size assembly block := by simp [Assembly.addAfter, Graph.push_eq_append]
  labelled label assembly block := by
    have hnext := assembly.graph.relabel_modify label previous
      (fun block => { block with next := some assembly.graph.size }) fun _ _ => rfl
    have hcontainer : ((assembly.graph.relabel label).block? previous).bind (Graph.containerAfter previous) =
        (assembly.graph.block? previous).bind (Graph.containerAfter previous) := by
      rw [Graph.block?_relabel]
      cases assembly.graph.block? previous <;> rfl
    simp only [Assembly.addAfter, Drawing.labelled, Graph.relabel_push, Graph.size_relabel, Graph.size_modify, hnext,
      hcontainer]

theorem issues_addBlock (layout : Layout) : Issues (.addBlock layout) where
  size assembly block := by
    unfold Assembly.addBlock
    split
    · exact (issues_addInSlot _ _).size assembly block
    · exact (issues_addAfter _).size assembly block
    · exact (issues_addTopLevel layout).size assembly block
  labelled label assembly block := by
    have hplace : (labelled label assembly).place = assembly.place := rfl
    unfold Assembly.addBlock
    rw [hplace]
    split
    · exact (issues_addInSlot _ _).labelled label assembly block
    · exact (issues_addAfter _).labelled label assembly block
    · exact (issues_addTopLevel layout).labelled label assembly block

/-! ## Conditions -/

def extended (blocks : List Block) (assembly : Assembly) : Assembly :=
  { assembly with graph := assembly.graph.append blocks }

/-- The assembly with the blocks of a condition, the first of them in a slot. -/
def plugged (owner : Nat) (name : String) (condition : Condition) (assembly : Assembly) : Assembly :=
  let here := assembly.graph.size
  { assembly with
    graph := (assembly.graph.modify owner fun block => block.holding name (condition.root? here)).append
      (condition.blocks owner here) }

theorem size_extended (blocks : List Block) (assembly : Assembly) :
    (extended blocks assembly).graph.size = assembly.graph.size + blocks.length :=
  Graph.size_append _ _

theorem plugged_missing (owner : Nat) (name : String) (assembly : Assembly) :
    plugged owner name .missing assembly = assembly := by
  have hgraph : ((assembly.graph.modify owner fun block => block).append []) = assembly.graph :=
    Graph.ext_block? (by simp [Graph.block?_eq_getElem?, List.getElem?_modify])
  simp only [plugged, Condition.root?, Condition.blocks, Block.holding, hgraph]

theorem plugged_extended (name : String) (condition : Condition) (assembly : Assembly) (block : Block)
    (blocks : List Block) {after : Nat} (hafter : assembly.graph.size + 1 + blocks.length = after) :
    plugged assembly.graph.size name condition (extended (block :: blocks) assembly) =
      extended (block.holding name (condition.root? after) ::
        (blocks ++ condition.blocks assembly.graph.size after)) assembly := by
  have hsize : (assembly.graph.append (block :: blocks)).size = after := by
    rw [Graph.size_append, List.length_cons]
    omega
  simp only [plugged, extended, hsize, Graph.modify_append_size, Graph.append_append, List.cons_append]

theorem link_extended {owner : Nat} {name : String} {condition : Condition} {assembly : Assembly}
    (howner : owner < assembly.graph.size) (hroot : condition.root? assembly.graph.size = some assembly.graph.size) :
    link owner name assembly.graph.size (extended (condition.blocks owner assembly.graph.size) assembly) =
      plugged owner name condition assembly := by
  simp only [link, extended, plugged, hroot, Block.holding, Graph.modify_append_of_lt howner]

/-- A change that commutes with giving ids and makes no blocks can be made before or after ids are given. -/
theorem map_change (seed : UInt64) {assembly : Assembly} {f : Assembly → Assembly}
    (hsize : (f assembly).graph.size = assembly.graph.size)
    (hlabelled : ∀ label, f (labelled label assembly) = labelled label (f assembly)) :
    (of? seed assembly).map (change f) = of? seed (f assembly) := by
  rw [of?, of?, hsize, Option.map_map]
  congr 1
  funext issuer
  simp only [Function.comp_apply, change, hlabelled]

theorem map_link (seed : UInt64) (owner : Nat) (name : String) (target : Nat) (assembly : Assembly) :
    (of? seed assembly).map (change (link owner name target)) = of? seed (link owner name target assembly) :=
  map_change seed (Graph.size_modify _ _ _) fun label => by simp only [labelled, link, relabel_setInput]

theorem bind_push (seed : UInt64) (assembly : Assembly) (block : Block) (id : String) :
    (of? seed assembly).bind (make push block) = of? seed (extended [{ block with id := id }] assembly) := by
  rw [issues_push.bind_make seed assembly block id, push, Graph.push_eq_append]
  rfl

theorem bind_map_size (seed : UInt64) (assembly : Assembly) (f : Nat → Drawing → Option Drawing)
    (g : Nat → Assembly → Assembly) :
    ((of? seed assembly).bind fun drawing =>
      (f drawing.assembly.graph.size drawing).map (change (g drawing.assembly.graph.size))) =
      ((of? seed assembly).bind (f assembly.graph.size)).map (change (g assembly.graph.size)) := by
  rw [Option.map_bind]
  apply Option.bind_congr
  intro drawing hdrawing
  obtain ⟨issuer, -, rfl⟩ := Option.map_eq_some_iff.1 hdrawing
  simp only [labelled, Graph.size_relabel, Function.comp_apply]

theorem slotFor_single (block : Block) (operand : Condition) (place : Nat) :
    { block with inputs := Condition.slotFor "OPERAND" place operand } =
      { block with inputs := [] }.holding "OPERAND" (operand.root? place) := by
  cases operand <;> rfl

theorem slotFor_pair (block : Block) (left right : Condition) (first second : Nat) :
    { block with inputs := Condition.slotFor "OPERAND1" first left ++ Condition.slotFor "OPERAND2" second right } =
      ({ block with inputs := [] }.holding "OPERAND1" (left.root? first)).holding "OPERAND2" (right.root? second) := by
  rw [Condition.slotFor_eq, Condition.slotFor_eq]
  cases left.root? first <;> cases right.root? second <;> rfl

theorem bind_emit (seed : UInt64) (condition : Condition) {owner : Nat} (name : String) {assembly : Assembly}
    (howner : owner < assembly.graph.size) :
    (of? seed assembly).bind (emit owner name condition) = of? seed (plugged owner name condition assembly) := by
  induction condition generalizing owner name assembly with
  | missing =>
    rw [plugged_missing]
    exact Option.bind_fun_some _
  | join connective left right ihleft ihright =>
    rw [← link_extended howner rfl, ← map_link]
    refine (bind_map_size seed assembly (fun here drawing =>
      ((drawing.make push _).bind (emit here "OPERAND1" left)).bind (emit here "OPERAND2" right))
        (link owner name)).trans ?_
    rw [← Option.bind_assoc, ← Option.bind_assoc, bind_push _ _ _ (provisionalId assembly.graph.size)]
    rw [ihleft _ (by simp [size_extended]), plugged_extended _ _ _ _ _ rfl, ihright _ (by simp [size_extended]),
      plugged_extended _ _ _ _ _ rfl]
    simp only [Condition.blocks, slotFor_pair, Condition.length_blocks, List.nil_append, List.length_nil, Nat.add_zero]
    rfl
  | not operand ih =>
    rw [← link_extended howner rfl, ← map_link]
    refine (bind_map_size seed assembly (fun here drawing =>
      (drawing.make push _).bind (emit here "OPERAND" operand)) (link owner name)).trans ?_
    rw [← Option.bind_assoc, bind_push _ _ _ (provisionalId assembly.graph.size)]
    rw [ih _ (by simp [size_extended]), plugged_extended _ _ _ _ _ rfl]
    simp only [Condition.blocks, slotFor_single, List.nil_append, List.length_nil, Nat.add_zero]
    rfl
  | _ =>
    rw [← link_extended howner rfl, ← map_link]
    refine (bind_map_size seed assembly (fun here drawing =>
      (Condition.blocks owner here _).foldlM (fun (made : Drawing) block => made.make push block) drawing)
        (link owner name)).trans ?_
    simp only [Condition.blocks, List.foldlM_cons, List.foldlM_nil, bind_pure]
    exact congrArg (Option.map _) (bind_push _ _ _ (provisionalId assembly.graph.size))

/-! ## Lines -/

theorem issues_startScript (layout : Layout) :
    Issues fun assembly => .addTopLevel layout { assembly with frames := [] } where
  size assembly block := (issues_addTopLevel layout).size { assembly with frames := [] } block
  labelled label assembly block := (issues_addTopLevel layout).labelled label { assembly with frames := [] } block

theorem addCondition_eq_plugged (owner : Nat) (condition : Condition) (assembly : Assembly) :
    assembly.addCondition owner condition = plugged owner "CONDITION" condition assembly := by
  cases condition with
  | missing => rw [plugged_missing, Assembly.addCondition]
  | _ => rfl

theorem addStatement_eq_plugged (layout : Layout) (assembly : Assembly) (statement : Statement) :
    assembly.addStatement layout statement =
      let here := assembly.graph.size
      let wired := plugged here "CONDITION" statement.conditionRead
        (assembly.addBlock layout (assembly.newBlock statement))
      if statement.opcode.opensBody then wired.openBody here else wired := by
  unfold Assembly.addStatement Statement.conditionRead
  cases hcondition : statement.condition with
  | none => simp only [plugged_missing]
  | some text => simp only [addCondition_eq_plugged]

theorem bind_addStatement (layout : Layout) (seed : UInt64) (assembly : Assembly) (statement : Statement) :
    ((of? seed assembly).bind fun drawing =>
      ((drawing.make (.addBlock layout) (.ofStatement "" statement)).bind
        (emit drawing.assembly.graph.size "CONDITION" statement.conditionRead)).map
          (change fun wired =>
            if statement.opcode.opensBody then wired.openBody drawing.assembly.graph.size else wired)) =
      of? seed (assembly.addStatement layout statement) := by
  have hplaced : (of? seed assembly).bind (make (.addBlock layout) (.ofStatement "" statement)) =
      of? seed (assembly.addBlock layout (assembly.newBlock statement)) :=
    (issues_addBlock layout).bind_make seed assembly (.ofStatement "" statement) (provisionalId assembly.graph.size)
  have howner : assembly.graph.size < (assembly.addBlock layout (assembly.newBlock statement)).graph.size := by
    rw [(issues_addBlock layout).size]
    exact Nat.lt_succ_self _
  rw [addStatement_eq_plugged]
  refine (bind_map_size seed assembly (fun here drawing =>
    (drawing.make (.addBlock layout) (.ofStatement "" statement)).bind
      (emit here "CONDITION" statement.conditionRead))
        fun here wired => if statement.opcode.opensBody then wired.openBody here else wired).trans ?_
  rw [← Option.bind_assoc, hplaced, bind_emit seed _ _ howner]
  cases statement.opcode.opensBody with
  | true => exact map_change seed rfl fun _ => rfl
  | false => exact map_change seed rfl fun _ => rfl

theorem enterElse_labelled (label : Nat → String) (assembly : Assembly) (number : Nat) :
    (labelled label assembly).enterElse number = labelled label (assembly.enterElse number) := by
  have hmodify := fun owner => assembly.graph.relabel_modify label owner
    (fun block => { block with opcode := .ifElse }) fun _ _ => rfl
  have hframes : (labelled label assembly).frames = assembly.frames := rfl
  have hgraph : (labelled label assembly).graph = assembly.graph.relabel label := rfl
  unfold Assembly.enterElse
  rw [hframes, hgraph]
  cases assembly.frames with
  | nil => rfl
  | cons frame outer =>
    dsimp only
    rw [Graph.block?_relabel]
    cases assembly.graph.block? frame.owner with
    | none => rfl
    | some owner =>
      simp only [Option.map_some]
      split
      · simp only [labelled, hmodify]
      · rfl

theorem size_enterElse (assembly : Assembly) (number : Nat) :
    (assembly.enterElse number).graph.size = assembly.graph.size := by
  unfold Assembly.enterElse
  split
  · rfl
  · split
    · rfl
    · split
      · exact Graph.size_modify _ _ _
      · rfl

theorem bind_feed (layout : Layout) (seed : UInt64) (assembly : Assembly) (line : SourceLine) :
    ((of? seed assembly).bind fun drawing => drawing.feed layout line) = of? seed (assembly.feed layout line) := by
  unfold feed Assembly.feed
  cases line.reading with
  | blank => exact Option.bind_fun_some _
  | marker marker =>
    cases marker with
    | close =>
      refine Option.map_eq_bind.symm.trans (map_change seed ?_ fun label => ?_)
      · cases hframes : assembly.frames <;> simp [Assembly.close, hframes, Assembly.warn]
      · cases hframes : assembly.frames <;> simp [labelled, Assembly.close, hframes, Assembly.warn]
    | otherwise =>
      exact Option.map_eq_bind.symm.trans (map_change seed (size_enterElse assembly line.number)
        fun label => enterElse_labelled label assembly line.number)
  | statement statement =>
    dsimp only
    split
    · exact (issues_startScript layout).bind_make seed assembly (.ofStatement "" statement)
        (provisionalId assembly.graph.size)
    · exact bind_addStatement layout seed assembly statement
  | unknown => exact Option.map_eq_bind.symm.trans (map_change seed rfl fun _ => rfl)

theorem ofSource_eq (layout : Layout) (seed : UInt64) (source : String) :
    ofSource layout seed source = of? seed (Assembly.ofSource layout source) := by
  have hrun : ∀ (lines : List SourceLine) (assembly : Assembly),
      ((of? seed assembly).bind fun drawing => lines.foldlM (feed layout) drawing) =
        of? seed (assembly.feedAll layout lines) := by
    intro lines
    induction lines with
    | nil => exact fun assembly => Option.bind_fun_some _
    | cons line lines ih =>
      intro assembly
      simp only [List.foldlM_cons, Option.bind_eq_bind]
      rw [← Option.bind_assoc, bind_feed, ih, Assembly.feedAll_cons]
  exact hrun _ {}

end Drawing

/-! ## The ids of a compiled graph -/

theorem Graph.ids_relabel (graph : Graph) (label : Nat → String) :
    (graph.relabel label).ids = (List.range graph.size).map label := by
  apply List.ext_getElem?
  intro index
  rw [ids, List.getElem?_map, ← block?_eq_getElem?, block?_relabel, List.getElem?_map]
  cases hblock : graph.block? index with
  | none =>
    have hle : graph.size ≤ index := by simpa [block?, size] using hblock
    simp [hle]
  | some block => simp [List.getElem?_range (lt_size_of_block? hblock)]

theorem compile_eq_relabel (layout : Layout) (seed : UInt64) (source : String) :
    compile layout seed source = (compilePlain layout source).relabel
      (placeId (BlockId.firstIds seed (compilePlain layout source).graph.size).toArray) :=
  rfl

theorem size_compile (layout : Layout) (seed : UInt64) (source : String) :
    (compile layout seed source).graph.size = (compilePlain layout source).graph.size :=
  Graph.size_relabel _ _

theorem block?_compile (layout : Layout) (seed : UInt64) (source : String) (index : Nat) :
    (compile layout seed source).graph.block? index = ((compilePlain layout source).graph.block? index).map fun block =>
      { block with
        id := placeId (BlockId.firstIds seed (compilePlain layout source).graph.size).toArray index } :=
  Graph.block?_relabel _ _ _

theorem skipped_compile (layout : Layout) (seed : UInt64) (source : String) :
    (compile layout seed source).skipped = (compilePlain layout source).skipped :=
  rfl

theorem warnings_compile (layout : Layout) (seed : UInt64) (source : String) :
    (compile layout seed source).warnings = (compilePlain layout source).warnings :=
  rfl

theorem nodup_ids_compile (layout : Layout) (seed : UInt64) (source : String) :
    (compile layout seed source).graph.ids.Nodup := by
  rw [compile_eq_relabel, Compiled.relabel, Graph.ids_relabel]
  refine List.Nodup.map_on (fun first hfirst second hsecond heq => ?_) List.nodup_range
  rw [List.mem_range] at hfirst hsecond
  rcases Nat.lt_trichotomy first second with hlt | rfl | hlt
  · exact absurd heq (placeId_firstIds_ne seed hlt hsecond)
  · rfl
  · exact absurd heq.symm (placeId_firstIds_ne seed hlt hfirst)

theorem linkedAt_compilePlain {layout : Layout} {source : String} {index : Nat} {block : Block}
    (h : (compilePlain layout source).graph.block? index = some block) :
    (compilePlain layout source).graph.LinkedAt index block := by
  obtain ⟨program, hformed, hregular, hgraph⟩ := exists_program layout (Source.lines source.toList)
  have hplain : (compilePlain layout source).graph = program.graph layout := hgraph
  rw [hplain] at h ⊢
  exact (program.linkedAt hregular hformed layout h).1

/-- The other result has the same blocks in the same places, but for their ids, and the same reports. -/
structure Compiled.RenamedTo (compiled other : Compiled) (label : Nat → String) : Prop where
  block? : ∀ index, other.graph.block? index =
    (compiled.graph.block? index).map fun block => { block with id := label index }
  skipped : other.skipped = compiled.skipped
  warnings : other.warnings = compiled.warnings

/-- The blocks have the ids of the seed, in the order of their places, and the map of blocks has a member for each. -/
structure Compiled.Issued (compiled : Compiled) (seed : UInt64) (ids : List String) : Prop where
  ids_eq : compiled.graph.ids = ids
  nth? : ∀ index block, compiled.graph.block? index = some block → BlockId.nth? seed index = some block.id
  isId : ∀ index block, compiled.graph.block? index = some block → BlockId.IsId block.id
  nodup : ids.Nodup
  members : ∃ members, Project.blockMap compiled.graph = .ok (.obj members) ∧ (members.map Prod.fst).Perm ids ∧
    members.length = compiled.graph.size

theorem issued_compile {layout : Layout} {seed : UInt64} {source : String} {ids : List String}
    (h : BlockId.firstIds? seed (compile layout seed source).graph.size = some ids) :
    (compile layout seed source).Issued seed ids := by
  have hnodup := nodup_ids_compile layout seed source
  have hlinked : ∀ index block, (compile layout seed source).graph.block? index = some block →
      (compile layout seed source).graph.LinkedAt index block := by
    intro index block hblock
    rw [block?_compile, Option.map_eq_some_iff] at hblock
    obtain ⟨plain, hplain, rfl⟩ := hblock
    exact (linkedAt_compilePlain hplain).relabel _ _
  have hids : (compile layout seed source).graph.ids = ids := by
    rw [size_compile] at h
    obtain ⟨hlength, -, -⟩ := BlockId.firstIds?_spec h
    rw [compile_eq_relabel, Compiled.relabel, Graph.ids_relabel, BlockId.firstIds_eq_of_some h, ← hlength]
    exact List.ext_getElem (by simp) fun index hleft hright => by simp [placeId, hright]
  have hid : ∀ index block, (compile layout seed source).graph.block? index = some block →
      ids[index]? = some block.id := by
    intro index block hblock
    rw [← hids, Graph.ids, List.getElem?_map, ← Graph.block?_eq_getElem?, hblock, Option.map_some]
  obtain ⟨members, hmembers, hperm⟩ := Project.exists_blockMap_eq_ok hlinked hnodup
  refine ⟨hids, fun index block hblock => ?_, fun index block hblock => ?_, hids ▸ hnodup, members, hmembers,
    hids ▸ hperm, ?_⟩
  · rw [BlockId.nth?_eq_getElem? h (Graph.lt_size_of_block? hblock), hid index block hblock]
  · exact (BlockId.firstIds?_spec h).2.2 _ (List.mem_of_getElem? (hid index block hblock))
  · rw [Graph.size_eq_length]
    simpa using hperm.length_eq

/-- Ids are a renaming. Another seed changes nothing but the ids. If the stream of the seed has an id for each block,
then drawing block by block has a result, which is the compiled one, and the block at a place has the id that a fresh
issuer gives out in that place. -/
theorem compile_renaming (layout : Layout) (source : String) (seed other : UInt64) :
    let compiled := compile layout seed source
    compiled.RenamedTo (compile layout other source)
        (placeId (BlockId.firstIds other compiled.graph.size).toArray) ∧
      ∀ ids, BlockId.firstIds? seed compiled.graph.size = some ids →
        (∃ drawing, Drawing.ofSource layout seed source = some drawing ∧ compiled = .ofAssembly drawing.assembly) ∧
          compiled.Issued seed ids := by
  intro compiled
  have hsize : compiled.graph.size = (compilePlain layout source).graph.size := size_compile layout seed source
  refine ⟨⟨fun index => ?_, by rw [skipped_compile, skipped_compile], by rw [warnings_compile, warnings_compile]⟩,
    fun ids hids => ⟨?_, issued_compile hids⟩⟩
  · rw [hsize, block?_compile, block?_compile, Option.map_map]
    rfl
  · rw [hsize] at hids
    obtain ⟨issuer, hissuer, rfl⟩ := Option.map_eq_some_iff.1 hids
    refine ⟨⟨Drawing.labelled (placeId issuer.issued.reverse.toArray) (.ofSource layout source), issuer⟩, ?_, ?_⟩
    · rw [Drawing.ofSource_eq, Drawing.of?]
      exact congrArg (Option.map _) hissuer
    · show compile layout seed source = _
      rw [compile_eq_relabel, BlockId.firstIds_eq_of_some hids]
      rfl

/-- A statement and its condition: the stream has an id for both, and the two blocks have them. -/
theorem compile_renaming_condition :
    let compiled := compile {} 7 "repeat until <mouse down?>"
    let ids := ["BTIhQKPHsnBFX23jfnZX", "dwOQ43B5Zc7TiAkbRNpI"]
    BlockId.firstIds? 7 compiled.graph.size = some ids ∧ compiled.Issued 7 ids ∧
      compiled.graph.toList.map Block.opcode = [.repeatUntil, .mouseDown] := by
  intro compiled ids
  have hplain : (compilePlain {} "repeat until <mouse down?>").graph.toList.map Block.opcode =
      [.repeatUntil, .mouseDown] := by
    decide +kernel
  have hsize : compiled.graph.size = 2 := by
    rw [size_compile, Graph.size_eq_length]
    simpa using congrArg List.length hplain
  have hids : BlockId.firstIds? 7 compiled.graph.size = some ids := by
    rw [hsize]
    exact BlockId.firstIds?_seven
  refine ⟨hids, ((compile_renaming {} "repeat until <mouse down?>" 7 0).2 ids hids).2, ?_⟩
  rw [← hplain]
  apply List.ext_getElem?
  intro index
  rw [List.getElem?_map, List.getElem?_map, ← Graph.block?_eq_getElem?, ← Graph.block?_eq_getElem?, block?_compile,
    Option.map_map]
  rfl

end ScratchScript
