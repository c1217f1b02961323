import ScratchScript.Proofs.Accounting
import ScratchScript.Proofs.Nesting

/-!
# Graphs only grow

A line that is fed adds blocks at the end of the graph and changes one old block at most (`feed_appendOnly`). The change
is the link to the first of the new blocks, in a place where there was no link, or an `if` that turns into one with an
else branch. So nothing that a block has is ever taken back, however many lines follow (`Block.GrowsInto`).

`setInput` and the update of `next` would replace what is there. That they never do is what `Nested` says of the place
where the next statement goes: an empty slot is empty in the graph, and nothing follows the block after which the chain
goes on.
-/

namespace ScratchScript

/-! ## What a line may change -/

/-- The link that a block can get to a new block at the place `first`. -/
inductive Block.Gains (first : Nat) : Block → Block → Prop
  | next {block : Block} : block.next = none → Gains first block { block with next := some first }
  | slot {block : Block} (slot : Slot) : block.input? slot.name = none →
      Gains first block { block with inputs := block.inputs ++ [(slot.name, .block first)] }

/-- What one line makes of a graph. -/
inductive Graph.Advances (graph later : Graph) : Prop
  /-- All blocks stay as they are. -/
  | kept : (∀ index block, graph.block? index = some block → later.block? index = some block) → Advances graph later
  /-- One block gets a link to the first of the new blocks. -/
  | linked (place : Nat) (block changed : Block) : graph.block? place = some block →
      later.block? place = some changed → graph.KeepsBut later place → graph.size < later.size →
      block.Gains graph.size changed → Advances graph later
  /-- One block turns into a branch, and there are no new blocks. -/
  | branched (place : Nat) (block : Block) : graph.block? place = some block → block.opcode = .ifThen →
      later.block? place = some { block with opcode := .ifElse } → graph.KeepsBut later place →
      later.size = graph.size → Advances graph later

/-- The later block is the block with more links, or the branch that an `if` has turned into. -/
structure Block.GrowsInto (block later : Block) : Prop where
  id : later.id = block.id
  opcode : later.opcode = block.opcode ∨ block.opcode = .ifThen ∧ later.opcode = .ifElse
  parent : later.parent = block.parent
  next : ∀ follower, block.next = some follower → later.next = some follower
  inputs : block.inputs <+: later.inputs
  fields : later.fields = block.fields
  shadow : later.shadow = block.shadow
  topLevel : later.topLevel = block.topLevel
  position : later.position = block.position

namespace Block

variable {block middle later : Block}

theorem GrowsInto.refl (block : Block) : block.GrowsInto block :=
  ⟨rfl, .inl rfl, rfl, fun _ h => h, List.prefix_rfl, rfl, rfl, rfl, rfl⟩

theorem GrowsInto.trans (h : block.GrowsInto middle) (h' : middle.GrowsInto later) : block.GrowsInto later := by
  refine ⟨h'.id.trans h.id, ?_, h'.parent.trans h.parent,
    fun follower hnext => h'.next follower (h.next follower hnext),
    h.inputs.trans h'.inputs, h'.fields.trans h.fields, h'.shadow.trans h.shadow, h'.topLevel.trans h.topLevel,
    h'.position.trans h.position⟩
  rcases h'.opcode with hsame | ⟨hthen, helse⟩
  · rw [hsame]
    exact h.opcode
  · -- a branch stays a branch, so the block was an `if` until now
    rcases h.opcode with hsame | ⟨-, hbranch⟩
    · exact .inr ⟨hsame ▸ hthen, helse⟩
    · simp [hbranch] at hthen

theorem Gains.growsInto {first : Nat} (h : block.Gains first later) : block.GrowsInto later := by
  cases h with
  | next hnext =>
    refine ⟨rfl, .inl rfl, rfl, ?_, List.prefix_rfl, rfl, rfl, rfl, rfl⟩
    intro follower hfollower
    simp [hnext] at hfollower
  | slot => exact ⟨rfl, .inl rfl, rfl, fun _ h => h, List.prefix_append _ _, rfl, rfl, rfl, rfl⟩

theorem growsInto_branch (h : block.opcode = .ifThen) : block.GrowsInto { block with opcode := .ifElse } :=
  ⟨rfl, .inr ⟨h, rfl⟩, rfl, fun _ h => h, List.prefix_rfl, rfl, rfl, rfl, rfl⟩

theorem gains_setInput {slot : Slot} (h : block.input? slot.name = none) (first : Nat) :
    block.Gains first (block.setInput slot.name (.block first)) := by
  have hnew : ∀ entry ∈ block.inputs, entry.1 ≠ slot.name := by
    intro entry hentry hname
    have hne := List.lookup_eq_none_iff.1 h entry hentry
    simp [hname] at hne
  rw [setInput, setEntry_of_not_mem _ hnew]
  exact .slot slot h

end Block

namespace Graph

variable {graph later : Graph}

theorem Advances.growsInto (h : graph.Advances later) {index : Nat} {block : Block}
    (hblock : graph.block? index = some block) :
    ∃ changed, later.block? index = some changed ∧ block.GrowsInto changed := by
  have hother : ∀ {place : Nat} {old changed : Block}, graph.block? place = some old →
      later.block? place = some changed → graph.KeepsBut later place → old.GrowsInto changed →
      ∃ changed, later.block? index = some changed ∧ block.GrowsInto changed := by
    intro place old changed hold hchanged hkeeps hgrows
    by_cases hplace : index = place
    · subst hplace
      obtain rfl := Option.some.inj (hblock.symm.trans hold)
      exact ⟨changed, hchanged, hgrows⟩
    · exact ⟨block, hkeeps index block hplace hblock, .refl block⟩
  cases h with
  | kept hkept => exact ⟨block, hkept index block hblock, .refl block⟩
  | linked place old changed hold hchanged hkeeps _ hgains => exact hother hold hchanged hkeeps hgains.growsInto
  | branched place old hold hthen hchanged hkeeps _ => exact hother hold hchanged hkeeps (Block.growsInto_branch hthen)

theorem advances_refl (graph : Graph) : graph.Advances graph :=
  .kept fun _ _ h => h

theorem advances_append (graph : Graph) (blocks : List Block) : graph.Advances (graph.append blocks) :=
  .kept fun _ _ h => block?_append_of_some h blocks

theorem advances_modify_append {place : Nat} {block : Block} (hblock : graph.block? place = some block)
    {change : Block → Block} (hgains : block.Gains graph.size (change block)) (new : Block) (blocks : List Block) :
    graph.Advances ((graph.modify place change).append (new :: blocks)) := by
  refine .linked place block (change block) hblock ?_ ((keepsBut_modify graph place change).append _) ?_ hgains
  · exact block?_append_of_some (block?_modify_self hblock change) _
  · rw [size_append, size_modify, List.length_cons]
    omega

end Graph

/-! ## One line -/

namespace Assembly

variable {assembly : Assembly}

theorem Nested.advances_joined (h : assembly.Nested) (block : Block) (blocks : List Block) :
    assembly.graph.Advances (assembly.joined.append (block :: blocks)) := by
  have hafter : ∀ previous, assembly.place = .after previous →
      assembly.graph.Advances (assembly.joined.append (block :: blocks)) := by
    intro previous hplace
    obtain ⟨old, hold, hnext⟩ := h.next_of_after previous hplace
    rw [joined_of_after hplace]
    exact Graph.advances_modify_append hold (.next hnext) _ _
  rcases h.place_cases with ⟨frame, outer, hframes, hempty, hplace⟩ | ⟨_, _, previous, _, _, _, hplace⟩ |
    ⟨previous, _, hplace⟩ | ⟨_, hplace⟩
  · obtain ⟨owner, howner, -, -, -, hslot, -⟩ := h.opens frame (by simp [hframes])
    rw [joined_of_slot hplace]
    exact Graph.advances_modify_append howner (Block.gains_setInput (hslot.1 hempty) _) _ _
  · exact hafter previous hplace
  · exact hafter previous hplace
  · have hjoined : assembly.joined = assembly.graph := by simp [joined, hplace]
    rw [hjoined]
    exact Graph.advances_append _ _

theorem graph_close (assembly : Assembly) (number : Nat) : (assembly.close number).graph = assembly.graph := by
  unfold close
  split <;> rfl

theorem Nested.advances_enterElse (h : assembly.Nested) (number : Nat) :
    assembly.graph.Advances (assembly.enterElse number).graph := by
  cases hframes : assembly.frames with
  | nil =>
    simp only [Assembly.enterElse, hframes]
    exact Graph.advances_refl _
  | cons frame outer =>
    obtain ⟨owner, howner, -, -, hbranch, -, -⟩ := h.opens frame (by simp [hframes])
    simp only [Assembly.enterElse, hframes, howner]
    split
    · rename_i htakes
      simp only [Bool.and_eq_true, beq_iff_eq] at htakes
      obtain ⟨haccepts, hslot⟩ := htakes
      have hne : owner.opcode ≠ .ifElse := by
        intro heq
        simp [hslot] at hbranch
        exact hbranch heq
      have hthen := Opcode.eq_ifThen_of_acceptsElse haccepts hne
      refine .branched frame.owner owner howner hthen ?_ (Graph.keepsBut_modify _ _ _) (Graph.size_modify _ _ _)
      exact Graph.block?_modify_self howner _
    · exact Graph.advances_refl _

theorem graph_addStatement (layout : Layout) (assembly : Assembly) (statement : Statement) :
    (assembly.addStatement layout statement).graph =
      assembly.joined.append (statement.block (assembly.spot layout) assembly.container assembly.graph.size ::
        statement.conditionBlocks assembly.graph.size) := by
  rw [addStatement_eq]
  dsimp only
  split <;> rfl

theorem Nested.advances_feed (layout : Layout) (h : assembly.Nested) (line : SourceLine) :
    assembly.graph.Advances (assembly.feed layout line).graph := by
  unfold Assembly.feed
  cases line.reading with
  | blank => exact Graph.advances_refl _
  | unknown => exact Graph.advances_refl _
  | marker marker =>
    cases marker with
    | close =>
      rw [graph_close]
      exact Graph.advances_refl _
    | otherwise => exact h.advances_enterElse line.number
  | statement statement =>
    dsimp only
    split
    · simp only [startScript, addTopLevel, Graph.push_eq_append]
      exact Graph.advances_append _ _
    · rw [graph_addStatement]
      exact h.advances_joined _ _

theorem Nested.growsInto_feedAll (layout : Layout) (h : assembly.Nested) (lines : List SourceLine) {index : Nat}
    {block : Block} (hblock : assembly.graph.block? index = some block) :
    ∃ later, (assembly.feedAll layout lines).graph.block? index = some later ∧ block.GrowsInto later := by
  induction lines generalizing assembly block with
  | nil => exact ⟨block, hblock, .refl block⟩
  | cons line lines ih =>
    obtain ⟨middle, hmiddle, hgrows⟩ := (h.advances_feed layout line).growsInto hblock
    obtain ⟨later, hlater, hmore⟩ := ih (h.feed layout line) hmiddle
    exact ⟨later, hlater, hgrows.trans hmore⟩

/-- Feeding a line adds blocks and one link to them, or turns an `if` into a branch, and notes the line at most. Nothing
that was there is ever replaced, by this line or by any number of others. -/
theorem feed_appendOnly (layout : Layout) (lines : List SourceLine) (line : SourceLine) :
    let before := ofLines layout lines
    let after := before.feed layout line
    before.graph.Advances after.graph ∧
      (after.skipped = before.skipped ∨ after.skipped = before.skipped.push line) ∧
      ∀ more index block, before.graph.block? index = some block →
        ∃ later, (before.feedAll layout more).graph.block? index = some later ∧ block.GrowsInto later := by
  intro before after
  have hnested : before.Nested := nested_empty.feedAll layout lines
  have hskipped := skipped_feed layout before line
  refine ⟨hnested.advances_feed layout line, ?_, fun more index block => hnested.growsInto_feedAll layout more⟩
  cases hunknown : line.isUnknown with
  | false =>
    left
    rw [← Array.toList_inj, hskipped]
    simp [hunknown]
  | true =>
    right
    rw [← Array.toList_inj, hskipped]
    simp [hunknown]

end Assembly

end ScratchScript
