import ScratchScript.Compiled
import ScratchScript.Proofs.Balance
import ScratchScript.Proofs.FreshIds
import ScratchScript.Proofs.Placement

/-!
# Links between blocks

`Graph.WellLinked` says what the links of a graph have to satisfy, and `problems_eq_nil_iff` that `Graph.problems`
finds nothing exactly if they do. Every compiled graph is well linked (`compile_wellLinked`), whatever the source: its
graph is that of a program, whose blocks link to blocks that are there and that link back, and the ids of a seed are
different.
-/

namespace ScratchScript

namespace Graph

/-- The block at the place follows one that has no parent and is no hat. -/
def FollowsHeadless (graph : Graph) (index : Nat) : Prop :=
  ∃ first block, graph.block? first = some block ∧ block.parent = none ∧ block.opcode.isHat = false ∧
    block.next = some index

/-- The links of a block lead to blocks that are there and that agree with them. -/
structure LinkedAt (graph : Graph) (index : Nat) (block : Block) : Prop where
  parent_lt : ∀ parent, block.parent = some parent → parent < graph.size
  next_lt : ∀ next, block.next = some next → next < graph.size
  parent_of_topLevel : block.topLevel = true → block.parent = none
  attached : block.topLevel = false → block.parent = none → graph.FollowsHeadless index
  input_parent : ∀ name target, (name, .block target) ∈ block.inputs →
    ∃ child, graph.block? target = some child ∧ child.parent = some index
  follower_parent : ∀ next follower, block.next = some next → graph.block? next = some follower →
    follower.parent = if block.opcode.isHat then some index else block.parent

/-- Ids are different, and every block is linked as it should be. -/
structure WellLinked (graph : Graph) : Prop where
  ids_ne : ∀ first second block other, first < second → graph.block? first = some block →
    graph.block? second = some other → block.id ≠ other.id
  linkedAt : ∀ index block, graph.block? index = some block → graph.LinkedAt index block

/-! ## What the checker finds -/

variable {graph : Graph} {index : Nat} {block : Block}

theorem idProblems_eq_nil_iff : graph.idProblems index block = [] ↔
    ∀ first other, first < index → graph.block? first = some other → other.id ≠ block.id := by
  have hnone : graph.idProblems index block = [] ↔ graph.lastWithId? index block.id = none := by
    unfold idProblems
    split <;> simp [*]
  rw [hnone, lastWithId?, List.find?_eq_none]
  simp only [List.mem_reverse, List.mem_range, Option.any_eq_true, beq_iff_eq, not_exists, not_and]
  constructor
  · intro h first other hlt hother
    exact h first hlt other hother
  · intro h first hlt other hother
    exact h first other hlt hother

theorem linkProblems_eq_nil_iff : graph.linkProblems block = [] ↔
    (∀ parent, block.parent = some parent → parent < graph.size) ∧
      ∀ next, block.next = some next → next < graph.size := by
  simp only [linkProblems, List.filterMap_eq_nil_iff, ite_eq_left_iff, reduceCtorEq, imp_false, not_not]
  cases block.parent <;> cases block.next <;> simp

theorem followsHeadless_iff : graph.followsHeadless index = true ↔ graph.FollowsHeadless index := by
  unfold followsHeadless FollowsHeadless
  rw [← Array.any_toList, List.any_eq_true]
  simp only [Bool.and_eq_true, Option.isNone_iff_eq_none, Bool.not_eq_true', beq_iff_eq, and_assoc,
    block?_eq_getElem?]
  constructor
  · rintro ⟨block, hmem, hblock⟩
    obtain ⟨first, hfirst⟩ := List.mem_iff_getElem?.1 hmem
    exact ⟨first, block, hfirst, hblock⟩
  · rintro ⟨first, block, hfirst, hblock⟩
    exact ⟨block, List.mem_of_getElem? hfirst, hblock⟩

theorem parentProblems_eq_nil_iff : graph.parentProblems index block = [] ↔
    (block.topLevel = true → block.parent = none) ∧
      (block.topLevel = false → block.parent = none → graph.FollowsHeadless index) := by
  rw [← followsHeadless_iff]
  unfold parentProblems
  cases block.topLevel <;> cases block.parent <;> simp

theorem inputProblems_eq_nil_iff : graph.inputProblems index block = [] ↔
    ∀ name target, (name, Input.block target) ∈ block.inputs →
      ∃ child, graph.block? target = some child ∧ child.parent = some index := by
  rw [inputProblems, List.filterMap_eq_nil_iff]
  constructor
  · intro h name target hmem
    have hentry := h (name, .block target) hmem
    cases hchild : graph.block? target with
    | none => simp [hchild] at hentry
    | some child => exact ⟨child, rfl, by simpa [hchild] using hentry⟩
  · rintro h ⟨name, input⟩ hmem
    cases input with
    | literal => rfl
    | block target =>
      obtain ⟨child, hchild, hparent⟩ := h name target hmem
      simp [hchild, hparent]

theorem followerProblems_eq_nil_iff : graph.followerProblems index block = [] ↔
    ∀ next follower, block.next = some next → graph.block? next = some follower →
      follower.parent = if block.opcode.isHat then some index else block.parent := by
  unfold followerProblems containerAfter
  cases hbind : block.next.bind graph.block? with
  | none =>
    refine ⟨fun _ next follower hnext hfollower => ?_, fun _ => rfl⟩
    simp [hnext, hfollower] at hbind
  | some follower =>
    obtain ⟨next, hnext, hfollower⟩ := Option.bind_eq_some_iff.1 hbind
    constructor
    · intro h other otherFollower hother hotherFollower
      obtain rfl : next = other := by simpa [hnext] using hother
      obtain rfl : follower = otherFollower := by simpa [hfollower] using hotherFollower
      simpa using h
    · intro h
      simpa using h next follower hnext hfollower

theorem blockProblems_eq_nil_iff : graph.blockProblems index block = [] ↔
    (∀ first other, first < index → graph.block? first = some other → other.id ≠ block.id) ∧
      graph.LinkedAt index block := by
  simp only [blockProblems, List.append_eq_nil_iff, idProblems_eq_nil_iff, linkProblems_eq_nil_iff,
    parentProblems_eq_nil_iff, inputProblems_eq_nil_iff, followerProblems_eq_nil_iff]
  constructor
  · rintro ⟨⟨⟨⟨hids, hparent, hnext⟩, htop, hattached⟩, hinputs⟩, hfollower⟩
    exact ⟨hids, hparent, hnext, htop, hattached, hinputs, hfollower⟩
  · rintro ⟨hids, hparent, hnext, htop, hattached, hinputs, hfollower⟩
    exact ⟨⟨⟨⟨hids, hparent, hnext⟩, htop, hattached⟩, hinputs⟩, hfollower⟩

/-- The checker finds nothing exactly if the graph is well linked. -/
theorem problems_eq_nil_iff : graph.problems = [] ↔ graph.WellLinked := by
  have hmem : graph.problems = [] ↔ ∀ index block, graph.block? index = some block →
      graph.blockProblems index block = [] := by
    simp only [problems, List.flatMap_eq_nil_iff, Prod.forall, List.mem_zipIdx_iff_getElem?, block?_eq_getElem?]
    exact ⟨fun h index block hblock => h block index hblock, fun h block index hblock => h index block hblock⟩
  simp only [hmem, blockProblems_eq_nil_iff]
  constructor
  · intro h
    exact ⟨fun first second block other hlt hblock hother => (h second other hother).1 first block hlt hblock,
      fun index block hblock => (h index block hblock).2⟩
  · intro h index block hblock
    exact ⟨fun first other hlt hother => h.ids_ne first index other block hlt hother hblock,
      h.linkedAt index block hblock⟩

/-! ## Stretches of a graph -/

/-- The `count` blocks from the place `first` on are linked as they should be, and their ids name their places. -/
def LinkedOn (graph : Graph) (first count : Nat) : Prop :=
  ∀ index block, first ≤ index → index < first + count → graph.block? index = some block →
    graph.LinkedAt index block ∧ block.id = provisionalId index

theorem linkedOn_zero (first : Nat) : graph.LinkedOn first 0 :=
  allOn_zero first

theorem linkedOn_one (hblock : graph.block? index = some block) (h : graph.LinkedAt index block)
    (hid : block.id = provisionalId index) : graph.LinkedOn index 1 :=
  allOn_one hblock ⟨h, hid⟩

theorem LinkedOn.append {first count more : Nat} (h : graph.LinkedOn first count)
    (hmore : graph.LinkedOn (first + count) more) : graph.LinkedOn first (count + more) :=
  AllOn.append h hmore

end Graph

theorem Block.mem_inner {block : Block} {name : String} {target : Nat}
    (h : (name, Input.block target) ∈ block.inputs) : target ∈ block.inner :=
  List.mem_filterMap.2 ⟨(name, .block target), h, rfl⟩

/-! ## Links of a program -/

variable {graph : Graph}

theorem Condition.linkedOn (condition : Condition) {parent index : Nat}
    (hholds : graph.Holds index (condition.blocks parent index)) (hparent : parent < graph.size) :
    graph.LinkedOn index condition.size := by
  induction condition using Condition.splitsRec generalizing parent index with
  | missing => exact Graph.linkedOn_zero index
  | @step condition left right hsplits ihleft ihright =>
    obtain ⟨⟨block, hblock, hid, hblockParent, hnext, htop, hinner⟩, hleft, hright⟩ := hsplits.holds hholds
    have hindex := Graph.lt_size_of_block? hblock
    have hlinked : graph.LinkedAt index block := by
      refine ⟨?_, by simp [hnext], by simp [htop], by simp [hblockParent], ?_, by simp [hnext]⟩
      · intro above habove
        obtain rfl : parent = above := by simpa [hblockParent] using habove
        exact hparent
      · intro name target hmem
        have htarget := Block.mem_inner hmem
        rw [hinner, List.mem_append, Option.mem_toList, Option.mem_toList] at htarget
        rcases htarget with htarget | htarget
        · exact Condition.parent_of_root? hleft htarget
        · exact Condition.parent_of_root? hright htarget
    rw [hsplits.size, Nat.add_assoc]
    exact (Graph.linkedOn_one hblock hlinked hid).append ((ihleft hleft hindex).append (ihright hright hindex))

theorem Statement.linkedAt {statement : Statement} {spot : Option Position} {parent : Option Nat} {index : Nat}
    {opcode : Opcode} {body otherwise next : Option Nat}
    (hcondition : graph.Holds (index + 1) (statement.conditionBlocks index))
    (hbody : ∀ target, body = some target → ∃ block, graph.block? target = some block ∧ block.parent = some index)
    (hother : ∀ target, otherwise = some target →
      ∃ block, graph.block? target = some block ∧ block.parent = some index)
    (hnext : ∀ target, next = some target → ∃ block, graph.block? target = some block ∧
      block.parent = if opcode.isHat then some index else parent)
    (hparent : ∀ above, parent = some above → above < graph.size) (hspot : spot.isSome = true → parent = none)
    (hattached : spot.isSome = false → parent = none → graph.FollowsHeadless index) :
    graph.LinkedAt index (statement.linked spot parent index opcode body otherwise next) := by
  refine ⟨hparent, ?_, hspot, hattached, ?_, ?_⟩
  · intro target htarget
    obtain ⟨block, hblock, -⟩ := hnext target htarget
    exact Graph.lt_size_of_block? hblock
  · intro name target hmem
    have htarget := Block.mem_inner hmem
    rw [Statement.inner_linked, List.mem_append, List.mem_append, Option.mem_toList, Option.mem_toList,
      Option.mem_toList] at htarget
    rcases htarget with (htarget | htarget) | htarget
    · exact Condition.parent_of_root? hcondition htarget
    · exact hbody target htarget
    · exact hother target htarget
  · intro target follower htarget hfollower
    obtain ⟨block, hblock, hblockParent⟩ := hnext target htarget
    obtain rfl : block = follower := by simpa [hblock] using hfollower
    exact hblockParent

/-- The blocks of a chain are linked if its parent is there, and if its first block stands on the canvas or follows
another one wherever there is no parent. -/
theorem Chain.linkedOn (chain : Chain Statement) (hregular : chain.All Statement.Regular) (hformed : chain.WellFormed)
    {spot : Option Position} {parent : Option Nat} {index : Nat}
    (hholds : graph.Holds index (chain.blocks spot parent index))
    (hparent : ∀ above, parent = some above → above < graph.size) (hspot : spot.isSome = true → parent = none)
    (hattached : chain ≠ .done → spot.isSome = false → parent = none → graph.FollowsHeadless index) :
    graph.LinkedOn index chain.size := by
  induction chain using Chain.splitsRec generalizing spot parent index with
  | done => exact Graph.linkedOn_zero index
  | @step chain header opcode body otherwise rest hsplits ihbody ihother ihrest =>
    obtain ⟨hheader, hbodyRegular, hotherRegular, hrestRegular⟩ := hsplits.all hregular
    obtain ⟨hbodyFormed, hotherFormed, hrestFormed⟩ := hsplits.wellFormed hformed
    obtain ⟨hblock, hcondition, hbody, hother, hrest⟩ := hsplits.holds hheader hholds
    have hhat := hsplits.isHat hformed
    have hinside : ∀ above, some index = some above → above < graph.size := by
      rintro _ ⟨⟩
      exact Graph.lt_size_of_block? hblock
    have hnext : ∀ target, rest.start? (index + header.size + body.size + otherwise.size) = some target →
        ∃ block, graph.block? target = some block ∧ block.parent = if opcode.isHat then some index else parent := by
      intro target htarget
      simpa [hhat] using Chain.parent_of_start? hrestRegular hrest htarget
    have hlinked : graph.LinkedAt index (header.linked spot parent index opcode _ _ _) :=
      Statement.linkedAt hcondition (fun _ => Chain.parent_of_start? hbodyRegular hbody)
        (fun _ => Chain.parent_of_start? hotherRegular hother) hnext hparent hspot (hattached hsplits.ne_done)
    have hbodyLinked := ihbody hbodyRegular hbodyFormed hbody hinside (by simp) (by simp)
    have hotherLinked := ihother hotherRegular hotherFormed hother hinside (by simp) (by simp)
    -- what follows has no parent only if this statement has none
    have hrestLinked := ihrest hrestRegular hrestFormed hrest hparent (by simp) fun hdone _ hnone =>
      ⟨index, _, hblock, hnone, hhat, Chain.start?_of_ne_done hdone _⟩
    have hconditionLinked := Condition.linkedOn header.conditionRead hcondition (hinside index rfl)
    have hheaderLinked : graph.LinkedOn index header.size :=
      (Graph.linkedOn_one hblock hlinked rfl).append hconditionLinked
    rw [hsplits.size, Nat.add_assoc, Nat.add_assoc]
    exact hheaderLinked.append (hbodyLinked.append (hotherLinked.append hrestLinked))

theorem Script.linkedOn {script : Script Statement} (hregular : script.All Statement.Regular)
    (hformed : script.WellFormed) {position : Position} {index : Nat}
    (hholds : graph.Holds index (script.blocks position index)) : graph.LinkedOn index script.size := by
  obtain ⟨hat?, chain⟩ := script
  obtain ⟨hhats, -, hchainFormed⟩ := hformed
  obtain ⟨hhatRegular, hchainRegular⟩ := hregular
  cases hat? with
  | none =>
    have hlinked := chain.linkedOn hchainRegular hchainFormed (show graph.Holds index (chain.blocks _ none index)
      from hholds) (by simp) (by simp) (by simp)
    simpa [Script.size] using hlinked
  | some hat =>
    have hhat := hhats hat rfl
    obtain ⟨hblock, hcondition, hchain⟩ := Script.holds_hat (hhatRegular hat rfl) hhat hholds
    have hinside : ∀ above, some index = some above → above < graph.size := by
      rintro _ ⟨⟩
      exact Graph.lt_size_of_block? hblock
    have hnext : ∀ target, chain.start? (index + 1) = some target → ∃ block, graph.block? target = some block ∧
        block.parent = if hat.opcode.isHat then some index else none := by
      intro target htarget
      simpa [hhat] using Chain.parent_of_start? hchainRegular hchain htarget
    have hlinked : graph.LinkedAt index (hat.linked (some position) none index hat.opcode none none _) :=
      Statement.linkedAt hcondition (by simp) (by simp) hnext (by simp) (by simp) (by simp)
    have hchainLinked := chain.linkedOn hchainRegular hchainFormed hchain hinside (by simp) (by simp)
    exact (Graph.linkedOn_one hblock hlinked rfl).append hchainLinked

theorem Program.linkedOn {program : Program Statement} (hregular : ∀ script ∈ program, script.All Statement.Regular)
    (hformed : ∀ script ∈ program, script.WellFormed) {layout : Layout} {number index : Nat}
    (hholds : graph.Holds index (program.blocks layout number index)) :
    graph.LinkedOn index (program.blocks layout number index).length := by
  induction program generalizing number index with
  | nil => exact Graph.linkedOn_zero index
  | cons script program ih =>
    obtain ⟨hscriptRegular, hothersRegular⟩ := List.forall_mem_cons.1 hregular
    obtain ⟨hscriptFormed, hothersFormed⟩ := List.forall_mem_cons.1 hformed
    obtain ⟨hscript, hothers⟩ := Program.holds_cons.1 hholds
    rw [Program.length_blocks_cons]
    exact (Script.linkedOn hscriptRegular hscriptFormed hscript).append (ih hothersRegular hothersFormed hothers)

theorem Program.linkedAt {program : Program Statement} (hregular : ∀ script ∈ program, script.All Statement.Regular)
    (hformed : program.WellFormed) (layout : Layout) {index : Nat} {block : Block}
    (hblock : (program.graph layout).block? index = some block) :
    (program.graph layout).LinkedAt index block ∧ block.id = provisionalId index := by
  have hholds : (program.graph layout).Holds 0 (program.blocks layout 0 0) := (program.graph layout).holds_toList
  have hlt := Graph.lt_size_of_block? hblock
  rw [Graph.size_eq_length] at hlt
  refine Program.linkedOn hregular hformed.1 hholds index block (Nat.zero_le _) ?_ hblock
  rw [Nat.zero_add]
  exact hlt

/-! ## Ids -/

theorem provisionalId_injective : Function.Injective provisionalId := by
  intro first second h
  have hdigits : Nat.toDigits 10 first = Nat.toDigits 10 second :=
    String.ofList_injective (by simpa [provisionalId, Nat.repr] using h)
  calc first = Nat.ofDigitChars 10 (Nat.toDigits 10 first) 0 :=
        (Nat.ofDigitChars_toDigits (by decide) (by decide)).symm
    _ = Nat.ofDigitChars 10 (Nat.toDigits 10 second) 0 := by rw [hdigits]
    _ = second := Nat.ofDigitChars_toDigits (by decide) (by decide)

namespace Graph

theorem FollowsHeadless.relabel {index : Nat} (h : graph.FollowsHeadless index) (label : Nat → String) :
    (graph.relabel label).FollowsHeadless index := by
  obtain ⟨first, block, hblock, hrest⟩ := h
  exact ⟨first, _, block?_relabel_of_some hblock label, hrest⟩

theorem LinkedAt.relabel {index : Nat} {block : Block} (h : graph.LinkedAt index block) (label : Nat → String)
    (id : String) : (graph.relabel label).LinkedAt index { block with id := id } := by
  refine ⟨?_, ?_, h.parent_of_topLevel, fun htop hnone => (h.attached htop hnone).relabel label, ?_, ?_⟩
  · rw [size_relabel]
    exact h.parent_lt
  · rw [size_relabel]
    exact h.next_lt
  · intro name target hmem
    obtain ⟨child, hchild, hparent⟩ := h.input_parent name target hmem
    exact ⟨_, block?_relabel_of_some hchild label, hparent⟩
  · intro next follower hnext hfollower
    rw [block?_relabel, Option.map_eq_some_iff] at hfollower
    obtain ⟨old, hold, rfl⟩ := hfollower
    exact h.follower_parent next old hnext hold

theorem wellLinked_relabel (h : ∀ index block, graph.block? index = some block → graph.LinkedAt index block)
    {label : Nat → String}
    (hlabel : ∀ first second, first < second → second < graph.size → label first ≠ label second) :
    (graph.relabel label).WellLinked := by
  constructor
  · intro first second block other hlt hblock hother
    have hsecond := lt_size_of_block? hother
    rw [size_relabel] at hsecond
    rw [block?_relabel, Option.map_eq_some_iff] at hblock hother
    obtain ⟨_, -, rfl⟩ := hblock
    obtain ⟨_, -, rfl⟩ := hother
    exact hlabel first second hlt hsecond
  · intro index block hblock
    rw [block?_relabel, Option.map_eq_some_iff] at hblock
    obtain ⟨old, hold, rfl⟩ := hblock
    exact (h index old hold).relabel label _

end Graph

/-- Places are given different ids, also where the stream does not have enough of them. -/
theorem placeId_firstIds_ne (seed : UInt64) {count first second : Nat} (hlt : first < second)
    (hcount : second < count) :
    placeId (BlockId.firstIds seed count).toArray first ≠ placeId (BlockId.firstIds seed count).toArray second := by
  unfold placeId
  cases hids : BlockId.firstIds? seed count with
  | none =>
    rw [BlockId.firstIds, hids]
    exact fun heq => Nat.ne_of_lt hlt (provisionalId_injective heq)
  | some ids =>
    obtain ⟨hlength, hnodup, -⟩ := BlockId.firstIds?_spec hids
    rw [BlockId.firstIds_eq_of_some hids, Array.getD_eq_getD_getElem?, Array.getD_eq_getD_getElem?,
      List.getElem?_toArray, List.getElem?_toArray, List.getElem?_eq_getElem (by omega),
      List.getElem?_eq_getElem (by omega), Option.getD_some, Option.getD_some]
    intro heq
    have hsame := hnodup.getElem_inj_iff.1 heq
    omega

/-- Whatever the source, the compiled graph is well linked, with the ids of any seed as well as with ids that name
places, and the checker has nothing to report. -/
theorem compile_wellLinked (layout : Layout) (seed : UInt64) (source : String) :
    ((compile layout seed source).graph.WellLinked ∧ (compile layout seed source).graph.problems = []) ∧
      (compilePlain layout source).graph.WellLinked ∧ (compilePlain layout source).graph.problems = [] := by
  rw [Graph.problems_eq_nil_iff, Graph.problems_eq_nil_iff, and_self, and_self]
  obtain ⟨program, hformed, hregular, hgraph⟩ := exists_program layout (Source.lines source.toList)
  have hlinked : ∀ index block, (compilePlain layout source).graph.block? index = some block →
      (compilePlain layout source).graph.LinkedAt index block ∧ block.id = provisionalId index := by
    have hassembled : (compilePlain layout source).graph = program.graph layout := hgraph
    rw [hassembled]
    exact fun index block => program.linkedAt hregular hformed layout
  constructor
  · exact Graph.wellLinked_relabel (fun index block hblock => (hlinked index block hblock).1)
      fun first second hlt hsize => placeId_firstIds_ne seed hlt hsize
  · refine ⟨fun first second block other hlt hblock hother heq => ?_, fun index block h => (hlinked index block h).1⟩
    rw [(hlinked first block hblock).2, (hlinked second other hother).2] at heq
    exact Nat.ne_of_lt hlt (provisionalId_injective heq)

end ScratchScript
