import Mathlib.Logic.ExistsUnique
import ScratchScript.Compiled
import ScratchScript.Proofs.Balance
import ScratchScript.Proofs.Placement

/-!
# Graphs in preorder

A compiled graph is a forest whose blocks stand in the order of a visit: a block comes before the blocks in its slots,
and these before the block that follows it (`compile_isForest`).

* `Graph.Walk` is such a visit, as a relation: what it leads to from some places is unique, and only a visit that ends
  has a result.
* `Chain.walksOver`, by induction on the parts of a chain: a visit that starts where the chain starts passes exactly its
  stretch of the graph, one place after the other.
* If a visit passes no place twice, then every place has exactly one way to it (`Walk.way_unique`), and no way comes
  back to where it began.
-/

namespace ScratchScript

/-- The places that a block leads to: those of the blocks in its slots, then that of the block that follows it. -/
def Block.children (block : Block) : List Nat :=
  block.inner ++ block.next.toList

namespace Graph

/-- A visit of some places, each followed by what its block leads to, passes these places. -/
inductive Walk (graph : Graph) : List Nat → List Nat → Prop
  | nil : Walk graph [] []
  | cons {index : Nat} {block : Block} {rest inner outer : List Nat} :
      graph.block? index = some block → Walk graph block.children inner → Walk graph rest outer →
      Walk graph (index :: rest) (index :: (inner ++ outer))

/-- Where a way leads: each step is the number of a child. -/
def follow? (graph : Graph) (index : Nat) : List Nat → Option Nat
  | [] => some index
  | step :: way => do
    let block ← graph.block? index
    let child ← block.children[step]?
    graph.follow? child way

/-- A visit of the top-level blocks passes all places in order, every place has one way to it from one top-level block,
and no way comes back to where it began. -/
structure IsForest (graph : Graph) : Prop where
  walk_iff : ∀ visited, graph.Walk graph.topLevel visited ↔ visited = List.range graph.size
  existsUnique_way : ∀ index < graph.size,
    ∃! way : Nat × List Nat, way.1 ∈ graph.topLevel ∧ graph.follow? way.1 way.2 = some index
  acyclic : ∀ index way, graph.follow? index way = some index → way = []

/-! ## Visits -/

variable {graph : Graph} {places visited : List Nat}

theorem follow?_cons_eq_some {index step target : Nat} {block : Block} (hblock : graph.block? index = some block)
    {way : List Nat} : graph.follow? index (step :: way) = some target ↔
      ∃ child, block.children[step]? = some child ∧ graph.follow? child way = some target := by
  simp [follow?, hblock, Option.bind_eq_some_iff]

theorem Walk.append (h : graph.Walk places visited) {others more : List Nat} (hothers : graph.Walk others more) :
    graph.Walk (places ++ others) (visited ++ more) := by
  induction h with
  | nil => exact hothers
  | cons hblock hinner _ _ ih =>
    rw [List.cons_append, List.cons_append, List.append_assoc]
    exact .cons hblock hinner ih

theorem Walk.unique (h : graph.Walk places visited) {other : List Nat} (hother : graph.Walk places other) :
    visited = other := by
  induction h generalizing other with
  | nil =>
    cases hother
    rfl
  | cons hblock _ _ ihinner ihouter =>
    cases hother with
    | cons hotherBlock hotherInner hotherOuter =>
      obtain rfl := Option.some.inj (hblock.symm.trans hotherBlock)
      rw [ihinner hotherInner, ihouter hotherOuter]

theorem Walk.mem_of_follow? (h : graph.Walk places visited) {start : Nat} (hstart : start ∈ places) {way : List Nat}
    {target : Nat} (hway : graph.follow? start way = some target) : target ∈ visited := by
  induction h generalizing start way with
  | nil => simp at hstart
  | @cons index block rest inner outer hblock _ _ ihinner ihouter =>
    rcases List.mem_cons.1 hstart with rfl | hstart
    · cases way with
      | nil =>
        obtain rfl : start = target := by simpa [follow?] using hway
        simp
      | cons step way =>
        obtain ⟨child, hchild, hway⟩ := (follow?_cons_eq_some hblock).1 hway
        have hmem := ihinner (List.mem_of_getElem? hchild) hway
        simp [hmem]
    · have hmem := ihouter hstart hway
      simp [hmem]

theorem Walk.exists_way (h : graph.Walk places visited) {target : Nat} (htarget : target ∈ visited) :
    ∃ start ∈ places, ∃ way, graph.follow? start way = some target := by
  induction h with
  | nil => simp at htarget
  | @cons index block rest inner outer hblock _ _ ihinner ihouter =>
    rw [List.mem_cons, List.mem_append] at htarget
    rcases htarget with rfl | htarget | htarget
    · exact ⟨target, by simp, [], rfl⟩
    · obtain ⟨child, hchild, way, hway⟩ := ihinner htarget
      obtain ⟨step, hstep⟩ := List.mem_iff_getElem?.1 hchild
      exact ⟨index, by simp, step :: way, (follow?_cons_eq_some hblock).2 ⟨child, hstep, hway⟩⟩
    · obtain ⟨start, hstart, way, hway⟩ := ihouter htarget
      exact ⟨start, by simp [hstart], way, hway⟩

theorem Walk.mem_of_follow?_cons {index step target : Nat} {block : Block} {way : List Nat}
    (h : graph.Walk block.children visited) (hblock : graph.block? index = some block)
    (hway : graph.follow? index (step :: way) = some target) : target ∈ visited := by
  obtain ⟨child, hchild, hway⟩ := (follow?_cons_eq_some hblock).1 hway
  exact h.mem_of_follow? (List.mem_of_getElem? hchild) hway

/-- If a visit passes no place twice, then no two ways lead to one place. -/
theorem Walk.way_unique (h : graph.Walk places visited) (hnodup : visited.Nodup) {m n start other target : Nat}
    {way another : List Nat} (hstart : places[m]? = some start) (hother : places[n]? = some other)
    (hway : graph.follow? start way = some target) (hanother : graph.follow? other another = some target) :
    m = n ∧ way = another := by
  induction h generalizing m n start other way another with
  | nil => simp at hstart
  | @cons index block rest inner outer hblock hinner houter ihinner ihouter =>
    obtain ⟨hindex, hsplit⟩ := List.nodup_cons.1 hnodup
    obtain ⟨hinnerNodup, houterNodup, hdisjoint⟩ := List.nodup_append.1 hsplit
    -- a way from the first place that leaves it goes to `inner`, one from another place goes to `outer`
    have hmoves : ∀ {step way}, graph.follow? index (step :: way) = some target → target ≠ index := by
      rintro step way hway rfl
      exact hindex (List.mem_append_left _ (hinner.mem_of_follow?_cons hblock hway))
    have hapart : ∀ {k start : Nat} {way another}, rest[k]? = some start → graph.follow? start way = some target →
        graph.follow? index another = some target → False := by
      intro k start way another hstart hway hanother
      have houtside := houter.mem_of_follow? (List.mem_of_getElem? hstart) hway
      cases another with
      | nil =>
        obtain rfl : index = target := by simpa [follow?] using hanother
        exact hindex (List.mem_append_right _ houtside)
      | cons => exact hdisjoint _ (hinner.mem_of_follow?_cons hblock hanother) _ houtside rfl
    match m, n with
    | 0, 0 =>
      obtain rfl : index = start := by simpa using hstart
      obtain rfl : index = other := by simpa using hother
      match way, another with
      | [], [] => exact ⟨rfl, rfl⟩
      | [], _ :: _ => exact absurd (by simpa [follow?] using hway.symm) (hmoves hanother)
      | _ :: _, [] => exact absurd (by simpa [follow?] using hanother.symm) (hmoves hway)
      | step :: way, otherStep :: another =>
        obtain ⟨child, hchild, hway⟩ := (follow?_cons_eq_some hblock).1 hway
        obtain ⟨otherChild, hotherChild, hanother⟩ := (follow?_cons_eq_some hblock).1 hanother
        obtain ⟨rfl, rfl⟩ := ihinner hinnerNodup hchild hotherChild hway hanother
        exact ⟨rfl, rfl⟩
    | 0, n + 1 =>
      obtain rfl : index = start := by simpa using hstart
      exact (hapart hother hanother hway).elim
    | m + 1, 0 =>
      obtain rfl : index = other := by simpa using hother
      exact (hapart hstart hway hanother).elim
    | m + 1, n + 1 =>
      obtain ⟨rfl, rfl⟩ := ihouter houterNodup hstart hother hway hanother
      exact ⟨rfl, rfl⟩

theorem follow?_append (index : Nat) (way more : List Nat) :
    graph.follow? index (way ++ more) = (graph.follow? index way).bind fun target => graph.follow? target more := by
  induction way generalizing index with
  | nil => rfl
  | cons step way ih => simp [follow?, ih, Option.bind_assoc]

theorem isForest_of_walk (h : graph.Walk graph.topLevel (List.range graph.size)) : graph.IsForest := by
  have hunique : ∀ {start other target : Nat} {way another : List Nat}, start ∈ graph.topLevel →
      other ∈ graph.topLevel → graph.follow? start way = some target → graph.follow? other another = some target →
      start = other ∧ way = another := by
    intro start other target way another hstart hother hway hanother
    obtain ⟨m, hm⟩ := List.mem_iff_getElem?.1 hstart
    obtain ⟨n, hn⟩ := List.mem_iff_getElem?.1 hother
    obtain ⟨rfl, rfl⟩ := h.way_unique List.nodup_range hm hn hway hanother
    exact ⟨Option.some.inj (hm.symm.trans hn), rfl⟩
  have hexists : ∀ index < graph.size, ∃ start ∈ graph.topLevel, ∃ way, graph.follow? start way = some index :=
    fun index hlt => h.exists_way (List.mem_range.2 hlt)
  refine ⟨fun visited => ⟨fun hvisited => hvisited.unique h, fun heq => heq ▸ h⟩, ?_, ?_⟩
  · intro index hlt
    obtain ⟨start, hstart, way, hway⟩ := hexists index hlt
    refine ⟨(start, way), ⟨hstart, hway⟩, ?_⟩
    rintro ⟨other, another⟩ ⟨hother, hanother⟩
    obtain ⟨rfl, rfl⟩ := hunique hstart hother hway hanother
    rfl
  · intro index way hway
    cases hblock : graph.block? index with
    | none =>
      cases way with
      | nil => rfl
      | cons => simp [follow?, hblock] at hway
    | some block =>
      obtain ⟨start, hstart, front, hfront⟩ := hexists index (lt_size_of_block? hblock)
      have hlonger : graph.follow? start (front ++ way) = some index := by
        rw [follow?_append, hfront, Option.bind_some, hway]
      obtain ⟨-, hsame⟩ := hunique hstart hstart hfront hlonger
      simpa using hsame

/-- A visit of the places passes the `count` places from `first` on, one after the other. -/
def WalksOver (graph : Graph) (places : List Nat) (first count : Nat) : Prop :=
  graph.Walk places (List.range' first count)

theorem WalksOver.append {others : List Nat} {first count more : Nat} (h : graph.WalksOver places first count)
    (hothers : graph.WalksOver others (first + count) more) :
    graph.WalksOver (places ++ others) first (count + more) := by
  have hwalk := Walk.append h hothers
  rwa [List.range'_append_1] at hwalk

theorem WalksOver.block {index count : Nat} {block : Block} (hblock : graph.block? index = some block)
    (h : graph.WalksOver block.children (index + 1) count) : graph.WalksOver [index] index (1 + count) := by
  have hwalk := Walk.cons hblock h .nil
  rwa [List.append_nil, ← List.range'_succ, Nat.add_comm] at hwalk

end Graph

/-! ## Visits of programs -/

variable {graph : Graph}

theorem Condition.walksOver (condition : Condition) {parent index : Nat}
    (hholds : graph.Holds index (condition.blocks parent index)) :
    graph.WalksOver (condition.root? index).toList index condition.size := by
  induction condition using Condition.splitsRec generalizing parent index with
  | missing => exact .nil
  | @step condition left right hsplits ihleft ihright =>
    obtain ⟨⟨block, hblock, -, -, hnext, -, hinner⟩, hleft, hright⟩ := hsplits.holds hholds
    have hchildren : block.children = (left.root? (index + 1)).toList ++
        (right.root? (index + 1 + left.size)).toList := by
      simp [Block.children, hinner, hnext]
    rw [hsplits.root?, hsplits.size, Nat.add_assoc]
    refine Graph.WalksOver.block hblock ?_
    rw [hchildren]
    exact (ihleft hleft).append (ihright hright)

theorem Chain.walksOver (chain : Chain Statement) (hregular : chain.All Statement.Regular) {spot : Option Position}
    {parent : Option Nat} {index : Nat} (hholds : graph.Holds index (chain.blocks spot parent index)) :
    graph.WalksOver (chain.start? index).toList index chain.size := by
  induction chain using Chain.splitsRec generalizing spot parent index with
  | done => exact .nil
  | @step chain header opcode body otherwise rest hsplits ihbody ihother ihrest =>
    obtain ⟨hheader, hbodyRegular, hotherRegular, hrestRegular⟩ := hsplits.all hregular
    obtain ⟨hblock, hcondition, hbody, hother, hrest⟩ := hsplits.holds hheader hholds
    have hsize : chain.size = 1 + (header.conditionRead.size + (body.size + (otherwise.size + rest.size))) := by
      rw [hsplits.size, Statement.size]
      omega
    rw [hsplits.start?, hsize]
    refine Graph.WalksOver.block hblock ?_
    rw [Block.children, Statement.inner_linked, List.append_assoc, List.append_assoc]
    refine (header.conditionRead.walksOver hcondition).append ?_
    rw [show index + 1 + header.conditionRead.size = index + header.size from Nat.add_assoc _ _ _]
    exact (ihbody hbodyRegular hbody).append ((ihother hotherRegular hother).append (ihrest hrestRegular hrest))

theorem Script.walksOver {script : Script Statement} (hregular : script.All Statement.Regular)
    (hformed : script.WellFormed) {position : Position} {index : Nat}
    (hholds : graph.Holds index (script.blocks position index)) : graph.WalksOver [index] index script.size := by
  obtain ⟨hat?, chain⟩ := script
  obtain ⟨hhats, hheadless, -⟩ := hformed
  obtain ⟨hhatRegular, hchainRegular⟩ := hregular
  cases hat? with
  | none =>
    have hwalk := chain.walksOver hchainRegular (show graph.Holds index (chain.blocks _ none index) from hholds)
    simpa [Script.size, Chain.start?_of_ne_done (hheadless rfl)] using hwalk
  | some hat =>
    have hmissing := Statement.conditionRead_of_isHat (hhatRegular hat rfl) (hhats hat rfl)
    obtain ⟨hblock, -, hchain⟩ := Script.holds_hat (hhatRegular hat rfl) (hhats hat rfl) hholds
    refine Graph.WalksOver.block hblock ?_
    rw [Block.children, Statement.inner_linked, hmissing]
    exact chain.walksOver hchainRegular hchain

def Program.starts (index : Nat) : Program Statement → List Nat
  | [] => []
  | script :: program => index :: starts (index + script.size) program

theorem Program.walksOver {program : Program Statement} (hregular : ∀ script ∈ program, script.All Statement.Regular)
    (hformed : ∀ script ∈ program, script.WellFormed) {layout : Layout} {number index : Nat}
    (hholds : graph.Holds index (program.blocks layout number index)) :
    graph.WalksOver (program.starts index) index (program.blocks layout number index).length := by
  induction program generalizing number index with
  | nil => exact .nil
  | cons script program ih =>
    obtain ⟨hscriptRegular, hothersRegular⟩ := List.forall_mem_cons.1 hregular
    obtain ⟨hscriptFormed, hothersFormed⟩ := List.forall_mem_cons.1 hformed
    obtain ⟨hscript, hothers⟩ := Program.holds_cons.1 hholds
    rw [Program.length_blocks_cons]
    exact (Script.walksOver hscriptRegular hscriptFormed hscript).append (ih hothersRegular hothersFormed hothers)

/-! ## Top-level blocks -/

namespace Graph

/-- The top-level blocks among the `count` blocks from the place `first` on. -/
def topLevelOn (graph : Graph) (first count : Nat) : List Nat :=
  (List.range' first count).filter fun index => (graph.block? index).any (·.topLevel)

theorem topLevel_eq_topLevelOn (graph : Graph) : graph.topLevel = graph.topLevelOn 0 graph.size := by
  have hlist : ∀ blocks : List Block, ((blocks.zipIdx.filter fun entry => entry.1.topLevel).map (·.2)) =
      (List.range blocks.length).filter fun index => blocks[index]?.any (·.topLevel) := by
    intro blocks
    induction blocks using List.reverseRecOn with
    | nil => rfl
    | append_singleton blocks block ih =>
      have hfront : (List.range blocks.length).filter (fun index => (blocks ++ [block])[index]?.any (·.topLevel)) =
          (List.range blocks.length).filter fun index => blocks[index]?.any (·.topLevel) := by
        refine List.filter_congr fun index hindex => ?_
        rw [List.getElem?_append_left (List.mem_range.1 hindex)]
      rw [List.zipIdx_append, List.filter_append, List.map_append, ih, List.length_append, List.length_singleton,
        List.range_succ, List.filter_append, hfront]
      cases htop : block.topLevel <;> simp [htop]
  rw [topLevelOn, ← List.range_eq_range', size_eq_length]
  simp only [block?_eq_getElem?]
  exact hlist graph.toList

theorem mem_topLevel_iff {index : Nat} :
    index ∈ graph.topLevel ↔ ∃ block, graph.block? index = some block ∧ block.topLevel = true := by
  rw [topLevel_eq_topLevelOn, topLevelOn, List.mem_filter, List.mem_range'_1, Option.any_eq_true]
  constructor
  · rintro ⟨-, block, hblock, htop⟩
    exact ⟨block, hblock, htop⟩
  · rintro ⟨block, hblock, htop⟩
    have hlt := lt_size_of_block? hblock
    exact ⟨by omega, block, hblock, htop⟩

theorem topLevelOn_add (graph : Graph) (first count more : Nat) :
    graph.topLevelOn first (count + more) = graph.topLevelOn first count ++ graph.topLevelOn (first + count) more := by
  rw [topLevelOn, topLevelOn, topLevelOn, ← List.filter_append, List.range'_append_1]

theorem topLevelOn_one {index : Nat} {block : Block} (h : graph.block? index = some block) :
    graph.topLevelOn index 1 = if block.topLevel then [index] else [] := by
  cases htop : block.topLevel <;> simp [topLevelOn, h, htop]

theorem topLevel_relabel (graph : Graph) (label : Nat → String) :
    (graph.relabel label).topLevel = graph.topLevel := by
  rw [topLevel_eq_topLevelOn, topLevel_eq_topLevelOn, size_relabel]
  refine List.filter_congr fun index _ => ?_
  rw [block?_relabel, Option.any_map]

theorem Walk.relabel {places visited : List Nat} (h : graph.Walk places visited) (label : Nat → String) :
    (graph.relabel label).Walk places visited := by
  induction h with
  | nil => exact .nil
  | cons hblock _ _ ihinner ihouter => exact .cons (block?_relabel_of_some hblock label) ihinner ihouter

end Graph

theorem Condition.topLevelOn (condition : Condition) {parent index : Nat}
    (hholds : graph.Holds index (condition.blocks parent index)) : graph.topLevelOn index condition.size = [] := by
  induction condition using Condition.splitsRec generalizing parent index with
  | missing => rfl
  | step hsplits ihleft ihright =>
    obtain ⟨⟨block, hblock, -, -, -, htop, -⟩, hleft, hright⟩ := hsplits.holds hholds
    rw [hsplits.size, Nat.add_assoc, Graph.topLevelOn_add, Graph.topLevelOn_add, Graph.topLevelOn_one hblock, htop,
      ihleft hleft, ihright hright]
    rfl

theorem Chain.topLevelOn (chain : Chain Statement) (hregular : chain.All Statement.Regular) {spot : Option Position}
    {parent : Option Nat} {index : Nat} (hholds : graph.Holds index (chain.blocks spot parent index)) :
    graph.topLevelOn index chain.size = if spot.isSome then (chain.start? index).toList else [] := by
  induction chain using Chain.splitsRec generalizing spot parent index with
  | done => simp [Chain.size, Graph.topLevelOn, Chain.start?]
  | @step chain header opcode body otherwise rest hsplits ihbody ihother ihrest =>
    obtain ⟨hheader, hbodyRegular, hotherRegular, hrestRegular⟩ := hsplits.all hregular
    obtain ⟨hblock, hcondition, hbody, hother, hrest⟩ := hsplits.holds hheader hholds
    have hfirst : graph.topLevelOn index header.size = if spot.isSome then [index] else [] := by
      rw [Statement.size, Graph.topLevelOn_add, Graph.topLevelOn_one hblock, header.conditionRead.topLevelOn hcondition,
        List.append_nil]
      rfl
    rw [hsplits.size, hsplits.start?, Nat.add_assoc, Nat.add_assoc, Graph.topLevelOn_add, Graph.topLevelOn_add,
      Graph.topLevelOn_add, hfirst, ihbody hbodyRegular hbody, ihother hotherRegular hother, ihrest hrestRegular hrest]
    simp

theorem Script.topLevelOn {script : Script Statement} (hregular : script.All Statement.Regular)
    (hformed : script.WellFormed) {position : Position} {index : Nat}
    (hholds : graph.Holds index (script.blocks position index)) : graph.topLevelOn index script.size = [index] := by
  obtain ⟨hat?, chain⟩ := script
  obtain ⟨hhats, hheadless, -⟩ := hformed
  obtain ⟨hhatRegular, hchainRegular⟩ := hregular
  cases hat? with
  | none =>
    have htop := chain.topLevelOn hchainRegular (show graph.Holds index (chain.blocks _ none index) from hholds)
    simpa [Script.size, Chain.start?_of_ne_done (hheadless rfl)] using htop
  | some hat =>
    obtain ⟨hblock, -, hchain⟩ := Script.holds_hat (hhatRegular hat rfl) (hhats hat rfl) hholds
    have htop := chain.topLevelOn hchainRegular hchain
    rw [Script.size, Option.isSome_some, if_pos rfl, Graph.topLevelOn_add, Graph.topLevelOn_one hblock, htop]
    rfl

theorem Program.topLevelOn {program : Program Statement} (hregular : ∀ script ∈ program, script.All Statement.Regular)
    (hformed : ∀ script ∈ program, script.WellFormed) {layout : Layout} {number index : Nat}
    (hholds : graph.Holds index (program.blocks layout number index)) :
    graph.topLevelOn index (program.blocks layout number index).length = program.starts index := by
  induction program generalizing number index with
  | nil => rfl
  | cons script program ih =>
    obtain ⟨hscriptRegular, hothersRegular⟩ := List.forall_mem_cons.1 hregular
    obtain ⟨hscriptFormed, hothersFormed⟩ := List.forall_mem_cons.1 hformed
    obtain ⟨hscript, hothers⟩ := Program.holds_cons.1 hholds
    rw [Program.length_blocks_cons, Graph.topLevelOn_add, Script.topLevelOn hscriptRegular hscriptFormed hscript,
      ih hothersRegular hothersFormed hothers]
    rfl

theorem Program.topLevel_graph {program : Program Statement}
    (hregular : ∀ script ∈ program, script.All Statement.Regular) (hformed : program.WellFormed) (layout : Layout) :
    (program.graph layout).topLevel = program.starts 0 := by
  have hholds : (program.graph layout).Holds 0 (program.blocks layout 0 0) := (program.graph layout).holds_toList
  rw [Graph.topLevel_eq_topLevelOn, Graph.size_eq_length]
  exact Program.topLevelOn hregular hformed.1 hholds

theorem Program.walk_topLevel {program : Program Statement}
    (hregular : ∀ script ∈ program, script.All Statement.Regular) (hformed : program.WellFormed) (layout : Layout) :
    (program.graph layout).Walk (program.graph layout).topLevel (List.range (program.graph layout).size) := by
  have hholds : (program.graph layout).Holds 0 (program.blocks layout 0 0) := (program.graph layout).holds_toList
  rw [Program.topLevel_graph hregular hformed, Graph.size_eq_length, List.range_eq_range']
  exact Program.walksOver hregular hformed.1 hholds

/-- Whatever the source, the compiled graph is a forest in preorder, with the ids of any seed as well as with ids that
name places. -/
theorem compile_isForest (layout : Layout) (seed : UInt64) (source : String) :
    (compile layout seed source).graph.IsForest ∧ (compilePlain layout source).graph.IsForest := by
  obtain ⟨program, hformed, hregular, hgraph⟩ := exists_program layout (Source.lines source.toList)
  have hassembled : (compilePlain layout source).graph = program.graph layout := hgraph
  have hwalk := program.walk_topLevel hregular hformed layout
  rw [← hassembled] at hwalk
  refine ⟨Graph.isForest_of_walk ?_, Graph.isForest_of_walk hwalk⟩
  rw [compile, Compiled.seeded, Compiled.relabel, Graph.topLevel_relabel, Graph.size_relabel]
  exact hwalk.relabel _

end ScratchScript
