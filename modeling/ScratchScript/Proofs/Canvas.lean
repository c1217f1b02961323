import ScratchScript.Proofs.Mirroring

/-!
# Where scripts stand

A block has a position exactly if it stands on the canvas, and the blocks on the canvas stand where the layout puts
scripts of their numbers. `settle` gives blocks these positions, and the blocks of an assembly have them already
(`Assembly.settled_ofLines`), so that positions need no part in a comparison of two runs.
-/

namespace ScratchScript

def Block.placed (position : Option Position) (block : Block) : Block :=
  { block with position := position }

theorem Block.placed_eq_self {block : Block} {position : Option Position} (h : block.position = position) :
    block.placed position = block := by
  subst h
  rfl

/-- The blocks with the positions of scripts, of which the first has the number `number`. -/
def settle (layout : Layout) (number : Nat) : List Block → List Block
  | [] => []
  | block :: blocks =>
    if block.topLevel then block.placed (some (layout.position number)) :: settle layout (number + 1) blocks
    else block.placed none :: settle layout number blocks

/-- The block without its id, with links moved on and other texts. -/
def Block.moved (n : Nat) (f : String → String) (block : Block) : Block :=
  { (block.shift n).mapTexts f with id := "" }

/-- The change of a block leaves alone whether it is on the canvas, and does not depend on where. -/
def KeepsCanvas (change : Block → Block) : Prop :=
  ∀ block, (change block).topLevel = block.topLevel ∧
    ∀ position, (change block).placed position = change (block.placed position)

/-- The places of the blocks on the canvas, of which the first block has the place `first`. -/
def canvasPlaces (first : Nat) (blocks : List Block) : List Nat :=
  ((blocks.zipIdx first).filter fun (block, _) => block.topLevel).map (·.2)

theorem canvasPlaces_cons (first : Nat) (block : Block) (blocks : List Block) :
    canvasPlaces first (block :: blocks) =
      if block.topLevel then first :: canvasPlaces (first + 1) blocks else canvasPlaces (first + 1) blocks := by
  cases htop : block.topLevel <;> simp [canvasPlaces, List.zipIdx_cons, htop]

section Settle

variable (layout : Layout)

theorem settle_append (number : Nat) (xs ys : List Block) :
    settle layout number (xs ++ ys) =
      settle layout number xs ++ settle layout (number + xs.countP Block.topLevel) ys := by
  induction xs generalizing number with
  | nil => rfl
  | cons block xs ih =>
    rw [List.cons_append, settle, settle]
    by_cases htop : block.topLevel = true
    · have hcount : number + 1 + xs.countP Block.topLevel = number + (block :: xs).countP Block.topLevel := by
        rw [List.countP_cons_of_pos htop]
        omega
      rw [if_pos htop, if_pos htop, ih, hcount, List.cons_append]
    · rw [if_neg htop, if_neg htop, ih, List.countP_cons_of_neg htop, List.cons_append]

theorem settle_map {change : Block → Block} (h : KeepsCanvas change) (number : Nat) (blocks : List Block) :
    settle layout number (blocks.map change) = (settle layout number blocks).map change := by
  induction blocks generalizing number with
  | nil => rfl
  | cons block blocks ih =>
    obtain ⟨htop, hplaced⟩ := h block
    rw [List.map_cons, settle, settle, htop, hplaced, hplaced, ih, ih]
    split <;> rfl

theorem settle_modify {change : Block → Block} (h : KeepsCanvas change) (number : Nat) (blocks : List Block)
    (place : Nat) :
    settle layout number (blocks.modify place change) = (settle layout number blocks).modify place change := by
  induction blocks generalizing number place with
  | nil => simp [settle]
  | cons block blocks ih =>
    obtain ⟨htop, hplaced⟩ := h block
    cases place with
    | zero =>
      rw [List.modify_zero_cons, settle, settle, htop, hplaced, hplaced]
      split <;> rfl
    | succ place =>
      rw [List.modify_succ_cons, settle, settle, ih, ih]
      split <;> rfl

theorem settle_placed (position : Option Position) (number : Nat) (blocks : List Block) :
    settle layout number (blocks.map (Block.placed position)) = settle layout number blocks := by
  induction blocks generalizing number with
  | nil => rfl
  | cons block blocks ih =>
    rw [List.map_cons, settle, settle, ih, ih]
    rfl

theorem settle_seen (number n : Nat) (f : String → String) (blocks : List Block) :
    settle layout number (blocks.map (Block.seen n f)) = (settle layout number blocks).map (Block.moved n f) := by
  have hseen : Block.seen n f = Block.placed none ∘ Block.moved n f := rfl
  rw [hseen, ← List.map_map, settle_placed, settle_map]
  exact fun block => ⟨rfl, fun _ => rfl⟩

/-- The position of a block is that of the script whose number is its place in the list of blocks on the canvas. -/
theorem getElem?_settle (number first index : Nat) (blocks : List Block) :
    (settle layout number blocks)[index]? = blocks[index]?.map (Block.placed
      (((canvasPlaces first blocks).idxOf? (first + index)).map fun script => layout.position (number + script))) := by
  induction blocks generalizing number first index with
  | nil => rfl
  | cons block blocks ih =>
    rw [settle, canvasPlaces_cons]
    by_cases htop : block.topLevel = true
    · rw [if_pos htop, if_pos htop, List.idxOf?_cons]
      cases index with
      | zero => simp
      | succ index =>
        have hne : (first == first + (index + 1)) = false := by simp
        rw [List.getElem?_cons_succ, List.getElem?_cons_succ, ih (number + 1) (first + 1) index, hne,
          if_neg Bool.false_ne_true, Option.map_map, show first + 1 + index = first + (index + 1) by omega]
        simp only [Function.comp_def, Nat.add_assoc, Nat.add_comm 1]
    · rw [if_neg htop, if_neg htop]
      cases index with
      | zero =>
        have hnone : (canvasPlaces (first + 1) blocks).idxOf? (first + 0) = none := by
          rw [List.idxOf?_eq_none_iff, canvasPlaces, List.mem_map]
          rintro ⟨entry, hmem, heq⟩
          have hle := List.le_snd_of_mem_zipIdx (List.mem_filter.1 hmem).1
          omega
        rw [hnone]
        rfl
      | succ index =>
        rw [List.getElem?_cons_succ, List.getElem?_cons_succ, ih number (first + 1) index,
          show first + 1 + index = first + (index + 1) by omega]

theorem settle_eq_self {blocks : List Block}
    (h : ∀ block ∈ blocks, block.topLevel = false ∧ block.position = none) (number : Nat) :
    settle layout number blocks = blocks ∧ blocks.countP Block.topLevel = 0 := by
  induction blocks with
  | nil => exact ⟨rfl, rfl⟩
  | cons block blocks ih =>
    obtain ⟨⟨htop, hposition⟩, hrest⟩ := List.forall_mem_cons.1 h
    obtain ⟨hsettle, hcount⟩ := ih hrest
    rw [settle, if_neg (by simp [htop]), hsettle, Block.placed_eq_self hposition,
      List.countP_cons_of_neg (by simp [htop]), hcount]
    exact ⟨rfl, rfl⟩

end Settle

namespace Graph

/-- The blocks stand where the layout puts them, in so many scripts. -/
def Settled (layout : Layout) (scripts : Nat) (graph : Graph) : Prop :=
  settle layout 0 graph.toList = graph.toList ∧ graph.toList.countP Block.topLevel = scripts

namespace Settled

variable {layout : Layout} {scripts : Nat} {graph : Graph} (h : graph.Settled layout scripts)
include h

theorem modify {change : Block → Block} (hchange : KeepsCanvas change) (place : Nat) :
    (graph.modify place change).Settled layout scripts := by
  have hcount : ∀ (blocks : List Block) (place : Nat),
      (blocks.modify place change).countP Block.topLevel = blocks.countP Block.topLevel := by
    intro blocks
    induction blocks with
    | nil => simp
    | cons block blocks ih =>
      intro place
      cases place <;> simp [List.countP_cons, (hchange block).1, ih]
  unfold Settled at *
  rw [toList_modify, settle_modify layout hchange, hcount, h.1, h.2]
  exact ⟨rfl, rfl⟩

theorem append {block : Block} {blocks : List Block}
    (hblock : block.position = if block.topLevel then some (layout.position scripts) else none)
    (hbelow : ∀ below ∈ blocks, below.topLevel = false ∧ below.position = none) :
    (graph.append (block :: blocks)).Settled layout (scripts + if block.topLevel then 1 else 0) := by
  obtain ⟨hsettle, hscripts⟩ := h
  unfold Settled
  rw [toList_append, settle_append, List.countP_append, hsettle, hscripts, Nat.zero_add, settle]
  by_cases htop : block.topLevel = true
  · rw [if_pos htop] at hblock
    obtain ⟨hrest, hcount⟩ := settle_eq_self layout hbelow (scripts + 1)
    rw [if_pos htop, if_pos htop, hrest, Block.placed_eq_self hblock, List.countP_cons_of_pos htop, hcount]
    exact ⟨rfl, rfl⟩
  · rw [if_neg htop] at hblock
    obtain ⟨hrest, hcount⟩ := settle_eq_self layout hbelow scripts
    rw [if_neg htop, if_neg htop, hrest, Block.placed_eq_self hblock, List.countP_cons_of_neg htop, hcount]
    exact ⟨rfl, rfl⟩

end Settled

end Graph

namespace Assembly

variable {layout : Layout} {assembly : Assembly}

theorem settled_joined (h : assembly.graph.Settled layout assembly.scripts) :
    assembly.joined.Settled layout assembly.scripts := by
  unfold joined
  split
  · apply h.modify
    exact fun block => ⟨rfl, fun _ => rfl⟩
  · apply h.modify
    exact fun block => ⟨rfl, fun _ => rfl⟩
  · exact h

theorem settled_addStatement (h : assembly.graph.Settled layout assembly.scripts) (statement : Statement) :
    (assembly.addStatement layout statement).graph.Settled layout (assembly.addStatement layout statement).scripts := by
  have hbelow : ∀ block ∈ statement.conditionBlocks assembly.graph.size,
      block.topLevel = false ∧ block.position = none := fun block hmem => (Condition.of_mem_blocks hmem).2
  have hblock : (statement.block (assembly.spot layout) assembly.container assembly.graph.size).position =
      if (statement.block (assembly.spot layout) assembly.container assembly.graph.size).topLevel then
        some (layout.position assembly.scripts) else none := by
    rw [Statement.block_position, Statement.block_topLevel]
    unfold spot
    cases assembly.place <;> simp
  have hgrown := (settled_joined h).append hblock hbelow
  rw [Statement.block_topLevel] at hgrown
  rw [addStatement_eq]
  dsimp only
  split <;> exact hgrown

theorem settled_startScript (h : assembly.graph.Settled layout assembly.scripts) (statement : Statement) :
    (assembly.startScript layout statement).graph.Settled layout (assembly.startScript layout statement).scripts := by
  unfold startScript addTopLevel
  rw [Graph.push_eq_append]
  exact h.append rfl (by simp)

theorem settled_feed (h : assembly.graph.Settled layout assembly.scripts) (line : SourceLine) :
    (assembly.feed layout line).graph.Settled layout (assembly.feed layout line).scripts := by
  unfold feed
  cases line.reading with
  | blank => exact h
  | unknown => exact h
  | statement statement =>
    dsimp only
    split
    · exact settled_startScript h statement
    · exact settled_addStatement h statement
  | marker marker =>
    cases marker with
    | close =>
      dsimp only [close]
      split <;> exact h
    | otherwise =>
      dsimp only [enterElse]
      split
      · exact h
      · split
        · exact h
        · split
          · apply h.modify
            exact fun block => ⟨rfl, fun _ => rfl⟩
          · exact h

theorem settled_ofLines (layout : Layout) (lines : List SourceLine) :
    (ofLines layout lines).graph.Settled layout (ofLines layout lines).scripts := by
  have hrun : ∀ (lines : List SourceLine) (assembly : Assembly), assembly.graph.Settled layout assembly.scripts →
      (feedAll layout assembly lines).graph.Settled layout (feedAll layout assembly lines).scripts := by
    intro lines
    induction lines with
    | nil => exact fun assembly h => h
    | cons line lines ih => exact fun assembly h => ih _ (settled_feed h line)
  exact hrun lines {} ⟨rfl, rfl⟩

/-! ## Two runs with their positions -/

theorem Mirrors.toList_eq {f : String → String} {assembly front other : Assembly} (h : assembly.Mirrors f front other)
    (hfront : front.graph.Settled layout front.scripts) (hother : other.graph.Settled layout other.scripts) :
    other.graph.toList.map (Block.moved 0 f) =
      front.graph.toList.map (Block.moved 0 f) ++
        (settle layout front.scripts assembly.graph.toList).map (Block.moved front.graph.size f) := by
  have hcount : (front.graph.toList.map (Block.seen 0 f)).countP Block.topLevel = front.scripts := by
    rw [List.countP_map, ← hfront.2]
    rfl
  calc other.graph.toList.map (Block.moved 0 f)
      = settle layout 0 (other.graph.toList.map (Block.seen 0 f)) := by rw [settle_seen, hother.1]
    _ = settle layout 0 (front.graph.toList.map (Block.seen 0 f) ++
          assembly.graph.toList.map (Block.seen front.graph.size f)) := by rw [h.graph]
    _ = _ := by rw [settle_append, hcount, Nat.zero_add, settle_seen, settle_seen, hfront.1]

end Assembly

end ScratchScript
