import Mathlib.Data.Fintype.Pigeonhole
import ScratchScript.Proofs.Linked
import ScratchScript.Proofs.Preorder

/-!
# Attached blocks

What the checker knows about whether a block belongs to a script. It looks at a block and its neighbours: a block that
names no parent must be on the canvas or follow another one. It does not look for the block that holds one with a
parent, nor along chains of links. So a graph without problems can have blocks that no way from the canvas leads to
(`attached_nowhere`). `allReached_iff_of_checked` says when it has none: if every block that names a parent is held by
some block, and every block on a loop is reached.

From a block that is not reached, one can go back to a block that holds it, which is not reached either. Blocks are
finitely many, so going back comes to a loop in the end (`exists_onLoop`).
-/

namespace ScratchScript

namespace Graph

/-- A way from the canvas leads to the place. -/
def Reached (graph : Graph) (index : Nat) : Prop :=
  ∃ start ∈ graph.topLevel, ∃ way, graph.follow? start way = some index

/-- The places of the blocks in the slots of a block and of the one that follows it. -/
def heldBy (graph : Graph) (owner : Nat) : List Nat :=
  ((graph.block? owner).map Block.children).getD []

/-- Some block has the one at the place in a slot or is followed by it. -/
def IsHeld (graph : Graph) (index : Nat) : Prop :=
  ∃ owner, index ∈ graph.heldBy owner

/-- A way that leaves the place comes back to it. -/
def OnLoop (graph : Graph) (index : Nat) : Prop :=
  ∃ way, way ≠ [] ∧ graph.follow? index way = some index

variable {graph : Graph} {index owner : Nat}

/-! ## Ways -/

theorem mem_heldBy_iff : index ∈ graph.heldBy owner ↔
    ∃ block, graph.block? owner = some block ∧ index ∈ block.children := by
  cases hblock : graph.block? owner <;> simp [heldBy, hblock]

theorem lt_size_of_mem_heldBy (h : index ∈ graph.heldBy owner) : owner < graph.size := by
  obtain ⟨block, hblock, -⟩ := mem_heldBy_iff.1 h
  exact lt_size_of_block? hblock

theorem follow?_cons (owner step : Nat) (way : List Nat) :
    graph.follow? owner (step :: way) = (graph.heldBy owner)[step]?.bind fun child => graph.follow? child way := by
  cases hblock : graph.block? owner <;> simp [follow?, heldBy, hblock]

theorem exists_step_of_mem_heldBy (h : index ∈ graph.heldBy owner) :
    ∃ step, ∀ way, graph.follow? owner (step :: way) = graph.follow? index way := by
  obtain ⟨step, hstep⟩ := List.mem_iff_getElem?.1 h
  exact ⟨step, fun way => by rw [follow?_cons, hstep, Option.bind_some]⟩

theorem exists_mem_heldBy_of_follow? {step : Nat} {way : List Nat}
    (h : graph.follow? owner (step :: way) = some index) :
    ∃ child ∈ graph.heldBy owner, graph.follow? child way = some index := by
  rw [follow?_cons, Option.bind_eq_some_iff] at h
  obtain ⟨child, hchild, hrest⟩ := h
  exact ⟨child, List.mem_of_getElem? hchild, hrest⟩

theorem isHeld_of_follow? {step : Nat} {way : List Nat} (h : graph.follow? owner (step :: way) = some index) :
    graph.IsHeld index := by
  induction way generalizing owner step with
  | nil =>
    obtain ⟨child, hchild, hend⟩ := exists_mem_heldBy_of_follow? h
    obtain rfl : child = index := by simpa [follow?] using hend
    exact ⟨owner, hchild⟩
  | cons next way ih =>
    obtain ⟨child, -, hrest⟩ := exists_mem_heldBy_of_follow? h
    exact ih hrest

theorem OnLoop.lt_size (h : graph.OnLoop index) : index < graph.size := by
  obtain ⟨way, hne, hway⟩ := h
  obtain ⟨step, way, rfl⟩ := List.exists_cons_of_ne_nil hne
  obtain ⟨child, hchild, -⟩ := exists_mem_heldBy_of_follow? hway
  exact lt_size_of_mem_heldBy hchild

theorem reached_of_mem_topLevel (h : index ∈ graph.topLevel) : graph.Reached index :=
  ⟨index, h, [], rfl⟩

theorem Reached.next (h : graph.Reached owner) (hheld : index ∈ graph.heldBy owner) : graph.Reached index := by
  obtain ⟨start, hstart, way, hway⟩ := h
  obtain ⟨step, hstep⟩ := exists_step_of_mem_heldBy hheld
  refine ⟨start, hstart, way ++ [step], ?_⟩
  rw [follow?_append, hway, Option.bind_some, hstep]
  rfl

theorem Reached.topLevel_or_isHeld (h : graph.Reached index) : index ∈ graph.topLevel ∨ graph.IsHeld index := by
  obtain ⟨start, hstart, way, hway⟩ := h
  cases way with
  | nil =>
    obtain rfl : start = index := by simpa [follow?] using hway
    exact .inl hstart
  | cons step way => exact .inr (isHeld_of_follow? hway)

theorem Reached.mem {places : List Nat} (h : graph.Reached index) (htop : ∀ start ∈ graph.topLevel, start ∈ places)
    (hlinks : ∀ place ∈ places, ∀ next ∈ graph.heldBy place, next ∈ places) : index ∈ places := by
  obtain ⟨start, hstart, way, hway⟩ := h
  have hmem := htop start hstart
  clear hstart
  induction way generalizing start with
  | nil =>
    obtain rfl : start = index := by simpa [follow?] using hway
    exact hmem
  | cons step way ih =>
    obtain ⟨child, hchild, hrest⟩ := exists_mem_heldBy_of_follow? hway
    exact ih child hrest (hlinks start hmem child hchild)

/-! ## Loops -/

theorem exists_way_iterate {back : Nat → Nat}
    (h : ∀ steps, back^[steps] index ∈ graph.heldBy (back^[steps + 1] index)) (first more : Nat) :
    ∃ way, way.length = more ∧ graph.follow? (back^[first + more] index) way = some (back^[first] index) := by
  induction more with
  | zero => exact ⟨[], rfl, rfl⟩
  | succ more ih =>
    obtain ⟨way, hlength, hway⟩ := ih
    obtain ⟨step, hstep⟩ := exists_step_of_mem_heldBy (h (first + more))
    exact ⟨step :: way, by rw [List.length_cons, hlength], by rw [← Nat.add_assoc, hstep, hway]⟩

theorem onLoop_of_iterate_eq {back : Nat → Nat}
    (h : ∀ steps, back^[steps] index ∈ graph.heldBy (back^[steps + 1] index)) {first second : Nat}
    (hlt : first < second) (heq : back^[first] index = back^[second] index) : graph.OnLoop (back^[first] index) := by
  obtain ⟨way, hlength, hway⟩ := exists_way_iterate h first (second - first)
  rw [Nat.add_sub_cancel' (Nat.le_of_lt hlt), ← heq] at hway
  refine ⟨way, ?_, hway⟩
  rintro rfl
  rw [List.length_nil] at hlength
  omega

/-- Going back from block to block among some blocks of the graph comes to a loop. -/
theorem exists_onLoop {among : Nat → Prop} (hlt : ∀ place, among place → place < graph.size)
    (hback : ∀ place, among place → ∃ owner, among owner ∧ place ∈ graph.heldBy owner) (h : among index) :
    ∃ place, among place ∧ graph.OnLoop place := by
  choose! back hamong hheld using hback
  have hall : ∀ steps, among (back^[steps] index) := by
    intro steps
    induction steps with
    | zero => exact h
    | succ steps ih =>
      rw [Function.iterate_succ_apply']
      exact hamong _ ih
  have hchain : ∀ steps, back^[steps] index ∈ graph.heldBy (back^[steps + 1] index) := by
    intro steps
    rw [Function.iterate_succ_apply']
    exact hheld _ (hall steps)
  -- two different numbers of steps lead back to one place
  obtain ⟨first, second, hne, heq⟩ := Finite.exists_ne_map_eq_of_infinite fun steps =>
    (⟨back^[steps] index, hlt _ (hall steps)⟩ : Fin graph.size)
  replace heq : back^[first] index = back^[second] index := congrArg Fin.val heq
  rcases Nat.lt_or_gt_of_ne hne with hless | hless
  · exact ⟨_, hall first, onLoop_of_iterate_eq hchain hless heq⟩
  · exact ⟨_, hall second, onLoop_of_iterate_eq hchain hless heq.symm⟩

/-! ## Checked graphs -/

theorem FollowsHeadless.isHeld (h : graph.FollowsHeadless index) : graph.IsHeld index := by
  obtain ⟨first, block, hblock, -, -, hnext⟩ := h
  exact ⟨first, mem_heldBy_iff.2 ⟨block, hblock, by simp [Block.children, hnext]⟩⟩

theorem WellLinked.topLevel_or_isHeld (h : graph.WellLinked) {block : Block} (hblock : graph.block? index = some block)
    (hparent : block.parent = none) : index ∈ graph.topLevel ∨ graph.IsHeld index := by
  cases htop : block.topLevel with
  | true => exact .inl (mem_topLevel_iff.2 ⟨block, hblock, htop⟩)
  | false => exact .inr ((h.linkedAt index block hblock).attached htop hparent).isHeld

theorem WellLinked.parent_eq_none (h : graph.WellLinked) {block : Block} (hblock : graph.block? index = some block)
    (hmem : index ∈ graph.topLevel) : block.parent = none := by
  obtain ⟨other, hother, htop⟩ := mem_topLevel_iff.1 hmem
  obtain rfl := Option.some.inj (hblock.symm.trans hother)
  exact (h.linkedAt index block hblock).parent_of_topLevel htop

end Graph

/-- If the checker reports nothing, then ways from the canvas lead to all blocks exactly if every block that names a
parent is held by some block, and every block on a loop is reached. -/
theorem allReached_iff_of_checked {graph : Graph} (h : graph.problems = []) :
    (∀ index < graph.size, graph.Reached index) ↔
      (∀ index block, graph.block? index = some block → block.parent.isSome = true → graph.IsHeld index) ∧
        (∀ index, graph.OnLoop index → graph.Reached index) := by
  have hlinked := Graph.problems_eq_nil_iff.1 h
  constructor
  · intro hall
    refine ⟨fun index block hblock hparent => ?_, fun index hloop => hall index hloop.lt_size⟩
    rcases (hall index (Graph.lt_size_of_block? hblock)).topLevel_or_isHeld with hmem | hheld
    · rw [hlinked.parent_eq_none hblock hmem] at hparent
      exact absurd hparent (by simp)
    · exact hheld
  · rintro ⟨hheld, hloops⟩ index hlt
    by_contra hnot
    -- what is not reached is held by what is not reached
    have hback : ∀ place, (place < graph.size ∧ ¬ graph.Reached place) →
        ∃ owner, (owner < graph.size ∧ ¬ graph.Reached owner) ∧ place ∈ graph.heldBy owner := by
      rintro place ⟨hplace, hunreached⟩
      obtain ⟨block, hblock⟩ := Graph.exists_block?_of_lt hplace
      have hor : place ∈ graph.topLevel ∨ graph.IsHeld place := by
        cases hparent : block.parent with
        | none => exact hlinked.topLevel_or_isHeld hblock hparent
        | some parent => exact .inr (hheld place block hblock (by rw [hparent, Option.isSome_some]))
      rcases hor with hmem | ⟨owner, howner⟩
      · exact absurd (Graph.reached_of_mem_topLevel hmem) hunreached
      · exact ⟨owner, ⟨Graph.lt_size_of_mem_heldBy howner, fun hreached => hunreached (hreached.next howner)⟩, howner⟩
    obtain ⟨place, ⟨-, hunreached⟩, hloop⟩ := Graph.exists_onLoop (fun _ hplace => hplace.1) hback ⟨hlt, hnot⟩
    exact hunreached (hloops place hloop)

/-- A block in a slot that follows itself. -/
theorem allReached_iff_of_checked_circle :
    let circle : Graph :=
      ⟨#[{ id := "a", opcode := .forever, topLevel := true, inputs := [("SUBSTACK", .block 1)] },
        { id := "b", opcode := .showSprite, parent := some 0, next := some 1 }]⟩
    circle.problems = [] ∧ circle.OnLoop 1 ∧ ∀ index < circle.size, circle.Reached index := by
  intro circle
  have hproblems : circle.problems = [] := by decide
  have hsize : ∀ index < circle.size, index = 0 ∨ index = 1 := by decide
  refine ⟨hproblems, ⟨[0], by decide, by decide⟩, (allReached_iff_of_checked hproblems).2 ⟨?_, ?_⟩⟩
  · intro index block hblock hparent
    rcases hsize index (Graph.lt_size_of_block? hblock) with rfl | rfl
    · obtain rfl := Option.some.inj hblock
      exact absurd hparent (by decide)
    · exact ⟨0, by decide⟩
  · intro index hloop
    rcases hsize index hloop.lt_size with rfl | rfl
    · exact ⟨0, by decide, [], by decide⟩
    · exact ⟨0, by decide, [0], by decide⟩

/-- Nothing is reported about a block whose parent does not hold it, nor about one that only follows itself. No way from
the canvas leads to them. -/
theorem attached_nowhere :
    let astray : Graph :=
      ⟨#[{ id := "a", opcode := .whenFlagClicked, topLevel := true },
        { id := "b", opcode := .showSprite, parent := some 0 }]⟩
    let circling : Graph := ⟨#[{ id := "a", opcode := .showSprite, parent := some 0, next := some 0 }]⟩
    (astray.problems = [] ∧ ¬ astray.Reached 1) ∧ circling.problems = [] ∧ ¬ circling.Reached 0 := by
  intro astray circling
  refine ⟨⟨by decide, fun h => ?_⟩, by decide, fun h => ?_⟩
  · have hmem : 1 ∈ [0] := h.mem (by decide) (by decide)
    exact absurd hmem (by decide)
  · have hmem : 0 ∈ [] := h.mem (by decide) (by decide)
    exact absurd hmem (by decide)

end ScratchScript
