import ScratchScript.Proofs.Integrity

/-!
# References to missing blocks

Rendering a graph fails exactly if the checker reports that a block is missing, on every graph whatsoever
(`blockMap_checked`). The two go through a graph in different orders: the checker has the parent and the follower of a
block before its slots, rendering has the slots first and the parent last.

* `Graph.Follows` describes a computation by the references that it follows, in order: it fails at the first one that
  leads nowhere, and reports that one. Such descriptions are put together along the computation (`Follows.bind`,
  `Follows.mapM`), up to the whole map (`follows_blockMap`).
* `Graph.missing_perm`: what the checker reports as missing is what the references of the graph lead to outside of it,
  in another order and just as often.
-/

namespace ScratchScript

/-! ## Computations that follow references -/

def failure? {ε α : Type} : Except ε α → Option ε
  | .ok _ => none
  | .error report => some report

theorem failure?_eq_some_iff {ε α : Type} {result : Except ε α} {report : ε} :
    failure? result = some report ↔ result = .error report := by
  cases result <;> simp [failure?]

namespace Graph

def lacks (graph : Graph) (index : Nat) : Bool :=
  decide (graph.size ≤ index)

/-- The computation follows references to these places, one after the other, and fails at the first without a block. -/
def Follows {α : Type} (graph : Graph) (result : Except MissingBlock α) (places : List Nat) : Prop :=
  failure? result = (places.find? graph.lacks).map (MissingBlock.mk graph.size)

variable {graph : Graph} {α β : Type}

theorem lacks_eq_false_iff {index : Nat} : graph.lacks index = false ↔ index < graph.size := by
  simp [lacks]

theorem block?_eq_none_iff {index : Nat} : graph.block? index = none ↔ graph.lacks index = true := by
  unfold block? lacks size
  rw [Array.getElem?_eq_none_iff, decide_eq_true_iff]

theorem follows_ok (value : α) : graph.Follows (.ok value) [] := rfl

theorem Follows.bind {result : Except MissingBlock α} {next : α → Except MissingBlock β} {places more : List Nat}
    (h : graph.Follows result places) (hnext : ∀ value, graph.Follows (next value) more) :
    graph.Follows (result >>= next) (places ++ more) := by
  unfold Follows at *
  rw [List.find?_append]
  cases result with
  | error report =>
    -- one of the first references leads nowhere, so that the others do not matter
    obtain ⟨index, hindex, hreport⟩ := Option.map_eq_some_iff.1 h.symm
    rw [hindex, Option.some_or, Option.map_some, hreport]
    rfl
  | ok value =>
    rw [Option.map_eq_none_iff.1 h.symm, Option.none_or]
    exact hnext value

theorem Follows.map {result : Except MissingBlock α} {places : List Nat} (h : graph.Follows result places)
    (f : α → β) : graph.Follows (do return f (← result)) places := by
  have hbind := h.bind fun value => @follows_ok graph β (f value)
  rwa [List.append_nil] at hbind

theorem Follows.mapM {f : α → Except MissingBlock β} {places : α → List Nat}
    (h : ∀ value, graph.Follows (f value) (places value)) (values : List α) :
    graph.Follows (values.mapM f) (values.flatMap places) := by
  induction values with
  | nil => exact follows_ok []
  | cons value values ih =>
    rw [List.mapM_cons, List.flatMap_cons]
    exact (h value).bind fun first => ih.map fun others => first :: others

theorem follows_idOf (index : Nat) : graph.Follows (graph.idOf index) [index] := by
  unfold Follows
  rw [List.find?_singleton]
  cases hlacks : graph.lacks index with
  | false =>
    rw [idOf_eq_ok (lacks_eq_false_iff.1 hlacks)]
    rfl
  | true =>
    have hnone := block?_eq_none_iff.2 hlacks
    simp [idOf, Graph.block, hnone, bind, Except.bind, failure?]

theorem follows_linkJson (link : Option Nat) : graph.Follows (graph.linkJson link) link.toList := by
  cases link with
  | none => exact follows_ok _
  | some index => exact (follows_idOf index).map _

end Graph

/-- The places that a block refers to, in the order in which it is rendered. -/
def Block.references (block : Block) : List Nat :=
  block.inner ++ block.next.toList ++ block.parent.toList

/-- The places that the blocks refer to, block by block. -/
def Graph.references (graph : Graph) : List Nat :=
  graph.toList.flatMap Block.references

namespace Project

variable {graph : Graph}

theorem follows_inputJson (input : Input) : graph.Follows (inputJson graph input) input.target?.toList := by
  cases input with
  | literal literal => exact Graph.follows_ok _
  | block target => exact (Graph.follows_idOf target).map _

theorem follows_inputMembers (inputs : List (String × Input)) :
    graph.Follows (inputMembers graph inputs) (inputs.flatMap fun entry => entry.2.target?.toList) :=
  Graph.Follows.mapM (fun entry => (follows_inputJson entry.2).map _) inputs

theorem follows_blockJson (block : Block) : graph.Follows (blockJson graph block) block.references := by
  have hinner : block.inner = block.inputs.flatMap fun entry => entry.2.target?.toList := by
    rw [Block.inner, List.filterMap_eq_flatMap_toList]
  rw [Block.references, hinner, List.append_assoc]
  refine (follows_inputMembers block.inputs).bind fun inputs => ?_
  refine (Graph.follows_linkJson block.next).bind fun next => ?_
  exact (Graph.follows_linkJson block.parent).map _

/-- Rendering follows all references, block by block. -/
theorem follows_blockMap (graph : Graph) : graph.Follows (blockMap graph) graph.references :=
  (Graph.Follows.mapM (fun block => (follows_blockJson block).map _) graph.toList).map _

end Project

/-! ## What the checker reports as missing -/

/-- The place where a block is missing, if that is the problem. -/
def LinkProblem.missing? : LinkProblem → Option Nat
  | missingLink _ target => some target
  | missingInput _ _ target => some target
  | _ => none

namespace Graph

variable (graph : Graph) (index : Nat) (block : Block)

theorem missing_idProblems : (graph.idProblems index block).filterMap LinkProblem.missing? = [] := by
  unfold idProblems
  split <;> rfl

theorem missing_linkProblems : (graph.linkProblems block).filterMap LinkProblem.missing? =
    (block.parent.toList ++ block.next.toList).filter graph.lacks := by
  have hentry : ∀ target : Nat,
      (if target < graph.size then none else some (LinkProblem.missingLink block.id target)).bind LinkProblem.missing? =
        Option.guard graph.lacks target := by
    intro target
    cases hlacks : graph.lacks target with
    | false => simp [lacks_eq_false_iff.1 hlacks, hlacks, Option.guard]
    | true =>
      have hge : ¬ target < graph.size := by simp [← lacks_eq_false_iff, hlacks]
      simp [hge, hlacks, Option.guard, LinkProblem.missing?]
  have hlinks : [block.parent, block.next].filterMap id = block.parent.toList ++ block.next.toList := by
    cases block.parent <;> cases block.next <;> rfl
  rw [linkProblems, List.filterMap_filterMap, hlinks, ← List.filterMap_eq_filter]
  congr 1
  funext target
  exact hentry target

theorem missing_parentProblems : (graph.parentProblems index block).filterMap LinkProblem.missing? = [] := by
  unfold parentProblems
  split_ifs <;> rfl

theorem missing_inputProblems :
    (graph.inputProblems index block).filterMap LinkProblem.missing? = block.inner.filter graph.lacks := by
  rw [inputProblems, Block.inner, List.filterMap_filterMap, List.filter_filterMap]
  congr 1
  funext entry
  obtain ⟨name, input⟩ := entry
  cases input with
  | literal literal => rfl
  | block target =>
    cases hchild : graph.block? target with
    | none =>
      have hlacks := block?_eq_none_iff.1 hchild
      simp [hchild, hlacks, LinkProblem.missing?, Option.filter]
    | some child =>
      have hlacks := lacks_eq_false_iff.2 (lt_size_of_block? hchild)
      by_cases hparent : child.parent = some index
      · simp [hchild, hparent, hlacks, Option.filter]
      · simp [hchild, hparent, hlacks, LinkProblem.missing?, Option.filter]

theorem missing_followerProblems : (graph.followerProblems index block).filterMap LinkProblem.missing? = [] := by
  unfold followerProblems
  split
  · rfl
  · split_ifs <;> rfl

theorem missing_blockProblems : ((graph.blockProblems index block).filterMap LinkProblem.missing?).Perm
    (block.references.filter graph.lacks) := by
  simp only [blockProblems, List.filterMap_append, missing_idProblems, missing_linkProblems, missing_parentProblems,
    missing_inputProblems, missing_followerProblems, List.nil_append, List.append_nil]
  rw [← List.filter_append, Block.references, List.append_assoc block.inner]
  -- parent, follower and slots against slots, follower and parent
  exact (List.perm_append_comm.trans (List.perm_append_comm.append_left _)).filter _

/-- The checker reports every reference to a missing block once, and nothing else as missing. -/
theorem missing_perm : (graph.problems.filterMap LinkProblem.missing?).Perm (graph.references.filter graph.lacks) := by
  have hblocks : graph.references.filter graph.lacks =
      graph.toList.zipIdx.flatMap fun entry => entry.1.references.filter graph.lacks := by
    rw [references, List.filter_flatMap]
    conv_lhs => rw [← List.zipIdx_map_fst 0 graph.toList, List.flatMap_map]
  rw [problems, List.filterMap_flatMap, hblocks]
  exact List.Perm.flatMap_left _ fun entry _ => graph.missing_blockProblems entry.2 entry.1

variable {graph}

theorem WellLinked.nodup_ids (h : graph.WellLinked) : graph.ids.Nodup := by
  rw [ids, List.Nodup, List.pairwise_map, List.pairwise_iff_getElem]
  intro first second hfirst hsecond hlt
  apply h.ids_ne first second _ _ hlt
  · rw [block?_eq_getElem?, List.getElem?_eq_getElem hfirst]
  · rw [block?_eq_getElem?, List.getElem?_eq_getElem hsecond]

theorem WellLinked.resolvesAt (h : graph.WellLinked) : ∀ block ∈ graph.toList, graph.ResolvesAt block := by
  intro block hmem
  obtain ⟨index, hindex⟩ := List.mem_iff_getElem?.1 hmem
  rw [← block?_eq_getElem?] at hindex
  exact (h.linkedAt index block hindex).resolvesAt

end Graph

/-- Rendering a graph fails exactly if the checker reports that a block is missing, and then at the first reference that
leads nowhere. If the checker reports nothing at all, then every block has a member of its own in the map, and all links
in the map lead to members. -/
theorem blockMap_checked (graph : Graph) :
    ((∃ missing, Project.blockMap graph = .error missing) ↔
        ∃ problem ∈ graph.problems, problem.missing?.isSome = true) ∧
      (∀ missing, Project.blockMap graph = .error missing ↔
        missing.size = graph.size ∧ graph.references.find? graph.lacks = some missing.index) ∧
      (graph.problems = [] → ∃ members, Project.blockMap graph = .ok (.obj members) ∧
        (members.map Prod.fst).Nodup ∧ (members.map Prod.fst).Perm graph.ids ∧ Project.Closed members) := by
  have herror : ∀ missing, Project.blockMap graph = .error missing ↔
      missing.size = graph.size ∧ graph.references.find? graph.lacks = some missing.index := by
    intro missing
    rw [← failure?_eq_some_iff, Project.follows_blockMap graph, Option.map_eq_some_iff]
    constructor
    · rintro ⟨index, hindex, rfl⟩
      exact ⟨rfl, hindex⟩
    · rintro ⟨hsize, hindex⟩
      exact ⟨missing.index, hindex, by rw [← hsize]⟩
  refine ⟨?_, herror, fun hproblems => ?_⟩
  · -- both sides say that some reference leads nowhere
    have hreported : (∃ problem ∈ graph.problems, problem.missing?.isSome = true) ↔
        graph.problems.filterMap LinkProblem.missing? ≠ [] := by
      simp [List.filterMap_eq_nil_iff, Option.isSome_iff_ne_none]
    have hmet : (∃ missing, Project.blockMap graph = .error missing) ↔ graph.references.filter graph.lacks ≠ [] := by
      simp only [herror, ← List.head?_filter]
      cases hfilter : graph.references.filter graph.lacks with
      | nil => simp
      | cons index rest => simpa using ⟨⟨graph.size, index⟩, rfl, rfl⟩
    rw [hreported, hmet, ← List.length_pos_iff, ← List.length_pos_iff, graph.missing_perm.length_eq]
  · have hlinked := Graph.problems_eq_nil_iff.1 hproblems
    have hkeys := Project.keys_perm_of_nodup hlinked.nodup_ids
    exact ⟨_, Project.blockMap_eq_ok hlinked.resolvesAt, hkeys.nodup_iff.2 hlinked.nodup_ids, hkeys,
      Project.closed_of_resolvesAt hlinked.nodup_ids hlinked.resolvesAt⟩

/-- The checker reports the parent of the first block first, rendering fails at a slot of it. A slot that is filled
twice does no harm. -/
theorem blockMap_checked_slots :
    let slots (first second : Nat) : List (String × Input) := [("SUBSTACK", .block first), ("SUBSTACK", .block second)]
    let adrift : Graph :=
      ⟨#[{ id := "a", opcode := .ifThen, parent := some 7, next := some 6, inputs := slots 0 5 }]⟩
    let doubled : Graph :=
      ⟨#[{ id := "a", opcode := .ifThen, topLevel := true, inputs := slots 1 2 },
        { id := "b", opcode := .showSprite, parent := some 0 }, { id := "c", opcode := .hideSprite, parent := some 0 }]⟩
    adrift.problems.head? = some (.missingLink "a" 7) ∧ Project.blockMap adrift = .error ⟨1, 5⟩ ∧
      doubled.problems = [] ∧ ∃ members, Project.blockMap doubled = .ok (.obj members) ∧ Project.Closed members := by
  intro slots adrift doubled
  have hproblems : doubled.problems = [] := by decide
  obtain ⟨members, hmembers, -, -, hclosed⟩ := (blockMap_checked doubled).2.2 hproblems
  exact ⟨by decide, ((blockMap_checked adrift).2.1 ⟨1, 5⟩).2 (by decide), hproblems, members, hmembers, hclosed⟩

end ScratchScript
