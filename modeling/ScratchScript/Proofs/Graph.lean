import Mathlib.Data.List.Forall2
import ScratchScript.Graph.Links

/-!
# Graphs as lists of blocks

What the operations on graphs do to the list of blocks, and when a graph holds a piece of one.

* A graph that has grown by some blocks is `Graph.append`; the first of the new blocks has the place `Graph.size`, and
  changing the block at that place changes the first of them (`modify_append_size`).
* Other ids change nothing but the ids (`block?_relabel`), and can be given before a graph grows or is changed as well
  as after (`relabel_push`, `relabel_modify`).
* `Graph.Holds index blocks`: the graph has these blocks from the place `index` on. A piece of a graph that is laid out
  part after part is held exactly if its parts are (`holds_append`).
* `Graph.AllOn p first count`: a property of the blocks of a stretch, proved part by part (`AllOn.append`).
-/

namespace ScratchScript.Graph

def toList (graph : Graph) : List Block :=
  graph.blocks.toList

theorem ext_toList {graph other : Graph} (h : graph.toList = other.toList) : graph = other := by
  cases graph
  cases other
  simpa [toList] using h

theorem size_eq_length (graph : Graph) : graph.size = graph.toList.length := by
  simp [size, toList]

theorem block?_eq_getElem? (graph : Graph) (index : Nat) : graph.block? index = graph.toList[index]? := by
  simp [block?, toList]

theorem ext_block? {graph other : Graph} (h : ∀ index, graph.block? index = other.block? index) : graph = other := by
  apply ext_toList
  apply List.ext_getElem?
  simpa [block?_eq_getElem?] using h

theorem forall₂_toList {R : Block → Block → Prop} {graph other : Graph} (hsize : graph.size = other.size)
    (h : ∀ index block changed, graph.block? index = some block → other.block? index = some changed →
      R block changed) : List.Forall₂ R graph.toList other.toList := by
  rw [List.forall₂_iff_get]
  refine ⟨by rw [← size_eq_length, ← size_eq_length, hsize], fun index hgraph hother => ?_⟩
  apply h index
  · rw [block?_eq_getElem?, List.getElem?_eq_getElem hgraph, List.get_eq_getElem]
  · rw [block?_eq_getElem?, List.getElem?_eq_getElem hother, List.get_eq_getElem]

theorem lt_size_of_block? {graph : Graph} {index : Nat} {block : Block} (h : graph.block? index = some block) :
    index < graph.size := by
  rw [block?_eq_getElem?] at h
  rw [size_eq_length]
  exact (List.getElem?_eq_some_iff.1 h).1

theorem exists_block?_of_lt {graph : Graph} {index : Nat} (h : index < graph.size) :
    ∃ block, graph.block? index = some block := by
  rw [size_eq_length] at h
  exact ⟨graph.toList[index], by rw [block?_eq_getElem?, List.getElem?_eq_getElem h]⟩

@[simp] theorem toList_append (graph : Graph) (blocks : List Block) :
    (graph.append blocks).toList = graph.toList ++ blocks := by
  simp [append, toList]

@[simp] theorem toList_push (graph : Graph) (block : Block) : (graph.push block).toList = graph.toList ++ [block] := by
  simp [push, toList]

@[simp] theorem toList_modify (graph : Graph) (index : Nat) (change : Block → Block) :
    (graph.modify index change).toList = graph.toList.modify index change := by
  simp [modify, toList]

/-! ## Growing graphs -/

@[simp] theorem size_append (graph : Graph) (blocks : List Block) :
    (graph.append blocks).size = graph.size + blocks.length := by
  simp [size_eq_length]

@[simp] theorem size_modify (graph : Graph) (index : Nat) (change : Block → Block) :
    (graph.modify index change).size = graph.size := by
  simp [size_eq_length]

theorem push_eq_append (graph : Graph) (block : Block) : graph.push block = graph.append [block] :=
  ext_toList (by simp)

theorem append_append (graph : Graph) (xs ys : List Block) :
    (graph.append xs).append ys = graph.append (xs ++ ys) :=
  ext_toList (by simp)

theorem block?_append_size (graph : Graph) (block : Block) (blocks : List Block) :
    (graph.append (block :: blocks)).block? graph.size = some block := by
  simp [block?_eq_getElem?, size_eq_length]

theorem mem_of_block?_append {graph : Graph} {blocks : List Block} {index : Nat} {block : Block}
    (hle : graph.size ≤ index) (h : (graph.append blocks).block? index = some block) : block ∈ blocks := by
  rw [size_eq_length] at hle
  rw [block?_eq_getElem?, toList_append, List.getElem?_append_right hle] at h
  exact List.mem_of_getElem? h

theorem block?_append_of_some {graph : Graph} {index : Nat} {block : Block} (h : graph.block? index = some block)
    (blocks : List Block) : (graph.append blocks).block? index = some block := by
  rw [block?_eq_getElem?] at h ⊢
  rw [toList_append, List.getElem?_append_left (List.getElem?_eq_some_iff.1 h).1, h]

theorem block?_modify_self {graph : Graph} {index : Nat} {block : Block} (h : graph.block? index = some block)
    (change : Block → Block) : (graph.modify index change).block? index = some (change block) := by
  rw [block?_eq_getElem?] at h ⊢
  simp [h]

theorem block?_modify_of_ne (graph : Graph) {place index : Nat} (h : index ≠ place) (change : Block → Block) :
    (graph.modify place change).block? index = graph.block? index := by
  rw [block?_eq_getElem?, block?_eq_getElem?, toList_modify, List.getElem?_modify_ne change graph.toList (Ne.symm h)]

theorem modify_append_size (graph : Graph) (block : Block) (blocks : List Block) (change : Block → Block) :
    (graph.append (block :: blocks)).modify graph.size change = graph.append (change block :: blocks) := by
  apply ext_toList
  rw [toList_modify, toList_append, toList_append, size_eq_length]
  induction graph.toList with
  | nil => rfl
  | cons first rest ih => simp [ih]

theorem modify_append_of_lt {graph : Graph} {index : Nat} (h : index < graph.size) (blocks : List Block)
    (change : Block → Block) :
    (graph.append blocks).modify index change = (graph.modify index change).append blocks := by
  apply ext_toList
  rw [size_eq_length] at h
  rw [toList_modify, toList_append, toList_append, toList_modify]
  apply List.ext_getElem?
  intro place
  rw [List.getElem?_modify]
  by_cases hlt : place < graph.toList.length
  · rw [List.getElem?_append_left hlt, List.getElem?_append_left (by simpa using hlt), List.getElem?_modify]
  · have hle := Nat.not_lt.1 hlt
    have hne : index ≠ place := by omega
    rw [List.getElem?_append_right hle, List.getElem?_append_right (by simpa using hle), List.length_modify]
    simp [hne]

theorem block?_modify (graph : Graph) (place : Nat) (change : Block → Block) (index : Nat) :
    (graph.modify place change).block? index =
      (graph.block? index).map fun block => if index = place then change block else block := by
  rw [block?_eq_getElem?, block?_eq_getElem?, toList_modify, List.getElem?_modify]
  by_cases h : index = place
  · simp [h]
  · simp [h, Ne.symm h]

/-! ## Other ids -/

@[simp] theorem size_relabel (graph : Graph) (label : Nat → String) : (graph.relabel label).size = graph.size := by
  simp [relabel, size]

theorem block?_relabel (graph : Graph) (label : Nat → String) (index : Nat) :
    (graph.relabel label).block? index = (graph.block? index).map fun block => { block with id := label index } := by
  simp [relabel, block?]

theorem block?_relabel_of_some {graph : Graph} {index : Nat} {block : Block} (h : graph.block? index = some block)
    (label : Nat → String) : (graph.relabel label).block? index = some { block with id := label index } := by
  rw [block?_relabel, h, Option.map_some]

theorem relabel_push (graph : Graph) (block : Block) (label : Nat → String) :
    (graph.push block).relabel label = (graph.relabel label).push { block with id := label graph.size } := by
  simp [relabel, push, size, Array.mapIdx_push]

/-- A change that does not touch ids can be made before or after ids are given. -/
theorem relabel_modify (graph : Graph) (label : Nat → String) (place : Nat) (change : Block → Block)
    (h : ∀ (block : Block) (id : String), { change block with id := id } = change { block with id := id }) :
    (graph.modify place change).relabel label = (graph.relabel label).modify place change := by
  apply ext_block?
  intro index
  rw [block?_relabel, block?_modify, block?_modify, block?_relabel, Option.map_map, Option.map_map]
  congr 1
  funext block
  by_cases hplace : index = place
  · simp only [Function.comp_apply, if_pos hplace]
    exact h block (label index)
  · simp only [Function.comp_apply, if_neg hplace]

theorem relabel_congr {graph : Graph} {first second : Nat → String}
    (h : ∀ index < graph.size, first index = second index) : graph.relabel first = graph.relabel second := by
  apply ext_block?
  intro index
  rw [block?_relabel, block?_relabel]
  cases hblock : graph.block? index with
  | none => rfl
  | some block => rw [Option.map_some, Option.map_some, h index (lt_size_of_block? hblock)]

/-! ## Pieces of a graph -/

def Holds (graph : Graph) (index : Nat) (blocks : List Block) : Prop :=
  ∀ offset block, blocks[offset]? = some block → graph.block? (index + offset) = some block

theorem holds_toList (graph : Graph) : graph.Holds 0 graph.toList := by
  intro offset block h
  rw [block?_eq_getElem?, Nat.zero_add, h]

theorem holds_append_self (graph : Graph) (blocks : List Block) : (graph.append blocks).Holds graph.size blocks := by
  intro offset block h
  rw [block?_eq_getElem?, toList_append, size_eq_length, List.getElem?_append_right (Nat.le_add_right _ _),
    Nat.add_sub_cancel_left, h]

theorem holds_append {graph : Graph} {index : Nat} {xs ys : List Block} :
    graph.Holds index (xs ++ ys) ↔ graph.Holds index xs ∧ graph.Holds (index + xs.length) ys := by
  constructor
  · intro h
    refine ⟨fun offset block hxs => ?_, fun offset block hys => ?_⟩
    · apply h
      rw [List.getElem?_append_left (List.getElem?_eq_some_iff.1 hxs).1, hxs]
    · rw [Nat.add_assoc]
      apply h
      rw [List.getElem?_append_right (Nat.le_add_right _ _), Nat.add_sub_cancel_left, hys]
  · rintro ⟨hxs, hys⟩ offset block h
    by_cases hlt : offset < xs.length
    · rw [List.getElem?_append_left hlt] at h
      exact hxs offset block h
    · rw [List.getElem?_append_right (Nat.not_lt.1 hlt)] at h
      have := hys _ block h
      rwa [show index + xs.length + (offset - xs.length) = index + offset by omega] at this

theorem holds_cons {graph : Graph} {index : Nat} {block : Block} {blocks : List Block} :
    graph.Holds index (block :: blocks) ↔ graph.block? index = some block ∧ graph.Holds (index + 1) blocks := by
  rw [show block :: blocks = [block] ++ blocks from rfl, holds_append]
  refine and_congr_left fun _ => ⟨fun h => h 0 block rfl, fun h offset other hother => ?_⟩
  obtain ⟨rfl, rfl⟩ : offset = 0 ∧ block = other := by
    cases offset with
    | zero => simpa using hother
    | succ offset => simp at hother
  exact h

/-! ## Stretches of a graph -/

/-- The `count` blocks from the place `first` on have the property, which may depend on the place. -/
def AllOn (graph : Graph) (p : Nat → Block → Prop) (first count : Nat) : Prop :=
  ∀ index block, first ≤ index → index < first + count → graph.block? index = some block → p index block

section AllOn

variable {graph : Graph} {p : Nat → Block → Prop}

theorem allOn_zero (first : Nat) : graph.AllOn p first 0 := by
  intro index block hle hlt
  omega

theorem allOn_one {index : Nat} {block : Block} (hblock : graph.block? index = some block) (h : p index block) :
    graph.AllOn p index 1 := by
  intro other otherBlock hle hlt hother
  obtain rfl : index = other := by omega
  obtain rfl : block = otherBlock := by simpa [hblock] using hother
  exact h

theorem AllOn.append {first count more : Nat} (h : graph.AllOn p first count)
    (hmore : graph.AllOn p (first + count) more) : graph.AllOn p first (count + more) := by
  intro index block hle hlt hblock
  by_cases hin : index < first + count
  · exact h index block hle hin hblock
  · exact hmore index block (by omega) (by omega) hblock

theorem AllOn.of_size (h : graph.AllOn p 0 graph.size) {index : Nat} {block : Block}
    (hblock : graph.block? index = some block) : p index block := by
  have hlt := lt_size_of_block? hblock
  exact h index block (Nat.zero_le _) (by omega) hblock

end AllOn

end ScratchScript.Graph
