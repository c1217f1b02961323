import Mathlib.Data.List.Nodup
import Mathlib.Data.List.Perm.Basic
import ScratchScript.Project.BlockMap
import ScratchScript.Proofs.Linked

/-!
# The map of blocks

Rendering a graph whose links all lead to blocks cannot fail, and gives what is rendered with a table of ids in place of
the graph (`Project.blockMap_eq_ok`): `blockValue` is the value of a block for such a table. If the ids are different,
then every block has a member of its own (`Project.exists_blockMap_eq_ok`).

The members of an object are kept in the order of their names, and of two members of one name the later wins. So an
object is known by what it has under each name (`Json.member?_object`), and putting members under new names into one
gives some arrangement of all of them (`Json.putAll_perm`).
-/

namespace ScratchScript

/-! ## Lists of named values -/

section Named

variable {α β : Type} {entries other : List (String × α)} {name : String} {value : α}

theorem lookup_cons_eq_ite (first : String) (value : α) (entries : List (String × α)) (name : String) :
    ((first, value) :: entries).lookup name = if name = first then some value else entries.lookup name := by
  rw [List.lookup_cons]
  by_cases h : name = first
  · rw [if_pos h, beq_iff_eq.2 h]
  · rw [if_neg h, beq_eq_false_iff_ne.2 h]

theorem lookup_eq_some_iff_mem (h : (entries.map Prod.fst).Nodup) :
    entries.lookup name = some value ↔ (name, value) ∈ entries := by
  induction entries with
  | nil => simp
  | cons entry entries ih =>
    obtain ⟨first, old⟩ := entry
    rw [List.map_cons, List.nodup_cons] at h
    obtain ⟨hfirst, hrest⟩ := h
    rw [lookup_cons_eq_ite, List.mem_cons]
    by_cases hname : name = first
    · subst hname
      have hnot : (name, value) ∉ entries := fun hmem => hfirst (List.mem_map.2 ⟨_, hmem, rfl⟩)
      simp [hnot, eq_comm]
    · simp [hname, ih hrest]

theorem lookup_eq_of_perm (hperm : entries.Perm other) (h : (entries.map Prod.fst).Nodup) (name : String) :
    entries.lookup name = other.lookup name := by
  have hother : (other.map Prod.fst).Nodup := (hperm.map Prod.fst).nodup_iff.1 h
  apply Option.ext
  intro value
  rw [lookup_eq_some_iff_mem h, lookup_eq_some_iff_mem hother, hperm.mem_iff]

theorem lookup_map_value (f : α → β) (entries : List (String × α)) (name : String) :
    (entries.map fun (name, value) => (name, f value)).lookup name = (entries.lookup name).map f := by
  induction entries with
  | nil => rfl
  | cons entry entries ih =>
    obtain ⟨first, value⟩ := entry
    rw [List.map_cons, lookup_cons_eq_ite, lookup_cons_eq_ite, ih]
    split <;> rfl

theorem putNamed_perm {name : String} {members : List (String × α)} (h : name ∉ members.map Prod.fst) (value : α) :
    (putNamed name value members).Perm ((name, value) :: members) := by
  induction members with
  | nil => exact .refl _
  | cons member members ih =>
    obtain ⟨other, old⟩ := member
    rw [List.map_cons, List.mem_cons, not_or] at h
    unfold putNamed
    by_cases hlt : name < other
    · rw [if_pos hlt]
    · rw [if_neg hlt, if_neg h.1]
      exact ((ih h.2).cons (other, old)).trans (.swap (name, value) (other, old) members)

theorem lookup_putNamed (name : String) (value : α) (members : List (String × α)) (other : String) :
    (putNamed name value members).lookup other = ((name, value) :: members).lookup other := by
  induction members with
  | nil => rfl
  | cons member members ih =>
    obtain ⟨first, old⟩ := member
    unfold putNamed
    by_cases hlt : name < first
    · rw [if_pos hlt]
    · rw [if_neg hlt]
      by_cases hname : name = first
      · subst hname
        rw [if_pos rfl]
        simp only [lookup_cons_eq_ite]
        split <;> rfl
      · rw [if_neg hname]
        simp only [lookup_cons_eq_ite, ih]
        by_cases hother : other = first
        · rw [if_pos hother, if_pos hother, if_neg fun heq => hname (heq.symm.trans hother)]
        · rw [if_neg hother, if_neg hother]

theorem mem_of_mem_putNamed {name : String} {value : α} {members : List (String × α)} {entry : String × α}
    (h : entry ∈ putNamed name value members) : entry = (name, value) ∨ entry ∈ members := by
  induction members with
  | nil => exact .inl (List.mem_singleton.1 h)
  | cons member members ih =>
    obtain ⟨other, old⟩ := member
    unfold putNamed at h
    split_ifs at h
    · simpa using h
    · exact (List.mem_cons.1 h).imp_right (List.mem_cons_of_mem _)
    · rcases List.mem_cons.1 h with rfl | hmem
      · exact .inr List.mem_cons_self
      · exact (ih hmem).imp_right (List.mem_cons_of_mem _)

theorem putNamed_putNamed (name : String) (value other : α) (entries : List (String × α)) :
    putNamed name value (putNamed name other entries) = putNamed name value entries := by
  induction entries with
  | nil => simp [putNamed, String.lt_irrefl]
  | cons entry entries ih =>
    obtain ⟨first, old⟩ := entry
    by_cases hlt : name < first
    · simp [putNamed, hlt, String.lt_irrefl]
    · by_cases hname : name = first
      · simp [putNamed, hname, String.lt_irrefl]
      · simp [putNamed, hlt, hname, ih]

end Named

/-! ## Members of an object -/

namespace Json

theorem putAll_perm (members new : List (String × Json))
    (h : (members.map Prod.fst ++ new.map Prod.fst).Nodup) : (putAll members new).Perm (members ++ new) := by
  induction new generalizing members with
  | nil => rw [List.append_nil]; exact .refl _
  | cons member new ih =>
    obtain ⟨name, value⟩ := member
    have hperm : (putNamed name value members).Perm (members ++ [(name, value)]) := by
      refine (putNamed_perm ?_ value).trans (List.perm_append_singleton _ _).symm
      intro hmem
      exact (List.nodup_append.1 h).2.2 name hmem name (by simp) rfl
    have hnodup : ((putNamed name value members).map Prod.fst ++ new.map Prod.fst).Nodup := by
      have hnames := (hperm.map Prod.fst).append_right (new.map Prod.fst)
      rw [hnames.nodup_iff]
      simpa using h
    have hrest := (ih (putNamed name value members) hnodup).trans (hperm.append_right new)
    simpa [putAll] using hrest

theorem mem_of_mem_putAll {members new : List (String × Json)} {entry : String × Json}
    (h : entry ∈ putAll members new) : entry ∈ members ∨ entry ∈ new := by
  induction new generalizing members with
  | nil => exact .inl h
  | cons member new ih =>
    rcases ih h with hput | hnew
    · rcases mem_of_mem_putNamed hput with rfl | hold
      · exact .inr List.mem_cons_self
      · exact .inl hold
    · exact .inr (List.mem_cons_of_mem _ hnew)

/-- The last member of a name is the one that the object has. -/
theorem member?_object (members : List (String × Json)) (name : String) :
    (object members).member? name = members.reverse.lookup name := by
  have hall : ∀ old : List (String × Json),
      (putAll old members).lookup name = (members.reverse ++ old).lookup name := by
    induction members with
    | nil => exact fun old => rfl
    | cons member members ih =>
      intro old
      have hput := ih (putNamed member.1 member.2 old)
      rw [List.lookup_append, lookup_putNamed, ← List.lookup_append] at hput
      rw [List.reverse_cons, List.append_assoc]
      exact hput
  have hempty := hall []
  rwa [List.append_nil] at hempty

theorem member?_object_of_mem {members : List (String × Json)} (h : (members.map Prod.fst).Nodup) {name : String}
    {value : Json} (hmem : (name, value) ∈ members) : (object members).member? name = some value := by
  have hreverse : (members.reverse.map Prod.fst).Nodup := by
    rw [List.map_reverse, List.nodup_reverse]
    exact h
  rw [member?_object, lookup_eq_some_iff_mem hreverse, List.mem_reverse]
  exact hmem

theorem lookup_eq_of_object_eq {members other : List (String × Json)} (h : (members.map Prod.fst).Nodup)
    (hother : (other.map Prod.fst).Nodup) (heq : object members = object other) (name : String) :
    members.lookup name = other.lookup name := by
  have hmember := congrArg (fun json => json.member? name) heq
  simp only [member?_object] at hmember
  rw [lookup_eq_of_perm (List.reverse_perm members).symm h, hmember,
    lookup_eq_of_perm (List.reverse_perm other).symm hother]

end Json

/-! ## Values -/

namespace Project

def linkValue (ids : Nat → String) : Option Nat → Json
  | none => .null
  | some index => .str (ids index)

def inputValue (ids : Nat → String) : Input → Json
  | .literal literal => literalJson literal
  | .block target => .arr [.int 2, .str (ids target)]

/-- A block, for a table of ids. -/
def blockValue (ids : Nat → String) (block : Block) : Json :=
  .object ([("opcode", .str block.opcode.name), ("next", linkValue ids block.next),
    ("parent", linkValue ids block.parent),
    ("inputs", .object (block.inputs.map fun (name, input) => (name, inputValue ids input))),
    ("fields", .object (block.fields.map fun (name, field) => (name, fieldJson field))),
    ("shadow", .bool block.shadow), ("topLevel", .bool block.topLevel)] ++
    positionMembers block.position ++ mutationMembers block)

end Project

/-! ## Rendering -/

theorem mapM_eq_ok {ε α β : Type} {f : α → Except ε β} {g : α → β} {l : List α} (h : ∀ a ∈ l, f a = .ok (g a)) :
    l.mapM f = .ok (l.map g) := by
  induction l with
  | nil => rfl
  | cons a l ih =>
    rw [List.mapM_cons, h a List.mem_cons_self, ih fun b hb => h b (List.mem_cons_of_mem _ hb)]
    rfl

namespace Graph

def ids (graph : Graph) : List String :=
  graph.toList.map Block.id

def idAt (graph : Graph) (index : Nat) : String :=
  graph.ids.getD index ""

/-- All links of the block lead to blocks of the graph. -/
structure ResolvesAt (graph : Graph) (block : Block) : Prop where
  parent_lt : ∀ parent, block.parent = some parent → parent < graph.size
  next_lt : ∀ next, block.next = some next → next < graph.size
  input_lt : ∀ name target, (name, .block target) ∈ block.inputs → target < graph.size

variable {graph : Graph}

theorem length_ids (graph : Graph) : graph.ids.length = graph.size := by
  rw [ids, List.length_map, size_eq_length]

theorem idAt_of_block? {index : Nat} {block : Block} (h : graph.block? index = some block) :
    graph.idAt index = block.id := by
  rw [block?_eq_getElem?] at h
  simp [idAt, ids, h]

theorem LinkedAt.resolvesAt {index : Nat} {block : Block} (h : graph.LinkedAt index block) :
    graph.ResolvesAt block := by
  refine ⟨h.parent_lt, h.next_lt, ?_⟩
  intro name target hmem
  obtain ⟨child, hchild, -⟩ := h.input_parent name target hmem
  exact lt_size_of_block? hchild

theorem idOf_eq_ok {index : Nat} (h : index < graph.size) : graph.idOf index = .ok (graph.idAt index) := by
  obtain ⟨block, hblock⟩ := exists_block?_of_lt h
  rw [idAt_of_block? hblock]
  simp [idOf, Graph.block, hblock, bind, Except.bind, pure, Except.pure]

theorem linkJson_eq_ok {link : Option Nat} (h : ∀ target, link = some target → target < graph.size) :
    graph.linkJson link = .ok (Project.linkValue graph.idAt link) := by
  cases link with
  | none => rfl
  | some target =>
    rw [linkJson, idOf_eq_ok (h target rfl)]
    rfl

end Graph

namespace Project

open ScratchScript.Graph

variable {graph : Graph}

theorem inputMembers_eq_ok {inputs : List (String × Input)}
    (h : ∀ name target, (name, .block target) ∈ inputs → target < graph.size) :
    inputMembers graph inputs = .ok (inputs.map fun (name, input) => (name, inputValue graph.idAt input)) := by
  apply mapM_eq_ok
  rintro ⟨name, input⟩ hmem
  cases input with
  | literal literal => rfl
  | block target =>
    simp only [inputJson, idOf_eq_ok (h name target hmem)]
    rfl

theorem blockJson_eq_ok {block : Block} (h : graph.ResolvesAt block) :
    blockJson graph block = .ok (blockValue graph.idAt block) := by
  rw [blockJson, inputMembers_eq_ok h.input_lt, linkJson_eq_ok h.next_lt, linkJson_eq_ok h.parent_lt]
  rfl

/-- The members of the map of blocks, in the order of the blocks. -/
def blockMembers (graph : Graph) : List (String × Json) :=
  graph.toList.map fun block => (block.id, blockValue graph.idAt block)

theorem names_blockMembers (graph : Graph) : (blockMembers graph).map Prod.fst = graph.ids := by
  rw [blockMembers, List.map_map]
  rfl

/-- A graph whose links lead to blocks is rendered. -/
theorem blockMap_eq_ok (h : ∀ block ∈ graph.toList, graph.ResolvesAt block) :
    blockMap graph = .ok (.object (blockMembers graph)) := by
  have hmembers : (graph.blocks.toList.mapM fun block => do return (block.id, ← blockJson graph block)) =
      .ok (blockMembers graph) := by
    apply mapM_eq_ok
    intro block hmem
    rw [blockJson_eq_ok (h block hmem)]
    rfl
  rw [blockMap, hmembers]
  rfl

/-- Every block of a graph with different ids has a member of its own. -/
theorem exists_blockMap_eq_ok (hlinked : ∀ index block, graph.block? index = some block → graph.LinkedAt index block)
    (hids : (graph.toList.map Block.id).Nodup) :
    ∃ members, blockMap graph = .ok (.obj members) ∧ (members.map Prod.fst).Perm (graph.toList.map Block.id) := by
  have hresolves : ∀ block ∈ graph.toList, graph.ResolvesAt block := by
    intro block hmem
    obtain ⟨index, hindex⟩ := List.mem_iff_getElem?.1 hmem
    rw [← block?_eq_getElem?] at hindex
    exact (hlinked index block hindex).resolvesAt
  have hperm := Json.putAll_perm [] (blockMembers graph) (by simpa [names_blockMembers, ids] using hids)
  refine ⟨Json.putAll [] (blockMembers graph), blockMap_eq_ok hresolves, ?_⟩
  have hnames := hperm.map Prod.fst
  rwa [List.nil_append, names_blockMembers] at hnames

end Project

end ScratchScript
