import Mathlib.Data.List.Chain
import Mathlib.Logic.Relation
import ScratchScript.Proofs.Feeding

/-!
# Open blocks and the place where a chain goes on

What the frames of an assembly and its `last` block have to do with the graph, whatever lines have been fed
(`ofLines_nested`). The frames are a chain of containment: the owner of each is the last block in the slot of the frame
around it. A frame is empty exactly as long as its slot is, and once it is not, `last` is the last block in it. This is
why the choice that `place` makes is right: a statement that goes into a slot finds the slot empty, and one that goes
after a block finds nothing there.

One line changes one old block at most. `Graph.KeepsBut` says so, and all that the frames rest on is carried over from
it: the frames outside the innermost one own other blocks than the one that changes, and no link to a following block is
ever lost (`Graph.KeepsNext`).
-/

namespace ScratchScript

namespace Graph

def next? (graph : Graph) (index : Nat) : Option Nat :=
  (graph.block? index).bind Block.next

/-- The chain that goes on from one place passes another. -/
def Leads (graph : Graph) : Nat → Nat → Prop :=
  Relation.ReflTransGen fun index next => graph.next? index = some next

/-- The frame is that of an open block: one that opens a body, with nothing after it, whose kind tells which slot is
being filled and whose slots tell whether that one is empty. -/
structure Opens (graph : Graph) (frame : Frame) : Prop where
  exists_owner : ∃ owner, graph.block? frame.owner = some owner ∧ owner.opcode.opensBody = true ∧ owner.next = none ∧
    (frame.slot = .elseBranch ↔ owner.opcode = .ifElse) ∧
    (frame.isEmpty = true ↔ owner.input? frame.slot.name = none) ∧
    (frame.slot = .body → owner.input? Slot.elseBranch.name = none)

/-- The chain in the slot of the frame ends with the block at the place, and the block has the owner of the frame as its
parent. -/
structure EndsSlot (graph : Graph) (frame : Frame) (last : Nat) : Prop where
  owner_lt : frame.owner < last
  leads : ∃ owner first, graph.block? frame.owner = some owner ∧
    owner.input? frame.slot.name = some (.block first) ∧ graph.Leads first last
  exists_last : ∃ block, graph.block? last = some block ∧ block.parent = some frame.owner ∧ block.next = none ∧
    block.opcode.isHat = false

end Graph

/-- The frames contain each other, innermost first, and `last` is where the chain in the innermost one goes on. -/
structure Assembly.Nested (assembly : Assembly) : Prop where
  opens : ∀ frame ∈ assembly.frames, assembly.graph.Opens frame
  contained : assembly.frames.IsChain fun inner outer => assembly.graph.EndsSlot outer inner.owner
  last_of_filled : ∀ frame outer, assembly.frames = frame :: outer → frame.isEmpty = false →
    ∃ last, assembly.last = some last ∧ assembly.graph.EndsSlot frame last
  last_eq_none : assembly.last = none → assembly.graph.size = 0 ∨
    ∃ frame outer, assembly.frames = frame :: outer ∧ frame.isEmpty = true ∧ frame.slot = .elseBranch
  next_of_after : ∀ previous, assembly.place = .after previous →
    ∃ block, assembly.graph.block? previous = some block ∧ block.next = none

/-! ## Slots of a block -/

theorem lookup_setEntry_self (name : String) (input : Input) (entries : List (String × Input)) :
    (setEntry name input entries).lookup name = some input := by
  induction entries with
  | nil => simp [setEntry]
  | cons entry entries ih =>
    obtain ⟨other, old⟩ := entry
    by_cases hname : other = name
    · simp [setEntry, hname]
    · have hne : (name == other) = false := by simpa using Ne.symm hname
      simp [setEntry, hname, List.lookup_cons, hne, ih]

theorem lookup_setEntry_of_ne {name other : String} (h : other ≠ name) (input : Input)
    (entries : List (String × Input)) : (setEntry name input entries).lookup other = entries.lookup other := by
  induction entries with
  | nil =>
    have hne : (other == name) = false := by simpa using h
    simp [setEntry, List.lookup_cons, hne]
  | cons entry entries ih =>
    obtain ⟨first, old⟩ := entry
    by_cases hname : first = name
    · subst hname
      have hne : (other == first) = false := by simpa using h
      simp [setEntry, List.lookup_cons, hne]
    · cases hfirst : other == first with
      | true => simp [setEntry, hname, List.lookup_cons, hfirst]
      | false => simp [setEntry, hname, List.lookup_cons, hfirst, ih]

theorem Statement.input?_block_eq_none {statement : Statement} (h : statement.Regular) (spot : Option Position)
    (parent : Option Nat) (index : Nat) {name : String} (hslot : name ∈ blockSlots) (hname : name ≠ "CONDITION") :
    (statement.block spot parent index).input? name = none := by
  have hliteral : (statement.literals.map fun entry => (entry.1, Input.literal entry.2)).lookup name = none := by
    refine List.lookup_eq_none_iff.2 ?_
    intro entry hentry
    obtain ⟨original, hmem, rfl⟩ := List.mem_map.1 hentry
    have hne : name ≠ original.1 := by
      rintro rfl
      exact h.literals original hmem hslot
    simpa using hne
  unfold Statement.block
  cases statement.conditionRead.root? (index + 1) with
  | none => exact hliteral
  | some target =>
    change (setEntry "CONDITION" _ _).lookup name = none
    rw [lookup_setEntry_of_ne hname]
    exact hliteral

/-! ## Graphs that keep their blocks -/

namespace Graph

variable {graph later : Graph} {frame : Frame} {place last : Nat}

/-- The later graph has all blocks of the graph but for one, which may have changed. -/
def KeepsBut (graph later : Graph) (place : Nat) : Prop :=
  ∀ index block, index ≠ place → graph.block? index = some block → later.block? index = some block

/-- No link to a following block is lost. -/
def KeepsNext (graph later : Graph) : Prop :=
  ∀ index next, graph.next? index = some next → later.next? index = some next

theorem keepsBut_modify (graph : Graph) (place : Nat) (change : Block → Block) :
    graph.KeepsBut (graph.modify place change) place := by
  intro index block hne hblock
  rw [block?_modify_of_ne graph hne]
  exact hblock

theorem KeepsBut.append (h : graph.KeepsBut later place) (blocks : List Block) :
    graph.KeepsBut (later.append blocks) place :=
  fun index block hne hblock => block?_append_of_some (h index block hne hblock) blocks

theorem KeepsBut.keepsNext (h : graph.KeepsBut later place) {block : Block} (hblock : graph.block? place = some block)
    (hnext : block.next = none) : graph.KeepsNext later := by
  intro index next hindex
  obtain ⟨old, hold, hold_next⟩ := Option.bind_eq_some_iff.1 hindex
  have hne : index ≠ place := by
    rintro rfl
    obtain rfl : block = old := by simpa [hblock] using hold
    simp [hnext] at hold_next
  rw [next?, h index old hne hold]
  exact hold_next

theorem Leads.mono (hnext : graph.KeepsNext later) {first last : Nat} (h : graph.Leads first last) :
    later.Leads first last :=
  Relation.ReflTransGen.mono hnext first last h

theorem Opens.mono (h : graph.Opens frame) (hkeeps : graph.KeepsBut later place) (hne : frame.owner ≠ place) :
    later.Opens frame := by
  obtain ⟨owner, howner, hrest⟩ := h
  exact ⟨owner, hkeeps _ owner hne howner, hrest⟩

/-- The end of a slot stays its end as long as the owner of the slot is not the block that changes, and the last block
keeps its own links if it is. -/
theorem EndsSlot.mono (h : graph.EndsSlot frame last) (hkeeps : graph.KeepsBut later place)
    (hnext : graph.KeepsNext later) (hne : frame.owner ≠ place)
    (hlast : ∀ block, last = place → graph.block? last = some block → ∃ changed, later.block? last = some changed ∧
      changed.parent = block.parent ∧ changed.next = block.next ∧ changed.opcode.isHat = block.opcode.isHat) :
    later.EndsSlot frame last := by
  obtain ⟨howner_lt, ⟨owner, first, howner, hfirst, hleads⟩, block, hblock, hparent, hblockNext, hhat⟩ := h
  refine ⟨howner_lt, ⟨owner, first, hkeeps _ owner hne howner, hfirst, hleads.mono hnext⟩, ?_⟩
  by_cases hplace : last = place
  · obtain ⟨changed, hchanged, hsameParent, hsameNext, hsameHat⟩ := hlast block hplace hblock
    exact ⟨changed, hchanged, hsameParent.trans hparent, hsameNext.trans hblockNext, hsameHat.trans hhat⟩
  · exact ⟨block, hkeeps _ block hplace hblock, hparent, hblockNext, hhat⟩

theorem Opens.fill {owner : Block} {target : Nat} (h : graph.Opens frame)
    (howner : graph.block? frame.owner = some owner)
    (hchanged : later.block? frame.owner = some (owner.setInput frame.slot.name (.block target))) :
    later.Opens { frame with isEmpty := false } := by
  obtain ⟨old, hold, hopensBody, hnext, hslot, -, hotherwise⟩ := h
  obtain rfl : owner = old := by simpa [howner] using hold
  refine ⟨_, hchanged, hopensBody, hnext, hslot, ?_, ?_⟩
  · have hinput := lookup_setEntry_self frame.slot.name (.block target) owner.inputs
    simp [Block.input?, Block.setInput, hinput]
  · intro hbody
    have hname : Slot.elseBranch.name ≠ frame.slot.name := by
      rw [show frame.slot = .body from hbody]
      decide
    exact (lookup_setEntry_of_ne hname _ _).trans (hotherwise hbody)

theorem Opens.owner_lt_size (h : graph.Opens frame) : frame.owner < graph.size := by
  obtain ⟨owner, howner, -⟩ := h
  exact lt_size_of_block? howner

theorem owner_lt_of_contained {inner : Frame} {frames : List Frame}
    (h : (inner :: frames).IsChain fun inner outer => graph.EndsSlot outer inner.owner) :
    ∀ outer ∈ frames, outer.owner < inner.owner := by
  have howners : ((inner :: frames).map Frame.owner).Pairwise (· > ·) := by
    rw [← List.isChain_iff_pairwise, List.isChain_map]
    exact h.imp fun _ _ hends => hends.owner_lt
  intro outer houter
  exact List.rel_of_pairwise_cons howners (List.mem_map_of_mem houter)

/-- The frames around the innermost one stay what they are if the block that changes is not one of their owners, and
the owner of the innermost one keeps its links if it changes. -/
theorem contained_mono {frames : List Frame}
    (h : (frame :: frames).IsChain fun inner outer => graph.EndsSlot outer inner.owner)
    (hkeeps : graph.KeepsBut later place) (hnext : graph.KeepsNext later) (hle : frame.owner ≤ place)
    (hlast : ∀ block, frame.owner = place → graph.block? frame.owner = some block →
      ∃ changed, later.block? frame.owner = some changed ∧ changed.parent = block.parent ∧
        changed.next = block.next ∧ changed.opcode.isHat = block.opcode.isHat) :
    (frame :: frames).IsChain fun inner outer => later.EndsSlot outer inner.owner := by
  induction frames generalizing frame with
  | nil => exact List.isChain_singleton _
  | cons outer frames ih =>
    obtain ⟨hends, hrest⟩ := List.isChain_cons_cons.1 h
    have houter := hends.owner_lt
    refine List.isChain_cons_cons.2 ⟨hends.mono hkeeps hnext (by omega) hlast, ih hrest (by omega) ?_⟩
    intro block hplace
    omega

end Graph

/-! ## Where the next statement goes -/

namespace Assembly

variable {layout : Layout} {assembly : Assembly}

/-- The four situations in which a statement is added: the innermost frame is empty, it is not, no frame is open, or
there is nothing at all. -/
theorem Nested.place_cases (h : assembly.Nested) :
    (∃ frame outer, assembly.frames = frame :: outer ∧ frame.isEmpty = true ∧
        assembly.place = .slot frame.owner frame.slot) ∨
      (∃ frame outer previous, assembly.frames = frame :: outer ∧ frame.isEmpty = false ∧
        assembly.graph.EndsSlot frame previous ∧ assembly.place = .after previous) ∨
      (∃ previous, assembly.frames = [] ∧ assembly.place = .after previous) ∨
      (assembly.frames = [] ∧ assembly.place = .canvas) := by
  cases hframes : assembly.frames with
  | nil =>
    cases hlast : assembly.last with
    | none => exact .inr (.inr (.inr ⟨rfl, by simp [place, hframes, hlast]⟩))
    | some previous => exact .inr (.inr (.inl ⟨previous, rfl, by simp [place, hframes, hlast]⟩))
  | cons frame outer =>
    cases hempty : frame.isEmpty with
    | true =>
      refine .inl ⟨frame, outer, rfl, hempty, ?_⟩
      cases hlast : assembly.last with
      | none => simp [place, hframes, hlast]
      | some previous => simp [place, hframes, hlast, hempty]
    | false =>
      obtain ⟨previous, hlast, hends⟩ := h.last_of_filled frame outer hframes hempty
      exact .inr (.inl ⟨frame, outer, previous, rfl, hempty, hends, by simp [place, hframes, hlast, hempty]⟩)

/-! ## One line -/

theorem nested_empty : ({} : Assembly).Nested :=
  ⟨by simp, .nil, by simp, fun _ => .inl rfl, by simp [place]⟩

theorem Nested.close (h : assembly.Nested) (number : Nat) : (assembly.close number).Nested := by
  cases hframes : assembly.frames with
  | nil =>
    have hclose : assembly.close number = assembly.warn (.strayClose number) := by simp [Assembly.close, hframes]
    rw [hclose]
    exact ⟨h.opens, h.contained, h.last_of_filled, h.last_eq_none, h.next_of_after⟩
  | cons frame outer =>
    have hclose : assembly.close number = { assembly with frames := outer, last := some frame.owner } := by
      simp [Assembly.close, hframes]
    have hcontained := h.contained
    rw [hframes] at hcontained
    rw [hclose]
    refine ⟨?_, hcontained.tail, ?_, by simp, ?_⟩
    · intro other hother
      exact h.opens other (by simp [hframes, hother])
    · intro around rest hrest _
      obtain rfl : outer = around :: rest := hrest
      exact ⟨frame.owner, rfl, (List.isChain_cons_cons.1 hcontained).1⟩
    · intro previous hprevious
      obtain rfl : frame.owner = previous := by
        cases outer with
        | nil => simpa [place] using hprevious
        | cons around rest =>
          cases hempty : around.isEmpty with
          | true => simp [place, hempty] at hprevious
          | false => simpa [place, hempty] using hprevious
      obtain ⟨owner, howner, -, hnext, -⟩ := h.opens frame (by simp [hframes])
      exact ⟨owner, howner, hnext⟩

theorem Nested.enterElse (h : assembly.Nested) (number : Nat) : (assembly.enterElse number).Nested := by
  cases hframes : assembly.frames with
  | nil =>
    have henter : assembly.enterElse number = assembly.warn (.strayElse number) := by
      simp [Assembly.enterElse, hframes]
    rw [henter]
    exact ⟨h.opens, h.contained, h.last_of_filled, h.last_eq_none, h.next_of_after⟩
  | cons frame outer =>
    obtain ⟨owner, howner, -, hnext, -, -, hotherwise⟩ := h.opens frame (by simp [hframes])
    by_cases htakes : (owner.opcode.acceptsElse && frame.slot == .body) = true
    · have henter : assembly.enterElse number =
          { assembly with
            graph := assembly.graph.modify frame.owner fun block => { block with opcode := .ifElse }
            frames := { frame with slot := .elseBranch, isEmpty := true } :: outer
            last := none } := by
        simp [Assembly.enterElse, hframes, howner, htakes]
      simp only [Bool.and_eq_true, beq_iff_eq] at htakes
      obtain ⟨haccepts, hslot⟩ := htakes
      have hchanged := Graph.block?_modify_self howner fun block => { block with opcode := .ifElse }
      have hkeeps := assembly.graph.keepsBut_modify frame.owner fun block => { block with opcode := .ifElse }
      have hkeepsNext := hkeeps.keepsNext howner hnext
      have hhat : owner.opcode.isHat = false :=
        Opcode.isHat_of_opensBody (Opcode.opensBody_of_acceptsElse haccepts)
      have hcontained := h.contained
      rw [hframes] at hcontained
      have howners := Graph.owner_lt_of_contained hcontained
      have hstays := Graph.contained_mono hcontained hkeeps hkeepsNext (Nat.le_refl _) (by
        intro block _ hblock
        obtain rfl : owner = block := by simpa [howner] using hblock
        exact ⟨_, hchanged, rfl, rfl, hhat.symm⟩)
      rw [henter]
      refine ⟨?_, ?_, ?_, fun _ => .inr ⟨_, outer, rfl, rfl, rfl⟩, ?_⟩
      · intro other hother
        rcases List.mem_cons.1 hother with rfl | hother
        · exact ⟨_, hchanged, rfl, hnext, by simp, ⟨fun _ => hotherwise hslot, fun _ => rfl⟩, by simp⟩
        · exact (h.opens other (by simp [hframes, hother])).mono hkeeps (Nat.ne_of_lt (howners other hother))
      · exact List.isChain_cons.2 (List.isChain_cons.1 hstays)
      · intro other rest heq hempty
        obtain ⟨rfl, rfl⟩ := List.cons.inj heq
        simp at hempty
      · intro previous hprevious
        simp [place] at hprevious
    · have henter : assembly.enterElse number = assembly.warn (.refusedElse number owner.opcode) := by
        simp [Assembly.enterElse, hframes, howner, htakes]
      rw [henter]
      exact ⟨h.opens, h.contained, h.last_of_filled, h.last_eq_none, h.next_of_after⟩

/-! ## A block more -/

section

variable {frame : Frame} {outer : List Frame} {block : Block} {blocks : List Block}

theorem block?_joined_append :
    (assembly.joined.append (block :: blocks)).block? assembly.graph.size = some block := by
  rw [← size_joined]
  exact Graph.block?_append_size _ _ _

theorem Nested.of_endsSlot (hframes : assembly.frames = frame :: outer)
    (hopens : ∀ other ∈ { frame with isEmpty := false } :: outer,
      (assembly.joined.append (block :: blocks)).Opens other)
    (hcontained : (frame :: outer).IsChain fun inner outer =>
      (assembly.joined.append (block :: blocks)).EndsSlot outer inner.owner)
    (hends : (assembly.joined.append (block :: blocks)).EndsSlot frame assembly.graph.size) :
    (assembly.grown layout (block :: blocks) (some assembly.graph.size)).Nested := by
  have hfilled : (assembly.grown layout (block :: blocks) (some assembly.graph.size)).frames =
      { frame with isEmpty := false } :: outer := by
    simp [grown, hframes, fillSlot]
  refine ⟨?_, ?_, ?_, by simp [grown], ?_⟩
  · rw [hfilled]
    exact hopens
  · rw [hfilled]
    exact List.isChain_cons.2 (List.isChain_cons.1 hcontained)
  · intro other rest heq _
    obtain ⟨rfl, rfl⟩ := List.cons.inj (hfilled.symm.trans heq)
    exact ⟨assembly.graph.size, rfl, hends.owner_lt, hends.leads, hends.exists_last⟩
  · intro previous hprevious
    obtain rfl : assembly.graph.size = previous := by simpa [place_grown] using hprevious
    obtain ⟨last, hlast, -, hnext, -⟩ := hends.exists_last
    exact ⟨last, hlast, hnext⟩

/-- The slot of the innermost frame is filled for the first time. The block that changes is the owner of the frame. -/
theorem Nested.grown_slot (h : assembly.Nested) (hframes : assembly.frames = frame :: outer)
    (hplace : assembly.place = .slot frame.owner frame.slot) (hparent : block.parent = assembly.container)
    (hnext : block.next = none) (hhat : block.opcode.isHat = false) :
    (assembly.grown layout (block :: blocks) (some assembly.graph.size)).Nested := by
  have hcontainer : assembly.container = some frame.owner := by simp [container, hplace]
  have hjoined := joined_of_slot hplace
  have hframe := h.opens frame (by simp [hframes])
  obtain ⟨owner, howner, -, hownerNext, -⟩ := hframe.exists_owner
  have hkeeps : assembly.graph.KeepsBut (assembly.joined.append (block :: blocks)) frame.owner := by
    rw [hjoined]
    exact (Graph.keepsBut_modify _ _ _).append _
  have hchanged : (assembly.joined.append (block :: blocks)).block? frame.owner =
      some (owner.setInput frame.slot.name (.block assembly.graph.size)) := by
    rw [hjoined]
    exact Graph.block?_append_of_some (Graph.block?_modify_self howner _) _
  have hcontained := h.contained
  rw [hframes] at hcontained
  have howners := Graph.owner_lt_of_contained hcontained
  refine Nested.of_endsSlot hframes ?_ ?_ ?_
  · intro other hother
    rcases List.mem_cons.1 hother with rfl | hother
    · exact hframe.fill howner hchanged
    · exact (h.opens other (by simp [hframes, hother])).mono hkeeps (Nat.ne_of_lt (howners other hother))
  · refine Graph.contained_mono hcontained hkeeps (hkeeps.keepsNext howner hownerNext) (Nat.le_refl _) ?_
    intro old _ hold
    obtain rfl : owner = old := by simpa [howner] using hold
    exact ⟨_, hchanged, rfl, rfl, rfl⟩
  · have hinput := lookup_setEntry_self frame.slot.name (.block assembly.graph.size) owner.inputs
    exact ⟨hframe.owner_lt_size, ⟨_, assembly.graph.size, hchanged, hinput, .refl⟩,
      block, block?_joined_append, hparent.trans hcontainer, hnext, hhat⟩

/-- The chain in the innermost frame goes on after its last block, which is the one that changes. -/
theorem Nested.grown_after {previous : Nat} (h : assembly.Nested) (hframes : assembly.frames = frame :: outer)
    (hempty : frame.isEmpty = false) (hends : assembly.graph.EndsSlot frame previous)
    (hplace : assembly.place = .after previous) (hparent : block.parent = assembly.container)
    (hnext : block.next = none) (hhat : block.opcode.isHat = false) :
    (assembly.grown layout (block :: blocks) (some assembly.graph.size)).Nested := by
  have hjoined := joined_of_after hplace
  obtain ⟨hlt, ⟨owner, first, howner, hfirst, hleads⟩, old, hold, holdParent, holdNext, holdHat⟩ := hends
  have hcontainer : assembly.container = some frame.owner := by
    simp [container, hplace, hold, Graph.containerAfter, holdHat, holdParent]
  have hkeeps : assembly.graph.KeepsBut (assembly.joined.append (block :: blocks)) previous := by
    rw [hjoined]
    exact (Graph.keepsBut_modify _ _ _).append _
  have hkeepsNext := hkeeps.keepsNext hold holdNext
  have hchanged : (assembly.joined.append (block :: blocks)).next? previous = some assembly.graph.size := by
    rw [hjoined, Graph.next?, Graph.block?_append_of_some (Graph.block?_modify_self hold _) _]
    rfl
  have hcontained := h.contained
  rw [hframes] at hcontained
  have howners := Graph.owner_lt_of_contained hcontained
  -- the owners of all frames come before the block that changes, so the frames stay as they are
  have hsame : { frame with isEmpty := false } = frame := by rw [← hempty]
  refine Nested.of_endsSlot hframes ?_ ?_ ?_
  · rw [hsame, ← hframes]
    intro other hother
    have hle : other.owner ≤ frame.owner := by
      rw [hframes] at hother
      rcases List.mem_cons.1 hother with rfl | hother
      · exact Nat.le_refl _
      · exact Nat.le_of_lt (howners other hother)
    exact (h.opens other hother).mono hkeeps (by omega)
  · refine Graph.contained_mono hcontained hkeeps hkeepsNext (Nat.le_of_lt hlt) ?_
    intro _ heq
    omega
  · have hownerKept := hkeeps frame.owner owner (Nat.ne_of_lt hlt) howner
    exact ⟨(h.opens frame (by simp [hframes])).owner_lt_size,
      ⟨owner, first, hownerKept, hfirst, (hleads.mono hkeepsNext).tail hchanged⟩,
      block, block?_joined_append, hparent.trans hcontainer, hnext, hhat⟩

/-- Adding blocks where the next statement goes. The first of them must be linked to its container, have nothing after
it and be no hat. -/
theorem Nested.grown (layout : Layout) (h : assembly.Nested) (blocks : List Block)
    (hparent : block.parent = assembly.container) (hnext : block.next = none) (hhat : block.opcode.isHat = false) :
    (assembly.grown layout (block :: blocks) (some assembly.graph.size)).Nested := by
  rcases h.place_cases with ⟨frame, outer, hframes, hempty, hplace⟩ |
    ⟨frame, outer, previous, hframes, hempty, hends, hplace⟩ | ⟨previous, hframes, hplace⟩ | ⟨hframes, hplace⟩
  · exact h.grown_slot hframes hplace hparent hnext hhat
  · exact h.grown_after hframes hempty hends hplace hparent hnext hhat
  all_goals
    -- with no frame open, only the block that has just been added is looked at
    refine ⟨by simp [Assembly.grown, hframes, fillSlot], by simp [Assembly.grown, hframes, fillSlot],
      by simp [Assembly.grown, hframes, fillSlot], by simp [Assembly.grown], ?_⟩
    intro other hother
    obtain rfl : assembly.graph.size = other := by simpa [place_grown] using hother
    exact ⟨block, block?_joined_append, hnext⟩

end

theorem Nested.openBody {here : Nat} (h : assembly.Nested) (hlast : assembly.last = some here)
    (hfilled : ∀ frame outer, assembly.frames = frame :: outer → frame.isEmpty = false)
    (hopens : assembly.graph.Opens ⟨here, .body, true⟩) : (assembly.openBody here).Nested := by
  refine ⟨?_, ?_, ?_, by simp [Assembly.openBody, hlast], by simp [Assembly.openBody, place, hlast]⟩
  · intro frame hframe
    rcases List.mem_cons.1 hframe with rfl | hframe
    · exact hopens
    · exact h.opens frame hframe
  · refine List.isChain_cons.2 ⟨?_, h.contained⟩
    intro frame hframe
    obtain ⟨outer, hframes⟩ := List.head?_eq_some_iff.1 hframe
    obtain ⟨last, heq, hends⟩ := h.last_of_filled frame outer hframes (hfilled frame outer hframes)
    obtain rfl : here = last := by simpa [hlast] using heq
    exact hends
  · intro frame outer heq hempty
    obtain ⟨rfl, rfl⟩ := List.cons.inj heq
    simp at hempty

theorem Nested.addStatement (layout : Layout) (h : assembly.Nested) {statement : Statement}
    (hregular : statement.Regular) (hhat : statement.opcode.isHat = false) :
    (assembly.addStatement layout statement).Nested := by
  have hgrown := h.grown layout (statement.conditionBlocks assembly.graph.size)
    (Statement.block_parent (assembly.spot layout) assembly.container assembly.graph.size statement)
    (Statement.block_next ..) (by simpa using hhat)
  rw [addStatement_eq]
  cases hbody : statement.opcode.opensBody with
  | false => exact hgrown
  | true =>
    refine hgrown.openBody rfl ?_ ?_
    · intro frame outer hframes
      cases hold : assembly.frames with
      | nil => simp [Assembly.grown, hold, fillSlot] at hframes
      | cons first rest =>
        simp only [Assembly.grown, hold, fillSlot, List.cons.injEq] at hframes
        rw [← hframes.1]
    · have hnew := Graph.block?_append_size assembly.joined
        (statement.block (assembly.spot layout) assembly.container assembly.graph.size)
        (statement.conditionBlocks assembly.graph.size)
      rw [size_joined] at hnew
      have hslots : ∀ slot : Slot, (statement.block (assembly.spot layout) assembly.container
          assembly.graph.size).input? slot.name = none := by
        intro slot
        refine Statement.input?_block_eq_none hregular _ _ _ ?_ ?_
        · cases slot <;> decide
        · cases slot <;> decide
      refine ⟨_, hnew, by simpa using hbody, by simp, ?_, ?_, fun _ => hslots .elseBranch⟩
      · simpa using hregular.opcode_ne
      · simpa using hslots .body

theorem nested_startScript (layout : Layout) (assembly : Assembly) (statement : Statement) :
    (assembly.startScript layout statement).Nested := by
  refine ⟨by simp [startScript, addTopLevel], .nil, by simp [startScript, addTopLevel],
    by simp [startScript, addTopLevel], ?_⟩
  intro previous hprevious
  obtain rfl : assembly.graph.size = previous := by
    simpa [startScript, addTopLevel, place] using hprevious
  simp only [startScript, addTopLevel, Graph.push_eq_append]
  exact ⟨_, Graph.block?_append_size _ _ _, rfl⟩

theorem Nested.feed (layout : Layout) (h : assembly.Nested) (line : SourceLine) :
    (assembly.feed layout line).Nested := by
  unfold Assembly.feed
  cases hreading : line.reading with
  | blank => exact h
  | unknown => exact ⟨h.opens, h.contained, h.last_of_filled, h.last_eq_none, h.next_of_after⟩
  | marker marker =>
    cases marker with
    | close => exact h.close line.number
    | otherwise => exact h.enterElse line.number
  | statement statement =>
    have hregular := Statement.regular_of_ofLine? (reading_eq_statement_iff.1 hreading)
    cases hhat : statement.opcode.isHat with
    | true =>
      simp only [hhat, if_true]
      exact nested_startScript layout assembly statement
    | false =>
      simp only [hhat, Bool.false_eq_true, if_false]
      exact h.addStatement layout hregular hhat

theorem Nested.feedAll (layout : Layout) (lines : List SourceLine) (h : assembly.Nested) :
    (feedAll layout assembly lines).Nested := by
  induction lines generalizing assembly with
  | nil => exact h
  | cons line lines ih => exact ih (h.feed layout line)

/-- Whatever lines have been fed, the open blocks contain each other, each made after the one around it, and the chain
goes on at the end of the innermost one. -/
theorem ofLines_nested (layout : Layout) (lines : List SourceLine) :
    (ofLines layout lines).Nested ∧ ((ofLines layout lines).frames.map Frame.owner).Pairwise (· > ·) := by
  have hnested : (ofLines layout lines).Nested := nested_empty.feedAll layout lines
  refine ⟨hnested, ?_⟩
  rw [← List.isChain_iff_pairwise, List.isChain_map]
  exact hnested.contained.imp fun _ _ hends => hends.owner_lt

end Assembly

end ScratchScript
