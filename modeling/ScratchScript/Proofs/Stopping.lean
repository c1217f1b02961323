import ScratchScript.Proofs.Growth
import ScratchScript.Proofs.Integrity

/-!
# What follows a stop block

A stop block stores whether a block can follow it. That is decided by the entry of its menu alone, while the block that
does follow is whatever the next line says. `stops_agree_iff` says for which sources the two agree: those in which no
line that ends a script has a statement as the next line that does anything.

* Which lines do anything can be told from the lines (`working`): blank and unknown lines and markers that fit nothing
  do not.
* `Assembly.AfterStop` says that the next statement would follow a stop block that ends its script. A line that does
  something makes this so exactly if it is such a stop itself, and a statement fed in that situation is what breaks the
  agreement (`Nested.feed_stopsLast`). Nothing mends it again, since no link is ever taken back.
-/

namespace ScratchScript

/-! ## Stops that end a script -/

/-- The entries of the stop menu after which a script goes on, as they are stored. -/
def lastingStops : List String :=
  ["other scripts in sprite", "other scripts in stage"]

/-- Whether a script ends with the statement: it stops something, and not only other scripts. -/
def Statement.isFinal (statement : Statement) : Bool :=
  statement.opcode == .stop && !((statement.field? "STOP_OPTION").any fun field => lastingStops.contains field.display)

namespace SourceLine

/-- Whether a script ends with the line. -/
def isFinal (line : SourceLine) : Bool :=
  match line.reading with
  | .statement statement => statement.isFinal
  | _ => false

/-- Whether the line is a statement that goes on with a script. -/
def continues (line : SourceLine) : Bool :=
  match line.reading with
  | .statement statement => !statement.opcode.isHat
  | _ => false

end SourceLine

/-- The lines that do something, among lines that follow after `opens` has been left open: the statements, and the
markers that fit. -/
def working (opens : List Open) : List SourceLine → List SourceLine
  | [] => []
  | line :: lines =>
    match nesting? opens line with
    | none => working opens lines
    | some inner => if line.isStructural then line :: working inner lines else working inner lines

namespace Block

def stopEntry (block : Block) : String :=
  ((block.field? "STOP_OPTION").map Field.display).getD ""

/-- Whether the block is a stop block that stores that no block can follow. -/
def isFinal (block : Block) : Bool :=
  block.opcode == .stop && !Project.goesOn block.stopEntry

/-- No block follows if the block stores that none can. -/
def StopsLast (block : Block) : Prop :=
  block.isFinal = true → block.next = none

theorem isFinal_of_opcode_ne {block : Block} (h : block.opcode ≠ .stop) : block.isFinal = false := by
  rw [isFinal, beq_eq_false_iff_ne.2 h, Bool.false_and]

theorem isFinal_of_opensBody {block : Block} (h : block.opcode.opensBody = true) : block.isFinal = false := by
  apply isFinal_of_opcode_ne
  intro hstop
  simp [hstop, Opcode.opensBody] at h

theorem stopsLast_of_not_isFinal {block : Block} (h : block.isFinal = false) : block.StopsLast := by
  intro hfinal
  simp [h] at hfinal

end Block

/-- Every stop block that stores that no block can follow has none. -/
def Graph.StopsLast (graph : Graph) : Prop :=
  ∀ block ∈ graph.toList, block.StopsLast

/-! ## Entries of the stop menu -/

namespace Vocabulary

theorem stop_plan : ∀ rule ∈ rules,
    (rule.opcode = .stop → rule.fields = [⟨"STOP_OPTION", .plain, 0, .stopOption⟩]) ∧
      ∀ variant, rule.variant = some variant → variant.2 ≠ .stop := by
  decide +kernel

/-- Entries are stored in one spelling, so that a script goes on after an entry only if it is stored as one of two. -/
theorem goesOn_stopOption (entry : List Char) :
    Project.goesOn (stopOption entry) = lastingStops.contains (stopOption entry) := by
  have hstored : ∀ option ∈ stopOptions, Project.goesOn option.2 = lastingStops.contains option.2 := by
    decide +kernel
  have hspelled : ∀ name ∈ lastingStops, lowered name.toList = name ∧ stopOptions.stored? name ≠ none := by
    decide +kernel
  have hgoes : ∀ text, Project.goesOn text = lastingStops.contains (lowered text.toList) := by
    intro text
    rw [Bool.eq_iff_iff]
    simp [Project.goesOn, lastingStops, lowered]
  unfold stopOption
  cases hfind : stopOptions.stored? (lowered entry) with
  | some name =>
    obtain ⟨option, hoption, rfl⟩ := Option.map_eq_some_iff.1 hfind
    exact hstored option (List.mem_of_find?_eq_some hoption)
  | none =>
    -- both names are on the menu, so the entry is neither of them in any case
    have hlowered : lowered entry ∉ lastingStops := fun hmem => (hspelled _ hmem).2 hfind
    have hentry : String.ofList entry ∉ lastingStops := by
      intro hmem
      have hsame := (hspelled _ hmem).1
      rw [String.toList_ofList] at hsame
      exact hlowered (hsame ▸ hmem)
    rw [Option.getD_none, hgoes, String.toList_ofList]
    simp [hlowered, hentry]

end Vocabulary

namespace Statement

variable {line : List Char} {statement : Statement} (h : Statement.ofLine? line = some statement)
include h

theorem exists_fields_of_stop (hstop : statement.opcode = .stop) :
    ∃ entry, statement.fields = [("STOP_OPTION", .plain (Vocabulary.stopOption entry))] := by
  obtain ⟨rule, hmem, _, lowered, hread⟩ := exists_rule_of_ofLine? h
  obtain ⟨holes, rfl⟩ := Vocabulary.Rule.exists_holes_of_read? hread
  obtain ⟨hplan, hvariant⟩ := Vocabulary.stop_plan rule hmem
  have hopcode : rule.opcode = .stop := by
    change rule.opcodeFor lowered = .stop at hstop
    unfold Vocabulary.Rule.opcodeFor at hstop
    split at hstop
    · rename_i words opcode heq
      split_ifs at hstop
      · exact absurd hstop (hvariant _ heq)
      · exact hstop
    · exact hstop
  simp only [Vocabulary.Rule.statement, hplan hopcode]
  exact ⟨_, rfl⟩

theorem isFinal_of_block {block : Block} (hopcode : block.opcode = statement.opcode)
    (hfields : block.fields = statement.fields) : block.isFinal = statement.isFinal := by
  unfold Block.isFinal isFinal Block.stopEntry Block.field? field?
  rw [hopcode, hfields]
  by_cases hstop : statement.opcode = .stop
  · obtain ⟨entry, hentry⟩ := exists_fields_of_stop h hstop
    simp [hentry, Vocabulary.goesOn_stopOption, Field.plain]
  · rw [beq_eq_false_iff_ne.2 hstop, Bool.false_and, Bool.false_and]

end Statement

/-! ## What is stored of a stop block -/

namespace Project

/-- In a map of blocks, no block follows a stop block that stores that none can. -/
def StopsAgree (members : List (String × Json)) : Prop :=
  ∀ id block, (id, block) ∈ members → block.member? "opcode" = some (.str "control_stop") →
    (block.member? "mutation").bind (fun mutation => mutation.member? "hasnext") = some (.str "false") →
    block.member? "next" = some .null

theorem stopMutation_eq (block : Block) :
    stopMutation block = .object [("tagName", .str "mutation"), ("children", .arr []),
      ("hasnext", .str (if goesOn block.stopEntry then "true" else "false"))] := by
  unfold stopMutation Block.stopEntry
  cases block.field? "STOP_OPTION" <;> rfl

theorem member?_hasnext {block : Block} (h : block.opcode = .stop) (ids : Nat → String) :
    ((blockValue ids block).member? "mutation").bind (fun mutation => mutation.member? "hasnext") =
      some (.str (if block.isFinal then "false" else "true")) := by
  have hmutation : (blockValue ids block).member? "mutation" = some (stopMutation block) := by
    rw [blockValue, Json.member?_object, List.reverse_append, List.lookup_append, mutationMembers, h]
    rfl
  have hfinal : block.isFinal = !goesOn block.stopEntry := by
    rw [Block.isFinal, h]
    rfl
  rw [hmutation, Option.bind_some, stopMutation_eq, Json.member?_object, hfinal]
  cases goesOn block.stopEntry <;> rfl

theorem stopsAgree_iff {graph : Graph} (h : graph.Storable) :
    StopsAgree (Json.putAll [] (blockMembers graph)) ↔ graph.StopsLast := by
  have hmem : ∀ entry, entry ∈ Json.putAll [] (blockMembers graph) ↔
      ∃ block ∈ graph.toList, (block.id, blockValue graph.idAt block) = entry := by
    intro entry
    rw [(perm_blockMembers h.nodup_ids).mem_iff]
    exact List.mem_map
  have hnext : ∀ block, (blockValue graph.idAt block).member? "next" = some .null ↔ block.next = none := by
    intro block
    rw [(describes_blockValue graph.idAt block).next]
    cases block.next <;> simp [linkValue]
  constructor
  · intro hagree block hblock hfinal
    have hstop : block.opcode = .stop := beq_iff_eq.1 (Bool.and_eq_true_iff.1 hfinal).1
    refine (hnext block).1 (hagree _ _ ((hmem _).2 ⟨block, hblock, rfl⟩) ?_ ?_)
    · rw [(describes_blockValue graph.idAt block).opcode, hstop]
      rfl
    · rw [member?_hasnext hstop, hfinal]
      rfl
  · rintro hlast id value hvalue hopcode hhasnext
    obtain ⟨block, hblock, heq⟩ := (hmem _).1 hvalue
    obtain ⟨-, rfl⟩ := Prod.mk.inj heq
    have hstop : block.opcode = .stop := by
      rw [(describes_blockValue graph.idAt block).opcode, Option.some.injEq, Json.str.injEq] at hopcode
      exact Opcode.name_injective hopcode
    refine (hnext block).2 (hlast block hblock ?_)
    rw [member?_hasnext hstop] at hhasnext
    cases hfinal : block.isFinal with
    | true => rfl
    | false => simp [hfinal] at hhasnext

end Project

/-! ## Changing a graph -/

namespace Graph

variable {graph : Graph}

theorem stopsLast_iff : graph.StopsLast ↔ ∀ index block, graph.block? index = some block → block.StopsLast := by
  constructor
  · exact fun h index block hblock => h block (mem_toList_of_block? hblock)
  · intro h block hmem
    obtain ⟨index, hindex⟩ := List.mem_iff_getElem?.1 hmem
    exact h index block (by rw [block?_eq_getElem?, hindex])

theorem stopsLast_append {blocks : List Block} :
    (graph.append blocks).StopsLast ↔ graph.StopsLast ∧ ∀ block ∈ blocks, block.StopsLast := by
  rw [StopsLast, toList_append, List.forall_mem_append]
  rfl

theorem stopsLast_modify {place : Nat} {block : Block} {change : Block → Block}
    (hblock : graph.block? place = some block) (hchange : (change block).StopsLast → block.StopsLast) :
    (graph.modify place change).StopsLast ↔ graph.StopsLast ∧ (change block).StopsLast := by
  rw [stopsLast_iff, stopsLast_iff]
  constructor
  · intro h
    have hchanged := h place _ (block?_modify_self hblock change)
    refine ⟨fun index other hother => ?_, hchanged⟩
    by_cases hplace : index = place
    · subst hplace
      obtain rfl := Option.some.inj (hblock.symm.trans hother)
      exact hchange hchanged
    · exact h index other (by rw [block?_modify_of_ne graph hplace, hother])
  · rintro ⟨h, hchanged⟩ index other hother
    by_cases hplace : index = place
    · subst hplace
      obtain rfl := Option.some.inj ((block?_modify_self hblock change).symm.trans hother)
      exact hchanged
    · rw [block?_modify_of_ne graph hplace] at hother
      exact h index other hother

theorem stopsLast_modify_of_not_isFinal {place : Nat} {block : Block} {change : Block → Block}
    (hblock : graph.block? place = some block) (hold : block.isFinal = false)
    (hnew : (change block).isFinal = false) : (graph.modify place change).StopsLast ↔ graph.StopsLast := by
  rw [stopsLast_modify hblock fun _ => Block.stopsLast_of_not_isFinal hold]
  exact and_iff_left (Block.stopsLast_of_not_isFinal hnew)

theorem stopsLast_relabel (label : Nat → String) : (graph.relabel label).StopsLast ↔ graph.StopsLast := by
  rw [stopsLast_iff, stopsLast_iff]
  refine forall_congr' fun index => ?_
  rw [block?_relabel]
  cases graph.block? index with
  | none => simp
  | some block =>
    simp only [Option.map_some, Option.some.injEq, forall_eq']
    exact Iff.rfl

end Graph

/-! ## One line -/

theorem Frame.Tracks.exists_owner {graph : Graph} {block : Open} {frame : Frame} (h : frame.Tracks graph block) :
    ∃ owner, graph.block? frame.owner = some owner ∧
      (owner.opcode.acceptsElse && frame.slot == .body) = block.takesElse := by
  obtain ⟨owner, howner, haccepts⟩ := Option.map_eq_some_iff.1 h.accepts
  refine ⟨owner, howner, ?_⟩
  rw [haccepts, h.slot, Open.takesElse]
  cases block.branched <;> rfl

namespace Assembly

variable {layout : Layout} {assembly : Assembly}

/-- The next statement would follow a stop block that ends its script. -/
def AfterStop (assembly : Assembly) : Prop :=
  ∃ index block, assembly.place = .after index ∧ assembly.graph.block? index = some block ∧ block.isFinal = true

theorem afterStop_iff {index : Nat} {block : Block} (hplace : assembly.place = .after index)
    (hblock : assembly.graph.block? index = some block) : assembly.AfterStop ↔ block.isFinal = true := by
  constructor
  · rintro ⟨other, found, hother, hfound, hfinal⟩
    obtain rfl := Place.after.inj (hplace.symm.trans hother)
    obtain rfl := Option.some.inj (hblock.symm.trans hfound)
    exact hfinal
  · exact fun hfinal => ⟨index, block, hplace, hblock, hfinal⟩

theorem not_afterStop_of_slot {owner : Nat} {slot : Slot} (h : assembly.place = .slot owner slot) :
    ¬ assembly.AfterStop := by
  rintro ⟨index, -, hplace, -⟩
  simp [h] at hplace

/-- The link to the next statement breaks the agreement exactly if it comes from a stop block that ends its script. -/
theorem Nested.stopsLast_joined (h : assembly.Nested) :
    assembly.joined.StopsLast ↔ assembly.graph.StopsLast ∧ ¬ assembly.AfterStop := by
  have hafter : ∀ previous, assembly.place = .after previous →
      (assembly.joined.StopsLast ↔ assembly.graph.StopsLast ∧ ¬ assembly.AfterStop) := by
    intro previous hplace
    obtain ⟨block, hblock, hnext⟩ := h.next_of_after previous hplace
    rw [joined_of_after hplace, Graph.stopsLast_modify hblock fun _ _ => hnext, afterStop_iff hplace hblock]
    simp [Block.StopsLast, Block.isFinal, Block.stopEntry, Block.field?]
  rcases h.place_cases with ⟨frame, outer, hframes, -, hplace⟩ | ⟨_, _, previous, _, _, _, hplace⟩ |
    ⟨previous, _, hplace⟩ | ⟨_, hplace⟩
  · obtain ⟨owner, howner, hopens, -⟩ := h.opens frame (by simp [hframes])
    rw [joined_of_slot hplace, Graph.stopsLast_modify_of_not_isFinal howner (Block.isFinal_of_opensBody hopens)
      (Block.isFinal_of_opensBody hopens)]
    exact (and_iff_left (not_afterStop_of_slot hplace)).symm
  · exact hafter previous hplace
  · exact hafter previous hplace
  · have hjoined : assembly.joined = assembly.graph := by simp [joined, hplace]
    have hnot : ¬ assembly.AfterStop := by
      rintro ⟨index, -, hafter, -⟩
      simp [hplace] at hafter
    rw [hjoined]
    exact (and_iff_left hnot).symm

theorem Nested.not_afterStop_close {frame : Frame} {outer : List Frame} (h : assembly.Nested)
    (hframes : assembly.frames = frame :: outer) (number : Nat) : ¬ (assembly.close number).AfterStop := by
  rintro ⟨index, block, hplace, hblock, hfinal⟩
  obtain ⟨owner, howner, hopens, -⟩ := h.opens frame (by simp [hframes])
  simp only [Assembly.close, hframes] at hplace hblock
  obtain rfl : frame.owner = index := by
    cases outer with
    | nil => simpa [place] using hplace
    | cons around rest => cases hempty : around.isEmpty <;> simp [place, hempty] at hplace; exact hplace
  obtain rfl := Option.some.inj (howner.symm.trans hblock)
  simp [Block.isFinal_of_opensBody hopens] at hfinal

theorem stopsLast_enterElse {frame : Frame} {outer : List Frame} {owner : Block}
    (hframes : assembly.frames = frame :: outer) (howner : assembly.graph.block? frame.owner = some owner)
    (htakes : (owner.opcode.acceptsElse && frame.slot == .body) = true) (number : Nat) :
    ((assembly.enterElse number).graph.StopsLast ↔ assembly.graph.StopsLast) ∧
      ¬ (assembly.enterElse number).AfterStop := by
  have hopens := Opcode.opensBody_of_acceptsElse (Bool.and_eq_true_iff.1 htakes).1
  simp only [Assembly.enterElse, hframes, howner, htakes, if_true]
  exact ⟨Graph.stopsLast_modify_of_not_isFinal howner (Block.isFinal_of_opensBody hopens) rfl,
    not_afterStop_of_slot rfl⟩

/-- The new blocks of a statement have nothing after them. The old ones get one link. -/
theorem Nested.stopsLast_addStatement (layout : Layout) (h : assembly.Nested) (statement : Statement) :
    (assembly.addStatement layout statement).graph.StopsLast ↔
      assembly.graph.StopsLast ∧ ¬ assembly.AfterStop := by
  rw [graph_addStatement, Graph.stopsLast_append, h.stopsLast_joined]
  refine and_iff_left ?_
  intro block hblock
  rcases List.mem_cons.1 hblock with rfl | hcondition
  · exact fun _ => Statement.block_next ..
  · apply Block.stopsLast_of_not_isFinal
    apply Block.isFinal_of_opcode_ne
    intro hstop
    have hpredicate := Condition.isPredicate_of_mem_blocks hcondition
    simp [hstop, Opcode.isPredicate] at hpredicate

theorem afterStop_addStatement (layout : Layout) (assembly : Assembly) {line : List Char} {statement : Statement}
    (hline : Statement.ofLine? line = some statement) :
    (assembly.addStatement layout statement).AfterStop ↔ statement.isFinal = true := by
  cases hbody : statement.opcode.opensBody with
  | false =>
    rw [addStatement_simple hbody, afterStop_iff (place_grown _ _) block?_joined_append,
      Statement.isFinal_of_block hline (Statement.block_opcode ..) (Statement.block_fields ..)]
  | true =>
    have hstop : statement.opcode ≠ .stop := by
      intro hstop
      simp [hstop, Opcode.opensBody] at hbody
    rw [addStatement_header hbody]
    exact iff_of_false (not_afterStop_of_slot (place_opened _ _ _ _)) (by simp [Statement.isFinal, hstop])

theorem stopsLast_startScript (layout : Layout) (assembly : Assembly) (statement : Statement) :
    (assembly.startScript layout statement).graph.StopsLast ↔ assembly.graph.StopsLast := by
  simp only [startScript, addTopLevel, Graph.push_eq_append]
  rw [Graph.stopsLast_append]
  refine and_iff_left ?_
  intro block hblock _
  rw [List.mem_singleton.1 hblock]
  rfl

theorem afterStop_startScript (layout : Layout) (assembly : Assembly) {line : List Char} {statement : Statement}
    (hline : Statement.ofLine? line = some statement) :
    (assembly.startScript layout statement).AfterStop ↔ statement.isFinal = true := by
  have hblock : (assembly.startScript layout statement).graph.block? assembly.graph.size =
      some { assembly.newBlock statement with
        topLevel := true
        position := some (layout.position assembly.scripts) } := by
    simp only [startScript, addTopLevel, Graph.push_eq_append]
    exact Graph.block?_append_size _ _ _
  rw [afterStop_iff (by simp [startScript, addTopLevel, place]) hblock,
    Statement.isFinal_of_block hline rfl rfl]

variable {opens inner : List Open} {line : SourceLine}

/-- What a line that does something makes of the agreement. A statement that goes on with a script breaks it where a
stop block has ended the script, and afterwards the script has ended exactly if the line is such a stop. -/
theorem Nested.feed_stopsLast (layout : Layout) (h : assembly.Nested) (htracks : Tracks opens assembly)
    (hfits : nesting? opens line = some inner) (hworks : line.isStructural = true) :
    ((assembly.feed layout line).graph.StopsLast ↔
        assembly.graph.StopsLast ∧ (line.continues = true → ¬ assembly.AfterStop)) ∧
      ((assembly.feed layout line).AfterStop ↔ line.isFinal = true) := by
  unfold nesting? at hfits
  unfold SourceLine.isStructural at hworks
  unfold Assembly.feed SourceLine.continues SourceLine.isFinal
  cases hreading : line.reading with
  | blank => simp [hreading] at hworks
  | unknown => simp [hreading] at hworks
  | marker marker =>
    cases opens with
    | nil => cases marker <;> simp [hreading] at hfits
    | cons block outer =>
      obtain ⟨frame, frames, hframe, -, hframes⟩ := List.forall₂_cons_left_iff.1 htracks
      cases marker with
      | close => simp [graph_close, h.not_afterStop_close hframes]
      | otherwise =>
        obtain ⟨owner, howner, htakes⟩ := hframe.exists_owner
        have hblock : block.takesElse = true := by
          by_contra hnot
          simp [hreading, hnot] at hfits
        obtain ⟨hsame, hnot⟩ := stopsLast_enterElse hframes howner (htakes.trans hblock) line.number
        simp [hsame, hnot]
  | statement statement =>
    have hline := reading_eq_statement_iff.1 hreading
    cases hhat : statement.opcode.isHat with
    | true => simp [hhat, stopsLast_startScript, afterStop_startScript layout assembly hline]
    | false => simp [hhat, h.stopsLast_addStatement, afterStop_addStatement layout assembly hline]

/-! ## All lines -/

theorem Nested.feedAll_stopsLast (layout : Layout) (lines : List SourceLine) (h : assembly.Nested)
    (htracks : Tracks opens assembly) :
    (assembly.feedAll layout lines).graph.StopsLast ↔
      assembly.graph.StopsLast ∧
        (∀ line ∈ (working opens lines).head?, line.continues = true → ¬ assembly.AfterStop) ∧
        (working opens lines).IsChain fun line next => line.isFinal = true → next.continues = false := by
  induction lines generalizing assembly opens with
  | nil => simp [Assembly.feedAll, working]
  | cons line lines ih =>
    rw [feedAll_cons]
    cases hnesting : nesting? opens line with
    | none =>
      obtain ⟨warning, -, hfeed⟩ := htracks.feed_of_stray layout hnesting
      have hnested := h.feed layout line
      rw [hfeed] at hnested ⊢
      simp only [working, hnesting]
      exact ih hnested htracks
    | some inner =>
      have hnested := h.feed layout line
      cases hworks : line.isStructural with
      | false =>
        obtain ⟨skipped, hfeed⟩ := feed_of_not_structural layout hworks assembly
        obtain rfl := Option.some.inj ((nesting?_of_not_structural hworks opens).1.symm.trans hnesting)
        rw [hfeed] at hnested ⊢
        simp only [working, hnesting, hworks, Bool.false_eq_true, if_false]
        exact ih hnested htracks
      | true =>
        obtain ⟨hlast, hafter⟩ := h.feed_stopsLast layout htracks hnesting hworks
        rw [ih hnested (htracks.feed layout hnesting).1, hlast, hafter]
        have hneighbours : (∀ next ∈ (working inner lines).head?, next.continues = true → ¬ line.isFinal = true) ↔
            ∀ next ∈ (working inner lines).head?, line.isFinal = true → next.continues = false := by
          refine forall₂_congr fun next _ => ?_
          rw [imp_not_comm, Bool.not_eq_true]
        rw [hneighbours]
        simp only [working, hnesting, hworks, if_true, List.isChain_cons, List.head?_cons, Option.mem_some,
          forall_eq', and_assoc]

end Assembly

/-- What is stored of stop blocks agrees with what follows them exactly if no line that ends a script has a statement of
the same script as the next line that does something. -/
theorem stops_agree_iff (layout : Layout) (seed : UInt64) (source : String) :
    ∃ members, Project.blockMap (compile layout seed source).graph = .ok (.obj members) ∧
      (Project.StopsAgree members ↔ (working [] (Source.lines source.toList)).IsChain
        fun line next => line.isFinal = true → next.continues = false) := by
  have hstorable := storable_compile layout seed source
  have hrun := Assembly.nested_empty.feedAll_stopsLast layout (Source.lines source.toList) .nil
  refine ⟨_, Project.blockMap_eq_ok hstorable.resolvesAt, ?_⟩
  rw [Project.stopsAgree_iff hstorable, compile_eq_relabel]
  refine (Graph.stopsLast_relabel _).trans (hrun.trans ?_)
  have hempty : ({} : Assembly).graph.StopsLast := fun block hblock => absurd hblock List.not_mem_nil
  have hcanvas : ¬ ({} : Assembly).AfterStop := by
    rintro ⟨index, -, hplace, -⟩
    simp [Assembly.place] at hplace
  simp [hempty, hcanvas]

/-- The map of blocks stores that nothing can follow the stop block, and stores what follows. -/
theorem stop_all_followed :
    ∃ members, Project.blockMap (compile {} 0 "stop [all v]\nshow").graph = .ok (.obj members) ∧
      ¬ Project.StopsAgree members := by
  have hstorable := storable_compile {} 0 "stop [all v]\nshow"
  refine ⟨_, Project.blockMap_eq_ok hstorable.resolvesAt, ?_⟩
  rw [Project.stopsAgree_iff hstorable, compile_eq_relabel]
  intro hstops
  have hlast := (Graph.stopsLast_relabel _).1 hstops
  have hstop : ((compilePlain {} "stop [all v]\nshow").graph.block? 0).map
      (fun block => (block.isFinal, block.next)) = some (true, some 1) := by
    decide +kernel
  obtain ⟨block, hblock, hpair⟩ := Option.map_eq_some_iff.1 hstop
  obtain ⟨hfinal, hnext⟩ := Prod.mk.inj hpair
  have hnone := Graph.stopsLast_iff.1 hlast 0 block hblock hfinal
  simp [hnext] at hnone

end ScratchScript
