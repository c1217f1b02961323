import ScratchScript.Proofs.Accounting
import ScratchScript.Proofs.Renaming

/-!
# What a block map stores

The map of blocks loses nothing that matters. `Block.Agrees` says what two blocks have in common if they are stored in
the same way: everything but the order in which slots and menus are listed. If the map of two graphs with the same ids
is the same, then the blocks in each place agree (`blockMap_lossless`).

* `Project.Describes` lists what is stored of a block, member by member. The members that only some blocks have, the
  position and the mutation of a stop block, have names of their own.
* Each value that is stored can be told from every other: names of opcodes, codes of literals, texts and links.
* Slots and menus of compiled blocks have different names (`named_compile`), so that none of them hides another.
-/

namespace ScratchScript

/-! ## Values can be told apart -/

theorem Opcode.mem_all (opcode : Opcode) : opcode ∈ all := by
  cases opcode <;> decide

theorem Opcode.nodup_names : (all.map name).Nodup := by
  decide +kernel

theorem Opcode.name_injective : Function.Injective Opcode.name := by
  intro first second h
  exact List.inj_on_of_nodup_map nodup_names (mem_all first) (mem_all second) h

theorem LiteralKind.ofCode?_code (kind : LiteralKind) : ofCode? kind.code = some kind := by
  cases kind <;> rfl

theorem LiteralKind.code_injective : Function.Injective LiteralKind.code := by
  intro first second h
  have hcode := congrArg ofCode? h
  rwa [ofCode?_code, ofCode?_code, Option.some.injEq] at hcode

namespace Project

theorem exists_literalJson_eq (literal : Literal) :
    ∃ more, literalJson literal = .arr [.int 1, .arr (.int literal.kind.code :: .str literal.value :: more)] := by
  obtain ⟨kind, value⟩ := literal
  cases kind <;> exact ⟨_, rfl⟩

theorem literalJson_injective : Function.Injective literalJson := by
  intro first second h
  obtain ⟨more, hfirst⟩ := exists_literalJson_eq first
  obtain ⟨other, hsecond⟩ := exists_literalJson_eq second
  rw [hfirst, hsecond] at h
  simp only [Json.arr.injEq, List.cons.injEq, Json.int.injEq, Json.str.injEq, Int.natCast_inj] at h
  obtain ⟨-, ⟨hcode, hvalue, -⟩, -⟩ := h
  obtain ⟨kind, value⟩ := first
  obtain ⟨otherKind, otherValue⟩ := second
  obtain rfl : kind = otherKind := LiteralKind.code_injective hcode
  obtain rfl : value = otherValue := hvalue
  rfl

theorem ofText?_injective : Function.Injective Json.ofText? := by
  intro first second h
  cases first <;> cases second <;> simp_all [Json.ofText?]

theorem fieldJson_injective : Function.Injective fieldJson := by
  intro first second h
  simp only [fieldJson, Json.arr.injEq, List.cons.injEq, Json.str.injEq, and_true] at h
  obtain ⟨display, value⟩ := first
  obtain ⟨otherDisplay, otherValue⟩ := second
  obtain rfl : display = otherDisplay := h.1
  obtain rfl : value = otherValue := ofText?_injective h.2
  rfl

section Ids

variable {ids : Nat → String} {size : Nat}
  (hids : ∀ first < size, ∀ second < size, ids first = ids second → first = second)
include hids

theorem linkValue_inj {link other : Option Nat} (hlink : ∀ target, link = some target → target < size)
    (hother : ∀ target, other = some target → target < size) (h : linkValue ids link = linkValue ids other) :
    link = other := by
  cases link with
  | none => cases other <;> simp_all [linkValue]
  | some first =>
    cases other with
    | none => simp [linkValue] at h
    | some second =>
      simp only [linkValue, Json.str.injEq] at h
      rw [hids first (hlink first rfl) second (hother second rfl) h]

theorem inputValue_inj {input other : Input} (hinput : ∀ target, input = .block target → target < size)
    (hother : ∀ target, other = .block target → target < size) (h : inputValue ids input = inputValue ids other) :
    input = other := by
  -- a literal starts with 1 and a link with 2
  cases input with
  | literal first =>
    obtain ⟨more, hfirst⟩ := exists_literalJson_eq first
    cases other with
    | literal second => rw [literalJson_injective h]
    | block second => simp [inputValue, hfirst] at h
  | block first =>
    cases other with
    | literal second =>
      obtain ⟨more, hsecond⟩ := exists_literalJson_eq second
      simp [inputValue, hsecond] at h
    | block second =>
      simp only [inputValue, Json.arr.injEq, List.cons.injEq, Json.str.injEq, and_true, true_and] at h
      rw [hids first (hinput first rfl) second (hother second rfl) h]

end Ids

/-! ## What is stored of a block -/

/-- The value says what the block is, with links as a table of ids has them. -/
structure Describes (ids : Nat → String) (json : Json) (block : Block) : Prop where
  opcode : json.member? "opcode" = some (.str block.opcode.name)
  next : json.member? "next" = some (linkValue ids block.next)
  parent : json.member? "parent" = some (linkValue ids block.parent)
  inputs : json.member? "inputs" =
    some (.object (block.inputs.map fun (name, input) => (name, inputValue ids input)))
  fields : json.member? "fields" = some (.object (block.fields.map fun (name, field) => (name, fieldJson field)))
  shadow : json.member? "shadow" = some (.bool block.shadow)
  topLevel : json.member? "topLevel" = some (.bool block.topLevel)
  x : json.member? "x" = block.position.map fun position => .int position.x.toInt
  y : json.member? "y" = block.position.map fun position => .int position.y.toInt

theorem lookup_mutationMembers {name : String} (h : name ≠ "mutation") (block : Block) :
    (mutationMembers block).reverse.lookup name = none := by
  unfold mutationMembers
  split
  · simp [lookup_cons_eq_ite, h]
  · rfl

theorem describes_blockValue (ids : Nat → String) (block : Block) : Describes ids (blockValue ids block) block := by
  constructor <;>
    rw [blockValue, Json.member?_object, List.reverse_append, List.lookup_append, lookup_mutationMembers (by decide),
      Option.none_or] <;>
    cases block.position <;> simp [positionMembers, lookup_cons_eq_ite]

end Project

/-- The slots and the menus of a block have different names. -/
structure Block.Named (block : Block) : Prop where
  inputs : (block.inputs.map Prod.fst).Nodup
  fields : (block.fields.map Prod.fst).Nodup

/-- The blocks are the same but for their ids and the order of their slots and menus. -/
structure Block.Agrees (block other : Block) : Prop where
  opcode : block.opcode = other.opcode
  parent : block.parent = other.parent
  next : block.next = other.next
  shadow : block.shadow = other.shadow
  topLevel : block.topLevel = other.topLevel
  position : block.position = other.position
  inputs : ∀ name, block.input? name = other.input? name
  fields : ∀ name, block.field? name = other.field? name

theorem Position.ext_toInt {position other : Position} (hx : position.x.toInt = other.x.toInt)
    (hy : position.y.toInt = other.y.toInt) : position = other := by
  obtain ⟨x, y⟩ := position
  obtain ⟨otherX, otherY⟩ := other
  obtain rfl : x = otherX := Int32.toInt_inj.1 hx
  obtain rfl : y = otherY := Int32.toInt_inj.1 hy
  rfl

namespace Project.Describes

variable {ids : Nat → String} {json : Json} {block other : Block} (hblock : Describes ids json block)
  (hother : Describes ids json other)
include hblock hother

theorem position_eq : block.position = other.position := by
  have hx := hblock.x.symm.trans hother.x
  have hy := hblock.y.symm.trans hother.y
  cases hposition : block.position with
  | none => cases hsecond : other.position <;> simp_all
  | some first =>
    cases hsecond : other.position with
    | none => simp [hposition, hsecond] at hx
    | some second =>
      simp only [hposition, hsecond, Option.map_some, Option.some.injEq, Json.int.injEq] at hx hy
      rw [Position.ext_toInt hx hy]

theorem fields_eq (hnamed : block.Named) (hotherNamed : other.Named) (name : String) :
    block.field? name = other.field? name := by
  have hfields := Option.some.inj (hblock.fields.symm.trans hother.fields)
  have hlookup := Json.lookup_eq_of_object_eq (by simpa [Function.comp_def] using hnamed.fields)
    (by simpa [Function.comp_def] using hotherNamed.fields) hfields name
  rw [lookup_map_value, lookup_map_value] at hlookup
  exact Option.map_injective fieldJson_injective hlookup

/-- A value describes one block only, up to the order of slots and menus. -/
theorem agrees {graph twin : Graph} (hids : ∀ first < graph.size, ∀ second < graph.size, ids first = ids second →
      first = second) (hsize : twin.size = graph.size) (hresolves : graph.ResolvesAt block)
    (hotherResolves : twin.ResolvesAt other) (hnamed : block.Named) (hotherNamed : other.Named) :
    block.Agrees other := by
  have hotherInput := hotherResolves.input_lt
  have hotherNext := hotherResolves.next_lt
  have hotherParent := hotherResolves.parent_lt
  rw [hsize] at hotherInput hotherNext hotherParent
  have hopcode := Option.some.inj (hblock.opcode.symm.trans hother.opcode)
  have hnext := Option.some.inj (hblock.next.symm.trans hother.next)
  have hparent := Option.some.inj (hblock.parent.symm.trans hother.parent)
  have hshadow := Option.some.inj (hblock.shadow.symm.trans hother.shadow)
  have htopLevel := Option.some.inj (hblock.topLevel.symm.trans hother.topLevel)
  refine ⟨Opcode.name_injective (Json.str.inj hopcode), linkValue_inj hids hresolves.parent_lt hotherParent hparent,
    linkValue_inj hids hresolves.next_lt hotherNext hnext, Json.bool.inj hshadow, Json.bool.inj htopLevel,
    hblock.position_eq hother, ?_, hblock.fields_eq hother hnamed hotherNamed⟩
  intro name
  have hinputs := Option.some.inj (hblock.inputs.symm.trans hother.inputs)
  have hlookup := Json.lookup_eq_of_object_eq (by simpa [Function.comp_def] using hnamed.inputs)
    (by simpa [Function.comp_def] using hotherNamed.inputs) hinputs name
  rw [lookup_map_value, lookup_map_value] at hlookup
  unfold Block.input?
  cases hfirst : block.inputs.lookup name with
  | none => cases hsecond : other.inputs.lookup name <;> simp_all
  | some input =>
    cases hsecond : other.inputs.lookup name with
    | none => simp [hfirst, hsecond] at hlookup
    | some otherInput =>
      rw [hfirst, hsecond, Option.map_some, Option.map_some, Option.some.injEq] at hlookup
      have hmem := (lookup_eq_some_iff_mem hnamed.inputs).1 hfirst
      have hotherMem := (lookup_eq_some_iff_mem hotherNamed.inputs).1 hsecond
      rw [inputValue_inj hids (fun target heq => hresolves.input_lt name target (heq ▸ hmem))
        (fun target heq => hotherInput name target (heq ▸ hotherMem)) hlookup]

end Project.Describes

/-! ## Graphs that can be stored -/

/-- Ids are different, links lead to blocks, and slots and menus have different names. -/
structure Graph.Storable (graph : Graph) : Prop where
  nodup_ids : graph.ids.Nodup
  resolvesAt : ∀ block ∈ graph.toList, graph.ResolvesAt block
  named : ∀ block ∈ graph.toList, block.Named

namespace Graph

variable {graph other : Graph}

theorem mem_toList_of_block? {index : Nat} {block : Block} (h : graph.block? index = some block) :
    block ∈ graph.toList := by
  rw [block?_eq_getElem?] at h
  exact List.mem_of_getElem? h

theorem idAt_inj (h : graph.ids.Nodup) :
    ∀ first < graph.size, ∀ second < graph.size, graph.idAt first = graph.idAt second → first = second := by
  intro first hfirst second hsecond heq
  rw [← length_ids] at hfirst hsecond
  rw [idAt, idAt, List.getD_eq_getElem _ _ hfirst, List.getD_eq_getElem _ _ hsecond] at heq
  exact (List.Nodup.getElem_inj_iff h).1 heq

theorem Storable.member?_blockMap (h : graph.Storable) {index : Nat} {block : Block}
    (hblock : graph.block? index = some block) :
    (Json.object (Project.blockMembers graph)).member? block.id = some (Project.blockValue graph.idAt block) := by
  apply Json.member?_object_of_mem
  · rw [Project.names_blockMembers]
    exact h.nodup_ids
  · exact List.mem_map.2 ⟨block, mem_toList_of_block? hblock, rfl⟩

theorem Storable.agrees (h : graph.Storable) (hother : other.Storable) (hids : graph.ids = other.ids)
    (hmap : Json.object (Project.blockMembers graph) = Json.object (Project.blockMembers other)) {index : Nat}
    {block twin : Block} (hblock : graph.block? index = some block) (htwin : other.block? index = some twin) :
    block.Agrees twin := by
  have hsize : other.size = graph.size := by rw [← length_ids, ← length_ids, hids]
  have hidAt : other.idAt = graph.idAt := by
    funext place
    rw [idAt, idAt, hids]
  have hid : twin.id = block.id := by rw [← idAt_of_block? hblock, ← idAt_of_block? htwin, hidAt]
  have hvalue : Project.blockValue graph.idAt block = Project.blockValue graph.idAt twin := by
    have hfound := h.member?_blockMap hblock
    rw [hmap, ← hid, hother.member?_blockMap htwin, hidAt, Option.some.injEq] at hfound
    exact hfound.symm
  have hdescribes := Project.describes_blockValue graph.idAt block
  have htwinDescribes := Project.describes_blockValue graph.idAt twin
  rw [← hvalue] at htwinDescribes
  exact hdescribes.agrees htwinDescribes (idAt_inj h.nodup_ids) hsize
    (h.resolvesAt block (mem_toList_of_block? hblock)) (hother.resolvesAt twin (mem_toList_of_block? htwin))
    (h.named block (mem_toList_of_block? hblock)) (hother.named twin (mem_toList_of_block? htwin))

end Graph

/-! ## Names in compiled graphs -/

theorem mem_names_setEntry {name other : String} {input : Input} {entries : List (String × Input)}
    (h : other ∈ (setEntry name input entries).map Prod.fst) : other = name ∨ other ∈ entries.map Prod.fst := by
  induction entries with
  | nil => exact .inl (by simpa [setEntry] using h)
  | cons entry entries ih =>
    obtain ⟨first, old⟩ := entry
    unfold setEntry at h
    split at h
    · rcases List.mem_cons.1 h with heq | hmem
      · exact .inl heq
      · exact .inr (List.mem_cons_of_mem _ hmem)
    · rcases List.mem_cons.1 h with heq | hmem
      · exact .inr (List.mem_cons.2 (.inl heq))
      · exact (ih hmem).imp_right (List.mem_cons_of_mem _)

theorem nodup_names_setEntry {entries : List (String × Input)} (h : (entries.map Prod.fst).Nodup) (name : String)
    (input : Input) : ((setEntry name input entries).map Prod.fst).Nodup := by
  induction entries with
  | nil => simp [setEntry]
  | cons entry entries ih =>
    obtain ⟨first, old⟩ := entry
    rw [List.map_cons, List.nodup_cons] at h
    unfold setEntry
    split
    · rename_i hname
      rw [List.map_cons, List.nodup_cons]
      rw [beq_iff_eq] at hname
      exact hname ▸ h
    · rename_i hname
      rw [List.map_cons, List.nodup_cons]
      refine ⟨fun hmem => ?_, ih h.2⟩
      rcases mem_names_setEntry hmem with heq | hold
      · exact hname (beq_iff_eq.2 heq)
      · exact h.1 hold

namespace Block.Named

variable {block : Block} (h : block.Named)
include h

theorem setInput (name : String) (input : Input) : (block.setInput name input).Named :=
  ⟨nodup_names_setEntry h.inputs name input, h.fields⟩

theorem holding (name : String) (target : Option Nat) : (block.holding name target).Named := by
  cases target with
  | none => exact h
  | some target => exact h.setInput name _

end Block.Named

theorem Condition.named_of_mem_blocks {condition : Condition} {parent index : Nat} {block : Block}
    (h : block ∈ condition.blocks parent index) : block.Named := by
  induction condition generalizing parent index with
  | missing => simp [Condition.blocks] at h
  | join connective left right ihleft ihright =>
    rcases List.mem_cons.1 h with rfl | hmem
    · exact ⟨names_slotFor_nodup .., List.nodup_nil⟩
    · rcases List.mem_append.1 hmem with hmem | hmem
      · exact ihleft hmem
      · exact ihright hmem
  | not operand ih =>
    rcases List.mem_cons.1 h with rfl | hmem
    · refine ⟨?_, List.nodup_nil⟩
      simp only [slotFor_eq]
      exact (names_linkTo_sublist _ _).nodup (by decide)
    · exact ih hmem
  | _ =>
    obtain rfl := List.mem_singleton.1 h
    exact ⟨by simp [blocks.node, textIn], List.nodup_nil⟩

theorem Vocabulary.rules_fields_nodup : ∀ rule ∈ rules, (rule.fields.map FieldPlan.slot).Nodup := by
  decide

theorem Statement.nodup_fields_of_ofLine? {line : List Char} {statement : Statement}
    (h : Statement.ofLine? line = some statement) : (statement.fields.map Prod.fst).Nodup := by
  obtain ⟨rule, hmem, _, lowered, hread⟩ := Statement.exists_rule_of_ofLine? h
  obtain ⟨holes, rfl⟩ := Vocabulary.Rule.exists_holes_of_read? hread
  have hnames : (rule.statement lowered holes).fields.map Prod.fst = rule.fields.map Vocabulary.FieldPlan.slot := by
    simp [Vocabulary.Rule.statement, Function.comp_def]
  rw [hnames]
  exact Vocabulary.rules_fields_nodup rule hmem

theorem Statement.named_block {line : List Char} {statement : Statement} (h : Statement.ofLine? line = some statement)
    (spot : Option Position) (parent : Option Nat) (index : Nat) : (statement.block spot parent index).Named := by
  apply Block.Named.holding
  refine ⟨?_, nodup_fields_of_ofLine? h⟩
  have hliterals := (Statement.typed_of_ofLine? _ _ h).names_nodup
  simpa [Block.ofStatement, Function.comp_def] using hliterals

namespace Graph

variable {graph : Graph}

/-- Every block has different names for its slots and menus. -/
def Named (graph : Graph) : Prop :=
  ∀ index block, graph.block? index = some block → block.Named

theorem Named.modify (h : graph.Named) {place : Nat} {change : Block → Block}
    (hchange : ∀ block : Block, block.Named → (change block).Named) : (graph.modify place change).Named := by
  intro index block hblock
  rw [block?_modify, Option.map_eq_some_iff] at hblock
  obtain ⟨old, hold, rfl⟩ := hblock
  split
  · exact hchange old (h index old hold)
  · exact h index old hold

theorem Named.append (h : graph.Named) {blocks : List Block} (hblocks : ∀ block ∈ blocks, block.Named) :
    (graph.append blocks).Named := by
  intro index block hblock
  have hmem := mem_toList_of_block? hblock
  rw [toList_append, List.mem_append] at hmem
  rcases hmem with hold | hnew
  · obtain ⟨place, hplace⟩ := List.mem_iff_getElem?.1 hold
    rw [← block?_eq_getElem?] at hplace
    exact h place block hplace
  · exact hblocks block hnew

end Graph

namespace Assembly

variable {layout : Layout} {assembly : Assembly}

theorem named_joined (h : assembly.graph.Named) : assembly.joined.Named := by
  unfold joined
  split
  · exact h.modify fun block hblock => hblock.setInput _ _
  · exact h.modify fun block hblock => ⟨hblock.inputs, hblock.fields⟩
  · exact h

theorem named_enterElse (h : assembly.graph.Named) (number : Nat) : (assembly.enterElse number).graph.Named := by
  unfold enterElse
  split
  · exact h
  · split
    · exact h
    · split
      · exact h.modify fun block hblock => ⟨hblock.inputs, hblock.fields⟩
      · exact h

theorem named_feed (h : assembly.graph.Named) (line : SourceLine) : (assembly.feed layout line).graph.Named := by
  cases hreading : line.reading with
  | statement statement =>
    have hline : line.Says statement := reading_eq_statement_iff.1 hreading
    obtain ⟨before, spot, parent, hbefore, hgraph⟩ := exists_graph_of_statement layout assembly hline
    have hold : before.Named := by
      rcases hbefore with rfl | rfl
      · exact h
      · exact named_joined h
    rw [hgraph]
    apply hold.append
    intro block hmem
    rcases List.mem_cons.1 hmem with rfl | hcondition
    · exact Statement.named_block hline spot parent _
    · exact Condition.named_of_mem_blocks hcondition
  | marker marker =>
    unfold feed
    rw [hreading]
    cases marker with
    | close =>
      dsimp only [close]
      split <;> exact h
    | otherwise => exact named_enterElse h line.number
  | blank =>
    unfold feed
    rw [hreading]
    exact h
  | unknown =>
    unfold feed
    rw [hreading]
    exact h

theorem named_ofLines (layout : Layout) (lines : List SourceLine) : (ofLines layout lines).graph.Named := by
  have hrun : ∀ (lines : List SourceLine) (assembly : Assembly), assembly.graph.Named →
      (feedAll layout assembly lines).graph.Named := by
    intro lines
    induction lines with
    | nil => exact fun assembly h => h
    | cons line lines ih => exact fun assembly h => ih _ (named_feed h line)
  exact hrun lines {} fun index block hblock => by simp [Graph.block?] at hblock

end Assembly

theorem storable_compile (layout : Layout) (seed : UInt64) (source : String) :
    (compile layout seed source).graph.Storable := by
  have hblocks : ∀ block ∈ (compile layout seed source).graph.toList,
      ∃ index plain id, (compilePlain layout source).graph.block? index = some plain ∧
        block = { plain with id := id } := by
    intro block hmem
    obtain ⟨index, hindex⟩ := List.mem_iff_getElem?.1 hmem
    rw [← Graph.block?_eq_getElem?, block?_compile, Option.map_eq_some_iff] at hindex
    obtain ⟨plain, hplain, rfl⟩ := hindex
    exact ⟨index, plain, _, hplain, rfl⟩
  refine ⟨nodup_ids_compile layout seed source, fun block hmem => ?_, fun block hmem => ?_⟩
  · obtain ⟨index, plain, id, hplain, rfl⟩ := hblocks block hmem
    exact ((linkedAt_compilePlain hplain).relabel _ _).resolvesAt
  · obtain ⟨index, plain, id, hplain, rfl⟩ := hblocks block hmem
    have hnamed := Assembly.named_ofLines layout (Source.lines source.toList) index plain hplain
    exact ⟨hnamed.inputs, hnamed.fields⟩

/-- The map of blocks loses nothing: graphs that can be stored are, if they have the same ids and the same map then
their blocks agree in every place, and all compiled graphs can be stored. -/
theorem blockMap_lossless :
    (∀ graph : Graph, graph.Storable → ∃ members, Project.blockMap graph = .ok (.obj members)) ∧
      (∀ graph other : Graph, graph.Storable → other.Storable → graph.ids = other.ids →
        Project.blockMap graph = Project.blockMap other →
        ∀ index block, graph.block? index = some block →
          ∃ twin, other.block? index = some twin ∧ block.Agrees twin) ∧
      ∀ (layout : Layout) (seed : UInt64) (source : String), (compile layout seed source).graph.Storable := by
  refine ⟨fun graph h => ⟨_, Project.blockMap_eq_ok h.resolvesAt⟩, ?_, storable_compile⟩
  intro graph other h hother hids hmap index block hblock
  rw [Project.blockMap_eq_ok h.resolvesAt, Project.blockMap_eq_ok hother.resolvesAt, Except.ok.injEq] at hmap
  have hlt : index < other.size := by
    rw [← Graph.length_ids, ← hids, Graph.length_ids]
    exact Graph.lt_size_of_block? hblock
  obtain ⟨twin, htwin⟩ := Graph.exists_block?_of_lt hlt
  exact ⟨twin, htwin, h.agrees hother hids hmap hblock htwin⟩

/-- Two graphs with one map: the slots of their block are listed in different orders. -/
theorem blockMap_lossless_reordered :
    let message : String × Input := ("MESSAGE", .literal ⟨.text, "hi"⟩)
    let seconds : String × Input := ("SECS", .literal ⟨.number, "2"⟩)
    let block (inputs : List (String × Input)) : Block :=
      { id := "a", opcode := .sayForSecs, inputs := inputs, topLevel := true }
    let first : Graph := ⟨#[block [message, seconds]]⟩
    let second : Graph := ⟨#[block [seconds, message]]⟩
    first ≠ second ∧ first.Storable ∧ second.Storable ∧ Project.blockMap first = Project.blockMap second ∧
      (block [message, seconds]).Agrees (block [seconds, message]) := by
  intro message seconds block first second
  have hstorable : ∀ inputs : List (String × Input), (inputs.map Prod.fst).Nodup →
      (∀ name target, (name, .block target) ∉ inputs) → (⟨#[block inputs]⟩ : Graph).Storable := by
    intro inputs hnames hliterals
    refine ⟨List.nodup_singleton _, fun entry hmem => ?_, fun entry hmem => ?_⟩
    · obtain rfl := List.mem_singleton.1 hmem
      exact ⟨by simp [block], by simp [block], fun name target hinput => absurd hinput (hliterals name target)⟩
    · obtain rfl := List.mem_singleton.1 hmem
      exact ⟨hnames, List.nodup_nil⟩
  have hfirst : first.Storable := hstorable _ (by decide) (by simp [message, seconds])
  have hsecond : second.Storable := hstorable _ (by decide) (by simp [message, seconds])
  have hmap : Project.blockMap first = Project.blockMap second := rfl
  obtain ⟨twin, htwin, hagrees⟩ := blockMap_lossless.2.1 first second hfirst hsecond rfl hmap 0 _ rfl
  obtain rfl : block [seconds, message] = twin := Option.some.inj htwin
  exact ⟨by decide, hfirst, hsecond, hmap, hagrees⟩

end ScratchScript
