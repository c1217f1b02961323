import ScratchScript.Project.Archive
import ScratchScript.Proofs.Stored

/-!
# Projects hold together

The project of a source exists if its sprite can have its name, and then everything that it refers to is in it
(`project_intact`): links in the map of blocks lead to members of the map, both targets wear the costume that the
archive carries, and the extension for the pen is listed exactly if some line of the source needs it.

What a project holds is read off its description with `Json.member?`. That rendering cannot fail is a matter of the
graph (`Graph.Storable`); what the blocks are is known from the lines that they tell (`Graph.Accounts`). The two targets
put the same image among the assets, and `run_build` says that one is left.
-/

namespace ScratchScript

/-! ## Links in the map of blocks -/

namespace Project

/-- The value is null or names one of the keys. -/
def NamesKey (keys : List String) (value : Json) : Prop :=
  value = .null ∨ ∃ key ∈ keys, value = .str key

/-- All links in a map of blocks lead to members of it: followers, parents, and blocks in slots. -/
structure Closed (members : List (String × Json)) : Prop where
  next : ∀ id block, (id, block) ∈ members → ∃ link, block.member? "next" = some link ∧
    NamesKey (members.map Prod.fst) link
  parent : ∀ id block, (id, block) ∈ members → ∃ link, block.member? "parent" = some link ∧
    NamesKey (members.map Prod.fst) link
  inputs : ∀ id block, (id, block) ∈ members → ∃ inputs, block.member? "inputs" = some (.obj inputs) ∧
    ∀ name rest, (name, .arr (.int 2 :: rest)) ∈ inputs → ∃ key ∈ members.map Prod.fst, rest = [.str key]

variable {graph : Graph}

theorem idAt_mem_ids {index : Nat} (h : index < graph.size) : graph.idAt index ∈ graph.ids := by
  rw [← Graph.length_ids] at h
  rw [Graph.idAt, List.getD_eq_getElem _ _ h]
  exact List.getElem_mem h

theorem namesKey_linkValue {link : Option Nat} (h : ∀ target, link = some target → target < graph.size) :
    NamesKey graph.ids (linkValue graph.idAt link) := by
  cases link with
  | none => exact .inl rfl
  | some target => exact .inr ⟨graph.idAt target, idAt_mem_ids (h target rfl), rfl⟩

theorem exists_key_of_inputValue {input : Input} (h : ∀ target, input = .block target → target < graph.size)
    {rest : List Json} (hvalue : inputValue graph.idAt input = .arr (.int 2 :: rest)) :
    ∃ key ∈ graph.ids, rest = [.str key] := by
  cases input with
  | literal literal =>
    obtain ⟨more, hliteral⟩ := exists_literalJson_eq literal
    simp [inputValue, hliteral] at hvalue
  | block target =>
    simp only [inputValue, Json.arr.injEq, List.cons.injEq, true_and] at hvalue
    exact ⟨graph.idAt target, idAt_mem_ids (h target rfl), hvalue.symm⟩

theorem perm_blockMembers (h : graph.ids.Nodup) : (Json.putAll [] (blockMembers graph)).Perm (blockMembers graph) :=
  Json.putAll_perm [] (blockMembers graph) (by simpa [names_blockMembers] using h)

theorem keys_perm_of_nodup (h : graph.ids.Nodup) :
    ((Json.putAll [] (blockMembers graph)).map Prod.fst).Perm graph.ids := by
  rw [← names_blockMembers]
  exact (perm_blockMembers h).map Prod.fst

theorem keys_perm_ids (h : graph.Storable) : ((Json.putAll [] (blockMembers graph)).map Prod.fst).Perm graph.ids :=
  keys_perm_of_nodup h.nodup_ids

theorem closed_of_resolvesAt (hids : graph.ids.Nodup) (hresolves : ∀ block ∈ graph.toList, graph.ResolvesAt block) :
    Closed (Json.putAll [] (blockMembers graph)) := by
  have hkeys : ∀ key, key ∈ (Json.putAll [] (blockMembers graph)).map Prod.fst ↔ key ∈ graph.ids :=
    fun key => (keys_perm_of_nodup hids).mem_iff
  have hblocks : ∀ id value, (id, value) ∈ Json.putAll [] (blockMembers graph) →
      ∃ block ∈ graph.toList, Describes graph.idAt value block := by
    intro id value hmem
    obtain ⟨block, hblock, heq⟩ := List.mem_map.1 ((perm_blockMembers hids).mem_iff.1 hmem)
    obtain ⟨rfl, rfl⟩ := Prod.mk.inj heq
    exact ⟨block, hblock, describes_blockValue graph.idAt block⟩
  refine ⟨fun id value hmem => ?_, fun id value hmem => ?_, fun id value hmem => ?_⟩
  · obtain ⟨block, hblock, hdescribes⟩ := hblocks id value hmem
    refine ⟨_, hdescribes.next, ?_⟩
    simpa only [NamesKey, hkeys] using namesKey_linkValue (hresolves block hblock).next_lt
  · obtain ⟨block, hblock, hdescribes⟩ := hblocks id value hmem
    refine ⟨_, hdescribes.parent, ?_⟩
    simpa only [NamesKey, hkeys] using namesKey_linkValue (hresolves block hblock).parent_lt
  · obtain ⟨block, hblock, hdescribes⟩ := hblocks id value hmem
    refine ⟨_, hdescribes.inputs, ?_⟩
    intro name rest hinput
    have hput := (Json.mem_of_mem_putAll hinput).resolve_left List.not_mem_nil
    obtain ⟨⟨slot, input⟩, hslot, heq⟩ := List.mem_map.1 hput
    obtain ⟨rfl, hvalue⟩ := Prod.mk.inj heq
    have hlt : ∀ target, input = .block target → target < graph.size := by
      rintro target rfl
      exact (hresolves block hblock).input_lt slot target hslot
    simpa only [hkeys] using exists_key_of_inputValue hlt hvalue

theorem closed_blockMembers (h : graph.Storable) : Closed (Json.putAll [] (blockMembers graph)) :=
  closed_of_resolvesAt h.nodup_ids h.resolvesAt

end Project

/-! ## The pen -/

def Opcode.ofPen : List Opcode :=
  [.penDown, .penUp, .eraseAll, .stamp, .setPenColor, .changePenSizeBy, .setPenSizeTo]

/-- Whether some line of the source is a statement for the pen. -/
def Source.usesPen (source : String) : Bool :=
  (lines source.toList).any fun line =>
    (Statement.ofLine? line.text.toList).any fun statement => Opcode.ofPen.contains statement.opcode

theorem Opcode.category_eq_pen (opcode : Opcode) : (opcode.category == .pen) = ofPen.contains opcode := by
  cases opcode <;> decide

theorem Block.Tells.category_eq {block : Block} {statement : Statement} (h : block.Tells statement) :
    block.opcode.category = statement.opcode.category := by
  rcases h.opcode with heq | ⟨hif, hifElse⟩
  · rw [heq]
  · rw [hif, hifElse]
    rfl

theorem Opcode.category_ne_pen_of_isPredicate {opcode : Opcode} (h : opcode.isPredicate = true) :
    opcode.category ≠ .pen := by
  cases opcode <;> simp_all [isPredicate, category]

/-- Conditions need no pen, so the lines that do can be told from the blocks. -/
theorem Graph.Accounts.usesCategory_pen {graph : Graph} {said : List Statement} (h : graph.Accounts said) :
    graph.usesCategory .pen = said.any fun statement => statement.opcode.category == .pen := by
  have hstatements : graph.usesCategory .pen = graph.statements.any fun block => block.opcode.category == .pen := by
    rw [usesCategory, ← Array.any_toList, statements, List.any_filter]
    show graph.toList.any _ = _
    congr 1
    funext block
    cases hpredicate : block.opcode.isPredicate with
    | false => rfl
    | true => simp [Opcode.category_ne_pen_of_isPredicate hpredicate]
  have htold : ∀ (blocks : List Block) (said : List Statement),
      List.Forall₂ (fun block statement => block.Tells statement ∧ statement.Regular) blocks said →
      (blocks.any fun block => block.opcode.category == .pen) =
        said.any fun statement => statement.opcode.category == .pen := by
    intro blocks said hall
    induction hall with
    | nil => rfl
    | cons hhead _ ih => rw [List.any_cons, List.any_cons, hhead.1.category_eq, ih]
  rw [hstatements, htold _ _ h.tells]

theorem accounts_compile (layout : Layout) (seed : UInt64) (source : String) :
    (compile layout seed source).graph.Accounts
      ((Source.lines source.toList).filterMap fun line => Statement.ofLine? line.text.toList) := by
  rw [compile_eq_relabel]
  exact (Assembly.accounts_ofLines layout (Source.lines source.toList)).relabel _

theorem usesCategory_pen_compile (layout : Layout) (seed : UInt64) (source : String) :
    (compile layout seed source).graph.usesCategory .pen = Source.usesPen source := by
  simp only [(accounts_compile layout seed source).usesCategory_pen, List.any_filterMap, Opcode.category_eq_pen]
  rfl

/-! ## Descriptions -/

namespace Project

variable {settings : Settings} {graph : Graph}

/-- The description of a project whose sprite has the name. -/
def projectValue (settings : Settings) (graph : Graph) (name : String) : Json :=
  .object [("targets", .arr [target true "Stage" (.object []) (settings.costume.json "backdrop1") 0,
      target false name (.object (blockMembers graph)) (settings.costume.json "costume1") 1]),
    ("monitors", .arr []), ("extensions", .arr ((extensions graph).map .str)), ("meta", maker)]

def Costume.entry (costume : Costume) : Entry :=
  ⟨costume.fileName, costume.image⟩

/-- Both targets put the same image among the assets, so that there is one, whatever the graph. -/
theorem run_build (settings : Settings) (graph : Graph) :
    (build settings graph).run [] = (document settings graph).map fun project =>
      (project, [(settings.costume.fileName, settings.costume.image)]) := by
  have hassets : putNamed settings.costume.fileName settings.costume.image
      (putNamed settings.costume.fileName settings.costume.image []) =
        [(settings.costume.fileName, settings.costume.image)] := by
    rw [putNamed_putNamed, putNamed]
  rw [document, build]
  cases settings.checkedName with
  | error problem => rfl
  | ok name =>
    cases checkedBlocks graph with
    | error problem => rfl
    | ok blocks => exact congrArg (fun assets => Except.ok (_, assets)) hassets

theorem archive_eq_map (settings : Settings) (graph : Graph) :
    archive settings graph = (document settings graph).map fun project =>
      ⟨[⟨"project.json", project.compact⟩, settings.costume.entry]⟩ := by
  rw [archive, run_build]
  cases document settings graph <;> rfl

/-- A graph that can be stored makes no trouble: the name of the sprite decides. -/
theorem document_eq_map (h : graph.Storable) :
    document settings graph = settings.checkedName.map (projectValue settings graph) := by
  have hblocks : checkedBlocks graph = .ok (.object (blockMembers graph)) := by
    rw [checkedBlocks, blockMap_eq_ok h.resolvesAt]
  rw [document, build, hblocks]
  cases settings.checkedName <;> rfl

theorem exists_of_archive_eq_ok {packed : Archive} (h : archive settings graph = .ok packed) :
    ∃ project, document settings graph = .ok project ∧
      packed.entries = [⟨"project.json", project.compact⟩, settings.costume.entry] := by
  rw [archive_eq_map] at h
  cases hproject : document settings graph with
  | error problem => simp [hproject, Except.map] at h
  | ok project =>
    rw [hproject] at h
    obtain rfl := Except.ok.inj h
    exact ⟨project, rfl, rfl⟩

theorem checkedName_eq_ok_iff {name : String} :
    settings.checkedName = .ok name ↔
      (Text.trim settings.spriteName.toList ≠ [] ∧
        (Text.trim settings.spriteName.toList).map Char.toLower ≠ "stage".toList) ∧
        name = String.ofList (Text.trim settings.spriteName.toList) := by
  unfold Settings.checkedName
  generalize Text.trim settings.spriteName.toList = trimmed
  dsimp only
  by_cases hempty : trimmed = []
  · rw [if_pos (List.isEmpty_iff.2 hempty)]
    exact ⟨nofun, fun h => absurd hempty h.1.1⟩
  · rw [if_neg (by simpa using hempty)]
    by_cases hstage : trimmed.map Char.toLower = "stage".toList
    · rw [if_pos (beq_iff_eq.2 hstage)]
      exact ⟨nofun, fun h => absurd hstage h.1.2⟩
    · rw [if_neg (by rwa [beq_iff_eq]), Except.ok.injEq]
      exact ⟨fun h => ⟨⟨hempty, hstage⟩, h.symm⟩, fun h => h.2.symm⟩

theorem document_eq_ok_iff (h : graph.Storable) {project : Json} :
    document settings graph = .ok project ↔
      (Text.trim settings.spriteName.toList ≠ [] ∧
        (Text.trim settings.spriteName.toList).map Char.toLower ≠ "stage".toList) ∧
        project = projectValue settings graph (String.ofList (Text.trim settings.spriteName.toList)) := by
  rw [document_eq_map h]
  constructor
  · intro hproject
    cases hname : settings.checkedName with
    | error problem => simp [hname, Except.map] at hproject
    | ok name =>
      obtain ⟨hvalid, rfl⟩ := checkedName_eq_ok_iff.1 hname
      rw [hname] at hproject
      exact ⟨hvalid, (Except.ok.inj hproject).symm⟩
  · rintro ⟨hvalid, rfl⟩
    rw [checkedName_eq_ok_iff.2 ⟨hvalid, rfl⟩]
    rfl

theorem members_target (isStage : Bool) (name : String) (blocks costume : Json) (layer : Int) :
    (target isStage name blocks costume layer).member? "isStage" = some (.bool isStage) ∧
      (target isStage name blocks costume layer).member? "blocks" = some blocks ∧
      (target isStage name blocks costume layer).member? "costumes" = some (.arr [costume]) := by
  have hkey : ∀ key ∈ ["isStage", "blocks", "costumes"],
      (target isStage name blocks costume layer).member? key =
        (targetMembers isStage name blocks costume layer).reverse.lookup key := by
    intro key hmem
    have hmore : (if isStage then stageMembers else spriteMembers).reverse.lookup key = none := by
      simp only [List.mem_cons, List.not_mem_nil, or_false] at hmem
      rcases hmem with rfl | rfl | rfl <;> cases isStage <;>
        simp [stageMembers, spriteMembers, lookup_cons_eq_ite]
    rw [target, Json.member?_object, List.reverse_append, List.lookup_append, hmore, Option.none_or]
  refine ⟨?_, ?_, ?_⟩ <;> rw [hkey _ (by simp)] <;> simp [targetMembers, lookup_cons_eq_ite]

theorem member?_targets (settings : Settings) (graph : Graph) (name : String) :
    (projectValue settings graph name).member? "targets" =
      some (.arr [target true "Stage" (.object []) (settings.costume.json "backdrop1") 0,
        target false name (.object (blockMembers graph)) (settings.costume.json "costume1") 1]) := by
  simp [projectValue, Json.member?_object, lookup_cons_eq_ite]

theorem member?_extensions (settings : Settings) (graph : Graph) (name : String) :
    (projectValue settings graph name).member? "extensions" =
      some (.arr (if graph.usesCategory .pen then [.str "pen"] else [])) := by
  cases hpen : graph.usesCategory .pen <;>
    simp [projectValue, Json.member?_object, lookup_cons_eq_ite, extensions, hpen]

theorem member?_md5ext (costume : Costume) (name : String) :
    (costume.json name).member? "md5ext" = some (.str costume.entry.name) := by
  simp [Costume.json, Costume.entry, Json.member?_object, lookup_cons_eq_ite]

/-- The parts of a project and of its archive belong together: the stage has no blocks, the sprite has one member for
each block and all links lead to members, the pen is listed exactly if some line needs it, and the archive carries the
description and the one image that both targets name. -/
structure Intact (source : String) (graph : Graph) (project stage sprite : Json) (members : List (String × Json))
    (image : Entry) (archive : Archive) : Prop where
  targets : project.member? "targets" = some (.arr [stage, sprite])
  isStage : stage.member? "isStage" = some (.bool true) ∧ sprite.member? "isStage" = some (.bool false)
  stage_blocks : stage.member? "blocks" = some (.obj [])
  sprite_blocks : sprite.member? "blocks" = some (.obj members)
  nodup_keys : (members.map Prod.fst).Nodup
  keys_perm : (members.map Prod.fst).Perm graph.ids
  closed : Closed members
  extensions : project.member? "extensions" = some (.arr (if Source.usesPen source then [.str "pen"] else []))
  entries : archive.entries = [⟨"project.json", project.compact⟩, image]
  image_name : image.name = Digest.Md5.hex image.bytes ++ ".svg"
  costumes : ∀ target ∈ [stage, sprite], ∃ costume, target.member? "costumes" = some (.arr [costume]) ∧
    costume.member? "md5ext" = some (.str image.name)

end Project

/-- A project holds together. It exists exactly if the sprite can have its name, and then there is an archive of it and
all parts belong together. -/
theorem project_intact (layout : Layout) (seed : UInt64) (source : String) (settings : Project.Settings) :
    let graph := (compile layout seed source).graph
    let name := Text.trim settings.spriteName.toList
    ((∃ project, Project.document settings graph = .ok project) ↔
        name ≠ [] ∧ name.map Char.toLower ≠ "stage".toList) ∧
      ∀ project, Project.document settings graph = .ok project →
        ∃ archive stage sprite members image, Project.archive settings graph = .ok archive ∧
          Project.Intact source graph project stage sprite members image archive := by
  intro graph name
  have hstorable : graph.Storable := storable_compile layout seed source
  have hok := fun project => @Project.document_eq_ok_iff settings graph hstorable project
  refine ⟨⟨fun ⟨project, hproject⟩ => ((hok project).1 hproject).1, fun hname => ⟨_, (hok _).2 ⟨hname, rfl⟩⟩⟩, ?_⟩
  intro project hproject
  have harchive : Project.archive settings graph =
      .ok ⟨[⟨"project.json", project.compact⟩, settings.costume.entry]⟩ := by
    rw [Project.archive_eq_map, hproject]
    rfl
  obtain ⟨-, rfl⟩ := (hok project).1 hproject
  have hkeys := Project.keys_perm_ids hstorable
  have hpen : graph.usesCategory .pen = Source.usesPen source := usesCategory_pen_compile layout seed source
  obtain ⟨hstage, hnoBlocks, hbackdrop⟩ :=
    Project.members_target true "Stage" (.object []) (settings.costume.json "backdrop1") 0
  obtain ⟨hsprite, hblocks, hcostume⟩ := Project.members_target false (String.ofList name)
    (.object (Project.blockMembers graph)) (settings.costume.json "costume1") 1
  refine ⟨_, _, _, _, settings.costume.entry, harchive, {
    targets := Project.member?_targets settings graph _
    isStage := ⟨hstage, hsprite⟩
    stage_blocks := hnoBlocks
    sprite_blocks := hblocks
    nodup_keys := hkeys.nodup_iff.2 hstorable.nodup_ids
    keys_perm := hkeys
    closed := Project.closed_blockMembers hstorable
    extensions := by rw [Project.member?_extensions, hpen]
    entries := rfl
    image_name := rfl
    costumes := ?_ }⟩
  intro target hmem
  simp only [List.mem_cons, List.not_mem_nil, or_false] at hmem
  rcases hmem with rfl | rfl
  · exact ⟨_, hbackdrop, Project.member?_md5ext _ _⟩
  · exact ⟨_, hcostume, Project.member?_md5ext _ _⟩

/-- The project of a line, with the usual settings. -/
theorem project_intact_stamp :
    let graph := (compile {} 0 "stamp").graph
    ∃ project archive stage sprite members image, Project.document {} graph = .ok project ∧
      Project.archive {} graph = .ok archive ∧
      Project.Intact "stamp" graph project stage sprite members image archive := by
  intro graph
  obtain ⟨hname, hintact⟩ := project_intact {} 0 "stamp" {}
  obtain ⟨project, hproject⟩ := hname.2 (by decide)
  obtain ⟨archive, stage, sprite, members, image, harchive, hparts⟩ := hintact project hproject
  exact ⟨project, archive, stage, sprite, members, image, hproject, harchive, hparts⟩

end ScratchScript
