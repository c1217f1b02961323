import ScratchScript.Proofs.Graph
import ScratchScript.Proofs.Program

/-!
# Where the blocks of a program are

A graph that holds the blocks of a program has, at the place of each statement, a block whose links say where its
condition, its body, its else branch and what follows it start. That is all that later modules need to know about the
layout.

* `Statement.linked` is the block of a statement with given links. The slots of these links are none that literals take
  up (`Regular`), so that every link has a slot of its own, in this order.
* `Chain.Splits` takes the first statement off a chain: a simple statement has an empty body, and only a branch has
  something in its else branch. `Chain.Splits.holds` says where the parts are, and `Chain.splitsRec` is induction on
  chains in these terms.
-/

namespace ScratchScript

/-! ## Links of one block -/

def Input.target? : Input → Option Nat
  | literal _ => none
  | block target => some target

@[simp] theorem Input.target?_literal (text : Literal) : (Input.literal text).target? = none := rfl

@[simp] theorem Input.target?_block (target : Nat) : (Input.block target).target? = some target := rfl

/-- The places of the blocks in the slots of a block, in the order of the slots. -/
def Block.inner (block : Block) : List Nat :=
  block.inputs.filterMap fun (_, input) => input.target?

/-- A slot for a link, if there is something to link to. -/
def linkTo (name : String) (target : Option Nat) : List (String × Input) :=
  target.toList.map fun target => (name, .block target)

@[simp] theorem filterMap_linkTo (name : String) (target : Option Nat) :
    (linkTo name target).filterMap (fun (_, input) => input.target?) = target.toList := by
  cases target <;> rfl

theorem linkTo_ne {other name : String} (h : other ≠ name) (target : Option Nat) :
    ∀ entry ∈ linkTo other target, entry.1 ≠ name := by
  simpa [linkTo] using fun _ _ => h

theorem setEntry_of_not_mem {name : String} (input : Input) {entries : List (String × Input)}
    (h : ∀ entry ∈ entries, entry.1 ≠ name) : setEntry name input entries = entries ++ [(name, input)] := by
  induction entries with
  | nil => rfl
  | cons entry entries ih =>
    have hne : entry.1 ≠ name := h entry (by simp)
    simp [setEntry, hne, ih fun other hmem => h other (by simp [hmem])]

theorem Block.holding_eq {block : Block} {name : String} (h : ∀ entry ∈ block.inputs, entry.1 ≠ name)
    (target : Option Nat) :
    block.holding name target = { block with inputs := block.inputs ++ linkTo name target } := by
  cases target with
  | none => simp [holding, linkTo]
  | some target => simp [holding, setInput, setEntry_of_not_mem _ h, linkTo]

namespace Statement

/-- What the slots of a statement hold: its literals, and the links to its condition, its body and its else branch. -/
def inputs (statement : Statement) (condition body otherwise : Option Nat) : List (String × Input) :=
  statement.literals.map (fun (name, literal) => (name, .literal literal)) ++ linkTo "CONDITION" condition ++
    linkTo Slot.body.name body ++ linkTo Slot.elseBranch.name otherwise

/-- The block of a statement with its links. -/
def linked (statement : Statement) (spot : Option Position) (parent : Option Nat) (index : Nat) (opcode : Opcode)
    (body otherwise next : Option Nat) : Block where
  id := provisionalId index
  opcode := opcode
  parent := parent
  next := next
  inputs := statement.inputs (statement.conditionRead.root? (index + 1)) body otherwise
  fields := statement.fields
  topLevel := spot.isSome
  position := spot

theorem inner_linked (statement : Statement) (spot : Option Position) (parent : Option Nat) (index : Nat)
    (opcode : Opcode) (body otherwise next : Option Nat) :
    (statement.linked spot parent index opcode body otherwise next).inner =
      (statement.conditionRead.root? (index + 1)).toList ++ body.toList ++ otherwise.toList := by
  simp [Block.inner, linked, inputs, List.filterMap_append, List.filterMap_map, Function.comp_def]

variable {statement : Statement} (h : statement.Regular) (spot : Option Position) (parent : Option Nat) (index : Nat)
include h

theorem Regular.literal_ne {name : String} (hname : name ∈ blockSlots) :
    ∀ entry ∈ statement.literals.map (fun (name, literal) => (name, Input.literal literal)), entry.1 ≠ name := by
  simp only [List.mem_map, forall_exists_index, and_imp]
  rintro _ entry hmem rfl rfl
  exact h.literals entry hmem hname

theorem block_eq_linked :
    statement.block spot parent index = statement.linked spot parent index statement.opcode none none none := by
  rw [Statement.block, Block.holding_eq (h.literal_ne (by decide))]
  simp [linked, inputs, linkTo, Block.ofStatement]

theorem linked_holding_body (opcode : Opcode) (body next : Option Nat) :
    (statement.linked spot parent index opcode none none next).holding Slot.body.name body =
      statement.linked spot parent index opcode body none next := by
  rw [Block.holding_eq]
  · simp [linked, inputs, linkTo]
  · simp only [linked, inputs, List.forall_mem_append]
    exact ⟨⟨⟨h.literal_ne (by decide), linkTo_ne (by decide) _⟩, by simp [linkTo]⟩, by simp [linkTo]⟩

theorem linked_holding_otherwise (opcode : Opcode) (body otherwise next : Option Nat) :
    (statement.linked spot parent index opcode body none next).holding Slot.elseBranch.name otherwise =
      statement.linked spot parent index opcode body otherwise next := by
  rw [Block.holding_eq]
  · simp [linked, inputs, linkTo]
  · simp only [linked, inputs, List.forall_mem_append]
    exact ⟨⟨⟨h.literal_ne (by decide), linkTo_ne (by decide) _⟩, linkTo_ne (by decide) _⟩, by simp [linkTo]⟩

end Statement

/-! ## Parts of a chain -/

/-- The chain is a statement, whose block is of the given kind, with a body, an else branch and what follows it. -/
inductive Chain.Splits : Chain Statement → Statement → Opcode → (body otherwise rest : Chain Statement) → Prop
  | simple (statement : Statement) (rest : Chain Statement) :
      Splits (.simple statement rest) statement statement.opcode .done .done rest
  | loop (header : Statement) (body rest : Chain Statement) :
      Splits (.loop header body rest) header header.opcode body .done rest
  | branch (header : Statement) (body otherwise rest : Chain Statement) :
      Splits (.branch header body otherwise rest) header .ifElse body otherwise rest

namespace Chain

/-- Induction on chains, statement by statement. -/
theorem splitsRec {motive : Chain Statement → Prop} (done : motive .done)
    (step : ∀ {chain header opcode body otherwise rest}, chain.Splits header opcode body otherwise rest →
      motive body → motive otherwise → motive rest → motive chain) (chain : Chain Statement) : motive chain := by
  induction chain with
  | done => exact done
  | simple statement rest ih => exact step (.simple statement rest) done done ih
  | loop header body rest ihbody ihrest => exact step (.loop header body rest) ihbody done ihrest
  | branch header body otherwise rest ihbody ihother ihrest =>
    exact step (.branch header body otherwise rest) ihbody ihother ihrest

namespace Splits

variable {chain : Chain Statement} {header : Statement} {opcode : Opcode} {body otherwise rest : Chain Statement}
  (h : chain.Splits header opcode body otherwise rest)
include h

theorem start? (index : Nat) : chain.start? index = some index := by
  cases h <;> rfl

theorem ne_done : chain ≠ .done := by
  rintro rfl
  cases h

theorem all {p : Statement → Prop} (hall : chain.All p) :
    p header ∧ body.All p ∧ otherwise.All p ∧ rest.All p := by
  cases h with
  | simple => exact ⟨hall.1, trivial, trivial, hall.2⟩
  | loop => exact ⟨hall.1, hall.2.1, trivial, hall.2.2⟩
  | branch => exact hall

theorem isHat (hformed : chain.WellFormed) : opcode.isHat = false := by
  cases h with
  | simple => exact hformed.1
  | loop => exact Opcode.isHat_of_opensBody hformed.1
  | branch => rfl

theorem wellFormed (hformed : chain.WellFormed) : body.WellFormed ∧ otherwise.WellFormed ∧ rest.WellFormed := by
  cases h with
  | simple => exact ⟨trivial, trivial, hformed.2.2⟩
  | loop => exact ⟨hformed.2.1, trivial, hformed.2.2⟩
  | branch => exact hformed.2

theorem size : chain.size = header.size + body.size + otherwise.size + rest.size := by
  cases h <;> simp [Chain.size]

theorem blocks (hregular : header.Regular) (spot : Option Position) (parent : Option Nat) (index : Nat) :
    let inner := index + header.size
    let other := inner + body.size
    let after := other + otherwise.size
    chain.blocks spot parent index =
      header.linked spot parent index opcode (body.start? inner) (otherwise.start? other) (rest.start? after) ::
        (header.conditionBlocks index ++ body.blocks none (some index) inner ++
          otherwise.blocks none (some index) other ++ rest.blocks none parent after) := by
  cases h with
  | simple =>
    simp only [Chain.blocks, Chain.start?, Chain.size, Statement.block_eq_linked hregular, List.append_nil,
      Nat.add_zero]
    rfl
  | loop =>
    simp only [Chain.blocks, Chain.start?, Chain.size, Statement.block_eq_linked hregular,
      Statement.linked_holding_body hregular, List.append_nil, Nat.add_zero]
    rfl
  | branch =>
    have hupgraded : { header.linked spot parent index header.opcode (body.start? (index + header.size)) none none with
        opcode := .ifElse } =
          header.linked spot parent index .ifElse (body.start? (index + header.size)) none none := rfl
    simp only [Chain.blocks, Statement.block_eq_linked hregular, Statement.linked_holding_body hregular, hupgraded,
      Statement.linked_holding_otherwise hregular]
    rfl

/-- A graph that holds the blocks of a chain holds those of its parts, and the block of its first statement links to
them. -/
theorem holds {graph : Graph} (hregular : header.Regular) {spot : Option Position} {parent : Option Nat} {index : Nat}
    (hholds : graph.Holds index (chain.blocks spot parent index)) :
    let inner := index + header.size
    let other := inner + body.size
    let after := other + otherwise.size
    graph.block? index =
        some (header.linked spot parent index opcode (body.start? inner) (otherwise.start? other) (rest.start? after)) ∧
      graph.Holds (index + 1) (header.conditionBlocks index) ∧ graph.Holds inner (body.blocks none (some index) inner) ∧
      graph.Holds other (otherwise.blocks none (some index) other) ∧
      graph.Holds after (rest.blocks none parent after) := by
  intro inner other after
  rw [h.blocks hregular, Graph.holds_cons, Graph.holds_append, Graph.holds_append, Graph.holds_append,
    Chain.after_otherwise, Chain.after_body, Statement.after_conditionBlocks] at hholds
  obtain ⟨hblock, ⟨⟨hcondition, hbody⟩, hotherwise⟩, hrest⟩ := hholds
  exact ⟨hblock, hcondition, hbody, hotherwise, hrest⟩

end Splits

theorem parent_of_start? {graph : Graph} {chain : Chain Statement} (hregular : chain.All Statement.Regular)
    {spot : Option Position} {parent : Option Nat} {index target : Nat}
    (hholds : graph.Holds index (chain.blocks spot parent index)) (htarget : chain.start? index = some target) :
    ∃ block, graph.block? target = some block ∧ block.parent = parent := by
  cases chain using splitsRec with
  | done => simp [start?] at htarget
  | step hsplits =>
    obtain rfl : index = target := by simpa [hsplits.start?] using htarget
    obtain ⟨hblock, -⟩ := hsplits.holds (hsplits.all hregular).1 hholds
    exact ⟨_, hblock, rfl⟩

end Chain

/-! ## Scripts and conditions -/

theorem Script.holds_hat {graph : Graph} {hat : Statement} (hregular : hat.Regular) (hhat : hat.opcode.isHat = true)
    {chain : Chain Statement} {position : Position} {index : Nat}
    (hholds : graph.Holds index ((Script.mk (some hat) chain).blocks position index)) :
    graph.block? index =
        some (hat.linked (some position) none index hat.opcode none none (chain.start? (index + 1))) ∧
      graph.Holds (index + 1) (hat.conditionBlocks index) ∧
      graph.Holds (index + 1) (chain.blocks none (some index) (index + 1)) := by
  have hmissing := Statement.conditionRead_of_isHat hregular hhat
  simp only [Script.blocks, Statement.block_eq_linked hregular, Graph.holds_cons] at hholds
  refine ⟨hholds.1, ?_, hholds.2⟩
  simp [Statement.conditionBlocks, hmissing, Condition.blocks, Graph.Holds]

theorem Program.holds_cons {graph : Graph} {layout : Layout} {number index : Nat} {script : Script Statement}
    {program : Program Statement} : graph.Holds index (Program.blocks layout number index (script :: program)) ↔
      graph.Holds index (script.blocks (layout.position number) index) ∧
        graph.Holds (index + script.size) (Program.blocks layout (number + 1) (index + script.size) program) := by
  rw [Program.blocks, Graph.holds_append, Script.length_blocks]

theorem Program.length_blocks_cons (layout : Layout) (number index : Nat) (script : Script Statement)
    (program : Program Statement) : (Program.blocks layout number index (script :: program)).length =
      script.size + (Program.blocks layout (number + 1) (index + script.size) program).length := by
  rw [Program.blocks, List.length_append, Script.length_blocks]

theorem Condition.slotFor_eq (name : String) (index : Nat) (condition : Condition) :
    condition.slotFor name index = linkTo name (condition.root? index) := by
  cases condition <;> rfl

/-- The condition is a block with these operands; a side without an operand is `missing`. -/
inductive Condition.Splits : Condition → (left right : Condition) → Prop
  | join (connective : Connective) (left right : Condition) : Splits (.join connective left right) left right
  | not (operand : Condition) : Splits (.not operand) operand .missing
  | compare (comparison : Comparison) (left right : String) : Splits (.compare comparison left right) .missing .missing
  | touching (target : String) : Splits (.touching target) .missing .missing
  | touchingColor (color : String) : Splits (.touchingColor color) .missing .missing
  | keyPressed (key : String) : Splits (.keyPressed key) .missing .missing
  | mouseDown : Splits .mouseDown .missing .missing

namespace Condition

/-- Induction on conditions, block by block. -/
theorem splitsRec {motive : Condition → Prop} (missing : motive .missing)
    (step : ∀ {condition left right : Condition}, condition.Splits left right → motive left → motive right →
      motive condition) (condition : Condition) : motive condition := by
  induction condition with
  | missing => exact missing
  | join connective left right ihleft ihright => exact step (.join connective left right) ihleft ihright
  | not operand ih => exact step (.not operand) ih missing
  | compare comparison left right => exact step (.compare comparison left right) missing missing
  | touching target => exact step (.touching target) missing missing
  | touchingColor color => exact step (.touchingColor color) missing missing
  | keyPressed key => exact step (.keyPressed key) missing missing
  | mouseDown => exact step .mouseDown missing missing

namespace Splits

variable {condition left right : Condition} (h : condition.Splits left right)
include h

theorem root? (index : Nat) : condition.root? index = some index := by
  cases h <;> rfl

theorem size : condition.size = 1 + left.size + right.size := by
  cases h <;> rfl

/-- A graph that holds the blocks of a condition holds those of its operands, and its first block links to them. -/
theorem holds {graph : Graph} {parent index : Nat} (hholds : graph.Holds index (condition.blocks parent index)) :
    let other := index + 1 + left.size
    (∃ block, graph.block? index = some block ∧ block.id = provisionalId index ∧ block.parent = some parent ∧
        block.next = none ∧ block.topLevel = false ∧
        block.inner = (left.root? (index + 1)).toList ++ (right.root? other).toList) ∧
      graph.Holds (index + 1) (left.blocks index (index + 1)) ∧ graph.Holds other (right.blocks index other) := by
  have hnone : ∀ first, graph.Holds first [] := fun first offset block hblock => by simp at hblock
  cases h with
  | join =>
    rw [Condition.blocks, Graph.holds_cons, Graph.holds_append, length_blocks] at hholds
    obtain ⟨hblock, hleft, hright⟩ := hholds
    exact ⟨⟨_, hblock, rfl, rfl, rfl, rfl, by simp [Block.inner, slotFor_eq, List.filterMap_append]⟩, hleft, hright⟩
  | not =>
    rw [Condition.blocks, Graph.holds_cons] at hholds
    exact ⟨⟨_, hholds.1, rfl, rfl, rfl, rfl, by simp [Block.inner, slotFor_eq, Condition.root?]⟩, hholds.2, hnone _⟩
  | _ =>
    rw [Condition.blocks, Graph.holds_cons] at hholds
    exact ⟨⟨_, hholds.1, rfl, rfl, rfl, rfl, rfl⟩, hnone _, hnone _⟩

end Splits

theorem parent_of_root? {graph : Graph} {condition : Condition} {parent index target : Nat}
    (hholds : graph.Holds index (condition.blocks parent index)) (htarget : condition.root? index = some target) :
    ∃ block, graph.block? target = some block ∧ block.parent = some parent := by
  cases condition using splitsRec with
  | missing => simp [root?] at htarget
  | step hsplits =>
    obtain rfl : index = target := by simpa [hsplits.root?] using htarget
    obtain ⟨⟨block, hblock, -, hparent, -⟩, -⟩ := hsplits.holds hholds
    exact ⟨block, hblock, hparent⟩

end Condition

end ScratchScript
