import ScratchScript.Proofs.Reading
import ScratchScript.Script

/-!
# Programs

A program is a list of scripts, and a script is a chain of statements, usually below a hat. Chains nest: a statement
with a body holds a chain, and one with an else branch holds two. This is the side of the notation that has no lines, no
markers and no places in a graph.

* `Chain.Written` and `Program.Written` say which lines write a program down: one line for a statement, in any wording
  that says it, and a marker, in any spelling, where a body or a branch ends.
* `Chain.blocks` and `Program.blocks` lay a program out as blocks. A statement comes first, then the blocks of its
  condition, of its body, of its else branch and of what follows it, so that every link goes forward.
-/

namespace ScratchScript

/-! ## Statements and chains of them -/

/-- What a block holds besides its place and its links to other statements, with the condition as it was read. -/
structure Content where
  opcode : Opcode
  literals : List (String × Literal)
  fields : List (String × Field)
  condition : Condition
  deriving DecidableEq, Repr

/-- The condition in the header of a statement, as it is read. -/
def Statement.conditionRead (statement : Statement) : Condition :=
  match statement.condition with
  | some text => Condition.read text.toList
  | none => .missing

def Statement.content (statement : Statement) : Content where
  opcode := statement.opcode
  literals := statement.literals
  fields := statement.fields
  condition := statement.conditionRead

/-- Statements one after the other. -/
inductive Chain (α : Type)
  /-- Nothing more. -/
  | done
  /-- A statement without a body. -/
  | simple (statement : α) (rest : Chain α)
  /-- A statement with a body. -/
  | loop (header : α) (body rest : Chain α)
  /-- A statement with a body and an else branch. -/
  | branch (header : α) (body otherwise rest : Chain α)
  deriving DecidableEq, Repr

/-- A chain on the canvas, usually below a hat. -/
structure Script (α : Type) where
  hat : Option α
  chain : Chain α
  deriving DecidableEq, Repr

/-- Scripts in the order in which they stand on the canvas. -/
abbrev Program (α : Type) := List (Script α)

namespace Chain

variable {α β : Type}

def map (f : α → β) : Chain α → Chain β
  | done => done
  | simple statement rest => simple (f statement) (rest.map f)
  | loop header body rest => loop (f header) (body.map f) (rest.map f)
  | branch header body otherwise rest => branch (f header) (body.map f) (otherwise.map f) (rest.map f)

def All (p : α → Prop) : Chain α → Prop
  | done => True
  | simple statement rest => p statement ∧ rest.All p
  | loop header body rest => p header ∧ body.All p ∧ rest.All p
  | branch header body otherwise rest => p header ∧ body.All p ∧ otherwise.All p ∧ rest.All p

/-- Statements stand where their kind allows: no hat inside a chain, a body exactly where the statement has one, an else
branch only where it can have one. -/
def WellFormed : Chain Statement → Prop
  | done => True
  | simple statement rest =>
    statement.opcode.isHat = false ∧ statement.opcode.opensBody = false ∧ rest.WellFormed
  | loop header body rest => header.opcode.opensBody = true ∧ body.WellFormed ∧ rest.WellFormed
  | branch header body otherwise rest =>
    header.opcode.acceptsElse = true ∧ body.WellFormed ∧ otherwise.WellFormed ∧ rest.WellFormed

end Chain

namespace Script

variable {α β : Type}

def map (f : α → β) (script : Script α) : Script β :=
  ⟨script.hat.map f, script.chain.map f⟩

def All (p : α → Prop) (script : Script α) : Prop :=
  (∀ hat, script.hat = some hat → p hat) ∧ script.chain.All p

/-- A hat on top, if there is one, and a well-formed chain, which is not empty if there is none. -/
def WellFormed (script : Script Statement) : Prop :=
  (∀ hat, script.hat = some hat → hat.opcode.isHat = true) ∧ (script.hat = none → script.chain ≠ .done) ∧
    script.chain.WellFormed

end Script

/-- Well-formed scripts, of which only the first may lack its hat. -/
def Program.WellFormed (program : Program Statement) : Prop :=
  (∀ script ∈ program, script.WellFormed) ∧ ∀ script ∈ program.tail, script.hat ≠ none

/-! ## Writing a program down -/

def SourceLine.Says (line : SourceLine) (statement : Statement) : Prop :=
  Statement.ofLine? line.text.toList = some statement

def SourceLine.Marks (line : SourceLine) (marker : Source.Marker) : Prop :=
  Source.Marker.ofLine? line.text.toList = some marker

/-- The lines write the chain down. -/
inductive Chain.Written : Chain Statement → List SourceLine → Prop
  | done : Written .done []
  | simple {line : SourceLine} {statement : Statement} {rest : Chain Statement} {after : List SourceLine} :
      line.Says statement → Written rest after → Written (.simple statement rest) (line :: after)
  | loop {line close : SourceLine} {header : Statement} {body rest : Chain Statement} {inner after : List SourceLine} :
      line.Says header → Written body inner → close.Marks .close → Written rest after →
      Written (.loop header body rest) (line :: (inner ++ close :: after))
  | branch {line middle close : SourceLine} {header : Statement} {body otherwise rest : Chain Statement}
      {inner other after : List SourceLine} :
      line.Says header → Written body inner → middle.Marks .otherwise → Written otherwise other →
      close.Marks .close → Written rest after →
      Written (.branch header body otherwise rest) (line :: (inner ++ middle :: (other ++ close :: after)))

/-- The lines write the script down. -/
inductive Script.Written : Script Statement → List SourceLine → Prop
  | hat {line : SourceLine} {hat : Statement} {chain : Chain Statement} {lines : List SourceLine} :
      line.Says hat → chain.Written lines → Written ⟨some hat, chain⟩ (line :: lines)
  | headless {chain : Chain Statement} {lines : List SourceLine} : chain.Written lines → Written ⟨none, chain⟩ lines

/-- The lines write the program down. -/
inductive Program.Written : Program Statement → List SourceLine → Prop
  | nil : Written [] []
  | cons {script : Script Statement} {program : Program Statement} {lines after : List SourceLine} :
      script.Written lines → Written program after → Written (script :: program) (lines ++ after)

/-! ## Laying a program out -/

/-- Where the blocks of the condition start, if it has any. -/
def Condition.root? (index : Nat) : Condition → Option Nat
  | missing => none
  | _ => some index

/-- The block with a slot that holds another one, if there is one to hold. -/
def Block.holding (block : Block) (name : String) : Option Nat → Block
  | none => block
  | some target => block.setInput name (.block target)

namespace Statement

def size (statement : Statement) : Nat :=
  1 + statement.conditionRead.size

/-- The block of the statement at a place, with its condition in its slot. -/
def block (spot : Option Position) (parent : Option Nat) (index : Nat) (statement : Statement) : Block :=
  { Block.ofStatement (provisionalId index) statement with
    parent := parent, topLevel := spot.isSome, position := spot : Block }.holding "CONDITION"
    (statement.conditionRead.root? (index + 1))

/-- The blocks of the condition of a statement at a place. -/
def conditionBlocks (index : Nat) (statement : Statement) : List Block :=
  statement.conditionRead.blocks index (index + 1)

end Statement

namespace Chain

def size : Chain Statement → Nat
  | done => 0
  | simple statement rest => statement.size + rest.size
  | loop header body rest => header.size + body.size + rest.size
  | branch header body otherwise rest => header.size + body.size + otherwise.size + rest.size

/-- Where the chain starts if it is laid out from the place on. -/
def start? (index : Nat) : Chain Statement → Option Nat
  | done => none
  | _ => some index

/-- The last statement of the chain if it is laid out from the place on, or `last` if there is none. -/
def lastFrom (last : Option Nat) (index : Nat) : Chain Statement → Option Nat
  | done => last
  | simple statement rest => rest.lastFrom (some index) (index + statement.size)
  | loop header body rest => rest.lastFrom (some index) (index + header.size + body.size)
  | branch header body otherwise rest =>
    rest.lastFrom (some index) (index + header.size + body.size + otherwise.size)

/-- The blocks of the chain, of which the first has the place `index`. All its statements have the same parent; only
the first one may stand on the canvas. -/
def blocks (spot : Option Position) (parent : Option Nat) (index : Nat) : Chain Statement → List Block
  | done => []
  | simple statement rest =>
    let after := index + statement.size
    { statement.block spot parent index with next := rest.start? after } ::
      (statement.conditionBlocks index ++ rest.blocks none parent after)
  | loop header body rest =>
    let inner := index + header.size
    let after := inner + body.size
    { (header.block spot parent index).holding Slot.body.name (body.start? inner) with next := rest.start? after } ::
      (header.conditionBlocks index ++ body.blocks none (some index) inner ++ rest.blocks none parent after)
  | branch header body otherwise rest =>
    let inner := index + header.size
    let other := inner + body.size
    let after := other + otherwise.size
    let upgraded :=
      { (header.block spot parent index).holding Slot.body.name (body.start? inner) with opcode := .ifElse }
    { upgraded.holding Slot.elseBranch.name (otherwise.start? other) with next := rest.start? after } ::
      (header.conditionBlocks index ++ body.blocks none (some index) inner ++
        otherwise.blocks none (some index) other ++ rest.blocks none parent after)

end Chain

namespace Script

def size (script : Script Statement) : Nat :=
  (if script.hat.isSome then 1 else 0) + script.chain.size

/-- The blocks of the script, of which the first has the place `index` and stands on the canvas. -/
def blocks (position : Position) (index : Nat) (script : Script Statement) : List Block :=
  match script.hat with
  | some hat =>
    { hat.block (some position) none index with next := script.chain.start? (index + 1) } ::
      script.chain.blocks none (some index) (index + 1)
  | none => script.chain.blocks (some position) none index

end Script

/-- The blocks of the scripts, of which the first has the number `number` and the place `index`. -/
def Program.blocks (layout : Layout) (number index : Nat) : Program Statement → List Block
  | [] => []
  | script :: program =>
    script.blocks (layout.position number) index ++ blocks layout (number + 1) (index + script.size) program

def Program.graph (layout : Layout) (program : Program Statement) : Graph :=
  ⟨(program.blocks layout 0 0).toArray⟩

/-! ## Links of the blocks of a program -/

section Holding

variable (block : Block) (name : String) (target : Option Nat)

@[simp] theorem Block.holding_id : (block.holding name target).id = block.id := by
  cases target <;> rfl

@[simp] theorem Block.holding_opcode : (block.holding name target).opcode = block.opcode := by
  cases target <;> rfl

@[simp] theorem Block.holding_parent : (block.holding name target).parent = block.parent := by
  cases target <;> rfl

@[simp] theorem Block.holding_next : (block.holding name target).next = block.next := by
  cases target <;> rfl

@[simp] theorem Block.holding_fields : (block.holding name target).fields = block.fields := by
  cases target <;> rfl

@[simp] theorem Block.holding_topLevel : (block.holding name target).topLevel = block.topLevel := by
  cases target <;> rfl

@[simp] theorem Block.holding_position : (block.holding name target).position = block.position := by
  cases target <;> rfl

end Holding

section StatementBlock

variable (spot : Option Position) (parent : Option Nat) (index : Nat) (statement : Statement)

@[simp] theorem Statement.block_opcode : (statement.block spot parent index).opcode = statement.opcode := by
  simp [block, Block.ofStatement]

@[simp] theorem Statement.block_parent : (statement.block spot parent index).parent = parent := by
  simp [block]

@[simp] theorem Statement.block_next : (statement.block spot parent index).next = none := by
  simp [block, Block.ofStatement]

@[simp] theorem Statement.block_fields : (statement.block spot parent index).fields = statement.fields := by
  simp [block, Block.ofStatement]

@[simp] theorem Statement.block_topLevel : (statement.block spot parent index).topLevel = spot.isSome := by
  simp [block]

@[simp] theorem Statement.block_position : (statement.block spot parent index).position = spot := by
  simp [block]

end StatementBlock

theorem Opcode.isHat_of_opensBody {opcode : Opcode} (h : opcode.opensBody = true) : opcode.isHat = false := by
  cases opcode <;> simp [opensBody] at h <;> rfl

theorem Opcode.opensBody_of_acceptsElse {opcode : Opcode} (h : opcode.acceptsElse = true) :
    opcode.opensBody = true := by
  cases opcode <;> simp [acceptsElse] at h <;> rfl

theorem Opcode.eq_ifThen_of_acceptsElse {opcode : Opcode} (h : opcode.acceptsElse = true) (hne : opcode ≠ .ifElse) :
    opcode = .ifThen := by
  cases opcode <;> simp [acceptsElse] at h hne ⊢

theorem Chain.start?_of_ne_done {chain : Chain Statement} (h : chain ≠ .done) (index : Nat) :
    chain.start? index = some index := by
  cases chain <;> simp [start?] at h ⊢

/-! ## Sizes -/

theorem Condition.length_blocks (parent index : Nat) (condition : Condition) :
    (condition.blocks parent index).length = condition.size := by
  induction condition generalizing parent index with
  | join connective left right ihl ihr =>
    simp only [Condition.blocks, Condition.size, List.length_cons, List.length_append, ihl, ihr]
    omega
  | not operand ih =>
    simp only [Condition.blocks, Condition.size, List.length_cons, ih]
    omega
  | _ => rfl

theorem Condition.of_mem_blocks {condition : Condition} {parent index : Nat} {block : Block}
    (h : block ∈ condition.blocks parent index) :
    (∃ node : Condition, node.opcode? = some block.opcode) ∧ block.topLevel = false ∧ block.position = none := by
  induction condition generalizing parent index with
  | missing => simp [Condition.blocks] at h
  | join connective left right ihleft ihright =>
    rcases List.mem_cons.1 h with rfl | hmem
    · exact ⟨⟨.join connective left right, rfl⟩, rfl, rfl⟩
    · rcases List.mem_append.1 hmem with hmem | hmem
      · exact ihleft hmem
      · exact ihright hmem
  | not operand ih =>
    rcases List.mem_cons.1 h with rfl | hmem
    · exact ⟨⟨.not operand, rfl⟩, rfl, rfl⟩
    · exact ih hmem
  | compare comparison left right =>
    obtain rfl := List.mem_singleton.1 h
    exact ⟨⟨.compare comparison left right, rfl⟩, rfl, rfl⟩
  | touching target =>
    obtain rfl := List.mem_singleton.1 h
    exact ⟨⟨.touching target, rfl⟩, rfl, rfl⟩
  | touchingColor color =>
    obtain rfl := List.mem_singleton.1 h
    exact ⟨⟨.touchingColor color, rfl⟩, rfl, rfl⟩
  | keyPressed key =>
    obtain rfl := List.mem_singleton.1 h
    exact ⟨⟨.keyPressed key, rfl⟩, rfl, rfl⟩
  | mouseDown =>
    obtain rfl := List.mem_singleton.1 h
    exact ⟨⟨.mouseDown, rfl⟩, rfl, rfl⟩

theorem Statement.length_conditionBlocks (index : Nat) (statement : Statement) :
    (statement.conditionBlocks index).length = statement.conditionRead.size :=
  Condition.length_blocks _ _ _

theorem Statement.after_conditionBlocks (index : Nat) (statement : Statement) :
    index + 1 + (statement.conditionBlocks index).length = index + statement.size := by
  rw [length_conditionBlocks, size, Nat.add_assoc]

theorem Chain.length_blocks (spot : Option Position) (parent : Option Nat) (index : Nat) (chain : Chain Statement) :
    (chain.blocks spot parent index).length = chain.size := by
  induction chain generalizing spot parent index with
  | done => rfl
  | simple statement rest ih =>
    simp only [Chain.blocks, Chain.size, List.length_cons, List.length_append, Statement.length_conditionBlocks, ih,
      Statement.size]
    omega
  | loop header body rest ihb ihr =>
    simp only [Chain.blocks, Chain.size, List.length_cons, List.length_append, Statement.length_conditionBlocks, ihb,
      ihr, Statement.size]
    omega
  | branch header body otherwise rest ihb iho ihr =>
    simp only [Chain.blocks, Chain.size, List.length_cons, List.length_append, Statement.length_conditionBlocks, ihb,
      iho, ihr, Statement.size]
    omega

theorem Chain.after_body (index : Nat) (header : Statement) (body : Chain Statement) :
    index + 1 + (header.conditionBlocks index ++ body.blocks none (some index) (index + header.size)).length =
      index + header.size + body.size := by
  have hinner := header.after_conditionBlocks index
  rw [List.length_append, length_blocks]
  omega

theorem Chain.after_otherwise (index : Nat) (header : Statement) (body otherwise : Chain Statement) :
    index + 1 + (header.conditionBlocks index ++ body.blocks none (some index) (index + header.size) ++
        otherwise.blocks none (some index) (index + header.size + body.size)).length =
      index + header.size + body.size + otherwise.size := by
  have hother := Chain.after_body index header body
  rw [List.length_append, length_blocks]
  omega

theorem Script.length_blocks (position : Position) (index : Nat) (script : Script Statement) :
    (script.blocks position index).length = script.size := by
  obtain ⟨_ | hat, chain⟩ := script
  · simp [Script.blocks, Script.size, Chain.length_blocks]
  · simp only [Script.blocks, Script.size, List.length_cons, Chain.length_blocks, Option.isSome_some, if_true]
    omega

theorem Statement.conditionRead_of_isHat {hat : Statement} (h : hat.Regular) (hhat : hat.opcode.isHat = true) :
    hat.conditionRead = .missing := by
  simp [conditionRead, h.condition_of_isHat hhat]

end ScratchScript
