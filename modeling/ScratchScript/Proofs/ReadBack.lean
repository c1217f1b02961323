import ScratchScript.Proofs.Preorder

/-!
# Reading a program back

`Graph.program?` reads a program off a graph: it follows the links of its blocks and looks at nothing else. Reading the
graph of a program gives the program (`program?_graph`), so that notation which writes a program down loses nothing on
its way into blocks (`ofLines_readBack`): every statement is where it was written, with its condition as it was read,
and no line is skipped or warned about.

Reading is bounded by a number of blocks, and the size of the graph is always enough, since a part of a program is never
longer than its blocks are many.
-/

namespace ScratchScript

/-! ## Reading blocks -/

def Input.literal? : Input → Option Literal
  | literal text => some text
  | block _ => none

namespace Block

/-- The place of the block in the slot of that name. -/
def target? (block : Block) (name : String) : Option Nat :=
  (block.input? name).bind Input.target?

/-- The text in the slot of that name, if it is of the kind. -/
def text? (block : Block) (name : String) (kind : LiteralKind) : Option String :=
  ((block.input? name).bind Input.literal?).bind fun literal =>
    if literal.kind = kind then some literal.value else none

def literals (block : Block) : List (String × Literal) :=
  block.inputs.filterMap fun (name, input) => input.literal?.map fun literal => (name, literal)

/-- The condition of a block, with `read` for its operands. -/
def condition? (read : Option Nat → Option Condition) (block : Block) : Option Condition := do
  match block.opcode with
  | .and => return .join .and (← read (block.target? "OPERAND1")) (← read (block.target? "OPERAND2"))
  | .or => return .join .or (← read (block.target? "OPERAND1")) (← read (block.target? "OPERAND2"))
  | .not => return .not (← read (block.target? "OPERAND"))
  | .greaterThan => return .compare .greater (← block.text? "OPERAND1" .text) (← block.text? "OPERAND2" .text)
  | .lessThan => return .compare .less (← block.text? "OPERAND1" .text) (← block.text? "OPERAND2" .text)
  | .equals => return .compare .equal (← block.text? "OPERAND1" .text) (← block.text? "OPERAND2" .text)
  | .touchingObject => return .touching (← block.text? "TOUCHINGOBJECTMENU" .text)
  | .touchingColor => return .touchingColor (← block.text? "COLOR" .color)
  | .keyPressed => return .keyPressed (← block.text? "KEY_OPTION" .text)
  | .mouseDown => return .mouseDown
  | _ => none

end Block

/-- A chain from its first block and what is below and after it. A block of the kind `ifElse` is a branch; any other one
has nothing in its else branch, and a body only if it is of a kind that has one. -/
def Chain.ofParts? (content : Content) (body otherwise rest : Chain Content) : Option (Chain Content) :=
  if content.opcode = .ifElse then some (.branch { content with opcode := .ifThen } body otherwise rest)
  else
    match content.opcode.opensBody, body, otherwise with
    | true, body, .done => some (.loop content body rest)
    | false, .done, .done => some (.simple content rest)
    | _, _, _ => none

namespace Graph

/-- The condition whose blocks start at the place, if they are not nested deeper than `fuel`. -/
def conditionAt? (graph : Graph) : (fuel : Nat) → Option Nat → Option Condition
  | _, none => some .missing
  | 0, some _ => none
  | fuel + 1, some index => do
    let block ← graph.block? index
    block.condition? (graph.conditionAt? fuel)

/-- What a block holds, with its condition. -/
def contentOf? (graph : Graph) (fuel : Nat) (block : Block) : Option Content := do
  let condition ← graph.conditionAt? fuel (block.target? "CONDITION")
  return ⟨block.opcode, block.literals, block.fields, condition⟩

/-- The chain that starts at the place, if no way through it is longer than `fuel`. -/
def chainAt? (graph : Graph) : (fuel : Nat) → Option Nat → Option (Chain Content)
  | _, none => some .done
  | 0, some _ => none
  | fuel + 1, some index => do
    let block ← graph.block? index
    let content ← graph.contentOf? fuel block
    let body ← graph.chainAt? fuel (block.target? Slot.body.name)
    let otherwise ← graph.chainAt? fuel (block.target? Slot.elseBranch.name)
    let rest ← graph.chainAt? fuel block.next
    Chain.ofParts? content body otherwise rest

def scriptAt? (graph : Graph) (fuel : Nat) (index : Nat) : Option (Script Content) := do
  let block ← graph.block? index
  if block.opcode.isHat then
    return ⟨some (← graph.contentOf? fuel block), ← graph.chainAt? fuel block.next⟩
  else
    return ⟨none, ← graph.chainAt? fuel (some index)⟩

def program? (graph : Graph) : Option (Program Content) :=
  graph.topLevel.mapM (graph.scriptAt? graph.size)

end Graph

/-! ## Reading a condition back -/

variable {graph : Graph}

theorem Block.target?_of_inputs {block : Block} {front after : List (String × Input)} {name : String}
    {target : Option Nat} (hinputs : block.inputs = front ++ linkTo name target ++ after)
    (hfront : ∀ entry ∈ front, entry.1 ≠ name) (hafter : ∀ entry ∈ after, entry.1 ≠ name) :
    block.target? name = target := by
  have hnone : ∀ entries : List (String × Input), (∀ entry ∈ entries, entry.1 ≠ name) → entries.lookup name = none :=
    fun entries h => List.lookup_eq_none_iff.2 fun entry hmem => by simpa using (h entry hmem).symm
  rw [target?, input?, hinputs, List.lookup_append, List.lookup_append, hnone front hfront, hnone after hafter]
  cases target <;> simp [linkTo]

theorem Condition.Splits.condition?_of_holds {condition left right : Condition} (h : condition.Splits left right)
    {parent index : Nat} (hholds : graph.Holds index (condition.blocks parent index))
    {read : Option Nat → Option Condition} (hleft : read (left.root? (index + 1)) = some left)
    (hright : read (right.root? (index + 1 + left.size)) = some right) :
    (graph.block? index).bind (Block.condition? read) = some condition := by
  cases h with
  | join connective =>
    rw [Condition.blocks, Graph.holds_cons] at hholds
    obtain ⟨block, hblock, hopcode, hinputs⟩ : ∃ block, graph.block? index = some block ∧
        block.opcode = connective.opcode ∧ block.inputs = linkTo "OPERAND1" (left.root? (index + 1)) ++
          linkTo "OPERAND2" (right.root? (index + 1 + left.size)) :=
      ⟨_, hholds.1, rfl, by simp only [slotFor_eq]⟩
    have hfirst : block.target? "OPERAND1" = left.root? (index + 1) :=
      @Block.target?_of_inputs block [] _ _ _ hinputs (by simp) (linkTo_ne (by decide) _)
    have hsecond : block.target? "OPERAND2" = right.root? (index + 1 + left.size) :=
      Block.target?_of_inputs (hinputs.trans (List.append_nil _).symm) (linkTo_ne (by decide) _) (by simp)
    rw [hblock, Option.bind_some]
    cases connective <;> simp [Block.condition?, hopcode, Connective.opcode, hfirst, hsecond, hleft, hright]
  | not =>
    rw [Condition.blocks, Graph.holds_cons] at hholds
    obtain ⟨block, hblock, hopcode, hinputs⟩ : ∃ block, graph.block? index = some block ∧ block.opcode = .not ∧
        block.inputs = [] ++ linkTo "OPERAND" (left.root? (index + 1)) ++ [] :=
      ⟨_, hholds.1, rfl, by simp [slotFor_eq]⟩
    have hoperand := Block.target?_of_inputs hinputs (by simp) (by simp)
    rw [hblock, Option.bind_some]
    simp [Block.condition?, hopcode, hoperand, hleft]
  | compare comparison =>
    rw [Condition.blocks, Graph.holds_cons] at hholds
    rw [hholds.1, Option.bind_some]
    cases comparison <;> rfl
  | _ =>
    rw [Condition.blocks, Graph.holds_cons] at hholds
    rw [hholds.1, Option.bind_some]
    rfl

theorem Condition.conditionAt?_of_holds (condition : Condition) {parent index fuel : Nat}
    (hholds : graph.Holds index (condition.blocks parent index)) (hfuel : condition.size ≤ fuel) :
    graph.conditionAt? fuel (condition.root? index) = some condition := by
  induction condition using Condition.splitsRec generalizing parent index fuel with
  | missing => simp [Condition.root?, Graph.conditionAt?]
  | @step condition left right hsplits ihleft ihright =>
    obtain ⟨-, hleft, hright⟩ := hsplits.holds hholds
    rw [hsplits.size] at hfuel
    obtain ⟨fuel, rfl⟩ : ∃ less, fuel = less + 1 := ⟨fuel - 1, by omega⟩
    rw [hsplits.root?]
    exact hsplits.condition?_of_holds hholds (ihleft hleft (by omega)) (ihright hright (by omega))

/-! ## Reading statements back -/

namespace Statement

variable {statement : Statement} (hregular : statement.Regular) (spot : Option Position) (parent : Option Nat)
  (index : Nat) (opcode : Opcode) (body otherwise next : Option Nat)
include hregular

theorem target?_linked_condition :
    (statement.linked spot parent index opcode body otherwise next).target? "CONDITION" =
      statement.conditionRead.root? (index + 1) := by
  refine Block.target?_of_inputs (List.append_assoc _ _ _) (hregular.literal_ne (by decide)) ?_
  rw [List.forall_mem_append]
  exact ⟨linkTo_ne (by decide) _, linkTo_ne (by decide) _⟩

theorem target?_linked_body :
    (statement.linked spot parent index opcode body otherwise next).target? Slot.body.name = body := by
  refine Block.target?_of_inputs rfl ?_ (linkTo_ne (by decide) _)
  rw [List.forall_mem_append]
  exact ⟨hregular.literal_ne (by decide), linkTo_ne (by decide) _⟩

theorem target?_linked_otherwise :
    (statement.linked spot parent index opcode body otherwise next).target? Slot.elseBranch.name = otherwise := by
  refine Block.target?_of_inputs (List.append_nil _).symm ?_ (by simp)
  rw [List.forall_mem_append, List.forall_mem_append]
  exact ⟨⟨hregular.literal_ne (by decide), linkTo_ne (by decide) _⟩, linkTo_ne (by decide) _⟩

omit hregular in
theorem literals_linked :
    (statement.linked spot parent index opcode body otherwise next).literals = statement.literals := by
  have hlinks : ∀ name (target : Option Nat),
      (linkTo name target).filterMap (fun (name, input) => input.literal?.map fun literal => (name, literal)) = [] := by
    intro name target
    cases target <;> rfl
  have hliterals : ∀ entry : String × Literal,
      (Input.literal entry.2).literal?.map (fun literal => (entry.1, literal)) = some entry := fun _ => rfl
  simp [Block.literals, linked, inputs, List.filterMap_append, List.filterMap_map, hlinks, hliterals]

theorem contentOf?_linked (hcondition : graph.Holds (index + 1) (statement.conditionBlocks index)) {fuel : Nat}
    (hfuel : statement.conditionRead.size ≤ fuel) :
    graph.contentOf? fuel (statement.linked spot parent index opcode body otherwise next) =
      some { statement.content with opcode := opcode } := by
  rw [Graph.contentOf?, target?_linked_condition hregular, Condition.conditionAt?_of_holds _ hcondition hfuel,
    literals_linked]
  rfl

theorem chainAt?_linked
    (hblock : graph.block? index = some (statement.linked spot parent index opcode body otherwise next))
    (hcondition : graph.Holds (index + 1) (statement.conditionBlocks index)) {fuel : Nat}
    (hfuel : statement.conditionRead.size ≤ fuel) {below other after : Chain Content}
    (hbelow : graph.chainAt? fuel body = some below) (hother : graph.chainAt? fuel otherwise = some other)
    (hafter : graph.chainAt? fuel next = some after) :
    graph.chainAt? (fuel + 1) (some index) =
      Chain.ofParts? { statement.content with opcode := opcode } below other after := by
  have hnext : (statement.linked spot parent index opcode body otherwise next).next = next := rfl
  simp [Graph.chainAt?, hblock, contentOf?_linked hregular _ _ _ _ _ _ _ hcondition hfuel,
    target?_linked_body hregular, target?_linked_otherwise hregular, hnext, hbelow, hother, hafter]

end Statement

/-! ## Reading programs back -/

theorem Statement.Regular.opcode_of_acceptsElse {statement : Statement} (h : statement.Regular)
    (haccepts : statement.opcode.acceptsElse = true) : statement.opcode = .ifThen :=
  Opcode.eq_ifThen_of_acceptsElse haccepts h.opcode_ne

theorem Chain.Splits.ofParts? {chain : Chain Statement} {header : Statement} {opcode : Opcode}
    {body otherwise rest : Chain Statement} (h : chain.Splits header opcode body otherwise rest)
    (hregular : header.Regular) (hformed : chain.WellFormed) :
    Chain.ofParts? { header.content with opcode := opcode } (body.map Statement.content)
      (otherwise.map Statement.content) (rest.map Statement.content) = some (chain.map Statement.content) := by
  cases h with
  | simple => simp [Chain.ofParts?, Chain.map, Statement.content, hregular.opcode_ne, hformed.2.1]
  | loop => simp [Chain.ofParts?, Chain.map, Statement.content, hregular.opcode_ne, hformed.1]
  | branch =>
    simp [Chain.ofParts?, Chain.map, Statement.content, hregular.opcode_of_acceptsElse hformed.1]

theorem Chain.chainAt?_of_holds (chain : Chain Statement) (hregular : chain.All Statement.Regular)
    (hformed : chain.WellFormed) {spot : Option Position} {parent : Option Nat} {index fuel : Nat}
    (hholds : graph.Holds index (chain.blocks spot parent index)) (hfuel : chain.size ≤ fuel) :
    graph.chainAt? fuel (chain.start? index) = some (chain.map Statement.content) := by
  induction chain using Chain.splitsRec generalizing spot parent index fuel with
  | done => simp [Chain.start?, Graph.chainAt?, Chain.map]
  | @step chain header opcode body otherwise rest hsplits ihbody ihother ihrest =>
    obtain ⟨hheader, hbodyRegular, hotherRegular, hrestRegular⟩ := hsplits.all hregular
    obtain ⟨hbodyFormed, hotherFormed, hrestFormed⟩ := hsplits.wellFormed hformed
    obtain ⟨hblock, hcondition, hbody, hother, hrest⟩ := hsplits.holds hheader hholds
    rw [hsplits.size, Statement.size] at hfuel
    obtain ⟨fuel, rfl⟩ : ∃ less, fuel = less + 1 := ⟨fuel - 1, by omega⟩
    have hbodyRead := ihbody hbodyRegular hbodyFormed hbody (show body.size ≤ fuel by omega)
    have hotherRead := ihother hotherRegular hotherFormed hother (show otherwise.size ≤ fuel by omega)
    have hrestRead := ihrest hrestRegular hrestFormed hrest (show rest.size ≤ fuel by omega)
    rw [hsplits.start?, Statement.chainAt?_linked hheader _ _ _ _ _ _ _ hblock hcondition (by omega) hbodyRead
      hotherRead hrestRead]
    exact hsplits.ofParts? hheader hformed

theorem Script.scriptAt?_of_holds {script : Script Statement} (hregular : script.All Statement.Regular)
    (hformed : script.WellFormed) {position : Position} {index fuel : Nat}
    (hholds : graph.Holds index (script.blocks position index)) (hfuel : script.size ≤ fuel) :
    graph.scriptAt? fuel index = some (script.map Statement.content) := by
  obtain ⟨hat?, chain⟩ := script
  obtain ⟨hhats, hheadless, hchainFormed⟩ := hformed
  obtain ⟨hhatRegular, hchainRegular⟩ := hregular
  cases hat? with
  | none =>
    have hchain : graph.Holds index (chain.blocks (some position) none index) := hholds
    have hread := chain.chainAt?_of_holds hchainRegular hchainFormed hchain (by simpa [Script.size] using hfuel)
    cases chain using Chain.splitsRec with
    | done => exact absurd rfl (hheadless rfl)
    | step hsplits =>
      obtain ⟨hblock, -⟩ := hsplits.holds (hsplits.all hchainRegular).1 hchain
      rw [hsplits.start?] at hread
      simp [Graph.scriptAt?, hblock, Statement.linked, hsplits.isHat hchainFormed, hread, Script.map]
  | some hat =>
    have hhat := hhats hat rfl
    obtain ⟨hblock, hcondition, hchain⟩ := Script.holds_hat (hhatRegular hat rfl) hhat hholds
    have hmissing := Statement.conditionRead_of_isHat (hhatRegular hat rfl) hhat
    simp only [Script.size, Option.isSome_some, if_true] at hfuel
    have hread := chain.chainAt?_of_holds hchainRegular hchainFormed hchain (show chain.size ≤ fuel by omega)
    have hcontent := Statement.contentOf?_linked (hhatRegular hat rfl) (some position) none index hat.opcode none none
      (chain.start? (index + 1)) hcondition (show hat.conditionRead.size ≤ fuel by rw [hmissing]; exact Nat.zero_le _)
    have hopcode : (hat.linked (some position) none index hat.opcode none none
      (chain.start? (index + 1))).opcode.isHat = true := hhat
    have hnext : (hat.linked (some position) none index hat.opcode none none (chain.start? (index + 1))).next =
      chain.start? (index + 1) := rfl
    simp [Graph.scriptAt?, hblock, hopcode, hcontent, hnext, hread, Script.map, Statement.content]

theorem Program.mapM_scriptAt? {program : Program Statement}
    (hregular : ∀ script ∈ program, script.All Statement.Regular) (hformed : ∀ script ∈ program, script.WellFormed)
    {layout : Layout} {number index fuel : Nat} (hholds : graph.Holds index (program.blocks layout number index))
    (hfuel : (program.blocks layout number index).length ≤ fuel) :
    (program.starts index).mapM (graph.scriptAt? fuel) = some (program.map (Script.map Statement.content)) := by
  induction program generalizing number index with
  | nil => rfl
  | cons script program ih =>
    obtain ⟨hscriptRegular, hothersRegular⟩ := List.forall_mem_cons.1 hregular
    obtain ⟨hscriptFormed, hothersFormed⟩ := List.forall_mem_cons.1 hformed
    obtain ⟨hscript, hothers⟩ := Program.holds_cons.1 hholds
    rw [Program.length_blocks_cons] at hfuel
    have hscriptRead := Script.scriptAt?_of_holds hscriptRegular hscriptFormed hscript
      (show script.size ≤ fuel by omega)
    have hothersRead := ih hothersRegular hothersFormed hothers (by omega)
    simp [Program.starts, List.mapM_cons, hscriptRead, hothersRead]

/-- Reading the graph of a program gives the program. -/
theorem Program.program?_graph {program : Program Statement}
    (hregular : ∀ script ∈ program, script.All Statement.Regular) (hformed : program.WellFormed) (layout : Layout) :
    (program.graph layout).program? = some (program.map (Script.map Statement.content)) := by
  rw [Graph.program?, Program.topLevel_graph hregular hformed]
  exact Program.mapM_scriptAt? hregular hformed.1 (program.graph layout).holds_toList
    (program.graph layout).size_eq_length.ge

/-! ## Reading does not depend on ids -/

namespace Graph

variable (graph : Graph) (label : Nat → String)

theorem conditionAt?_relabel (fuel : Nat) (place : Option Nat) :
    (graph.relabel label).conditionAt? fuel place = graph.conditionAt? fuel place := by
  induction fuel generalizing place with
  | zero => cases place <;> rfl
  | succ fuel ih =>
    cases place with
    | none => rfl
    | some index =>
      have hread : (graph.relabel label).conditionAt? fuel = graph.conditionAt? fuel := funext ih
      simp only [conditionAt?, block?_relabel, hread, Option.bind_eq_bind, Option.bind_map]
      rfl

theorem contentOf?_relabel (fuel : Nat) (block : Block) (id : String) :
    (graph.relabel label).contentOf? fuel { block with id := id } = graph.contentOf? fuel block := by
  rw [contentOf?, conditionAt?_relabel]
  rfl

theorem chainAt?_relabel (fuel : Nat) (place : Option Nat) :
    (graph.relabel label).chainAt? fuel place = graph.chainAt? fuel place := by
  induction fuel generalizing place with
  | zero => cases place <;> rfl
  | succ fuel ih =>
    cases place with
    | none => rfl
    | some index =>
      simp only [chainAt?, block?_relabel, Option.bind_eq_bind, Option.bind_map, Function.comp_def,
        contentOf?_relabel, ih]
      rfl

theorem program?_relabel : (graph.relabel label).program? = graph.program? := by
  have hscript : (graph.relabel label).scriptAt? graph.size = graph.scriptAt? graph.size := by
    funext index
    simp only [scriptAt?, block?_relabel, Option.bind_eq_bind, Option.bind_map, Function.comp_def,
      contentOf?_relabel, chainAt?_relabel]
  rw [program?, topLevel_relabel, size_relabel, hscript, program?]

end Graph

/-- Whatever lines write a program down, their graph gives the program back, and none of them is skipped or warned
about. -/
theorem ofLines_readBack (layout : Layout) (seed : UInt64) {program : Program Statement} (hformed : program.WellFormed)
    {lines : List SourceLine} (hwritten : program.Written lines) :
    let compiled := (Compiled.ofAssembly (.ofLines layout lines)).seeded seed
    compiled.graph.program? = some (program.map (Script.map Statement.content)) ∧ compiled.skipped = [] ∧
      compiled.warnings = [] := by
  obtain ⟨hgraph, hskipped, hwarnings⟩ := @Assembly.ofLines_written layout program lines hwritten hformed
  refine ⟨?_, congrArg Array.toList hskipped, congrArg Array.toList hwarnings⟩
  rw [Compiled.seeded, Compiled.relabel, Graph.program?_relabel, Compiled.ofAssembly, hgraph]
  exact program.program?_graph hwritten.regular hformed layout

/-- An else branch inside a loop, below an empty body, and a statement after the loop. -/
theorem ofLines_readBack_nested :
    let lines : List SourceLine :=
      [⟨1, "when green flag clicked"⟩, ⟨2, "repeat (3)"⟩, ⟨3, "if <mouse down?> then"⟩, ⟨4, "sino"⟩, ⟨5, "show"⟩,
        ⟨6, "fin"⟩, ⟨7, "end"⟩, ⟨8, "hide"⟩]
    let compiled := (Compiled.ofAssembly (.ofLines {} lines)).seeded 7
    compiled.graph.program? = some [⟨some ⟨.whenFlagClicked, [], [], .missing⟩,
        .loop ⟨.repeatTimes, [("TIMES", ⟨.whole, "3"⟩)], [], .missing⟩
          (.branch ⟨.ifThen, [], [], .mouseDown⟩ .done (.simple ⟨.showSprite, [], [], .missing⟩ .done) .done)
          (.simple ⟨.hideSprite, [], [], .missing⟩ .done)⟩] ∧
      compiled.skipped = [] ∧ compiled.warnings = [] := by
  intro lines compiled
  let program : Program Statement :=
    [⟨some ⟨.whenFlagClicked, [], [], none⟩,
      .loop ⟨.repeatTimes, [("TIMES", ⟨.whole, "3"⟩)], [], none⟩
        (.branch ⟨.ifThen, [], [], some "<mouse down?>"⟩ .done (.simple ⟨.showSprite, [], [], none⟩ .done) .done)
        (.simple ⟨.hideSprite, [], [], none⟩ .done)⟩]
  have hformed : program.WellFormed := by
    simp [program, Program.WellFormed, Script.WellFormed, Chain.WellFormed, Opcode.isHat, Opcode.opensBody,
      Opcode.acceptsElse]
  have hflag : Statement.ofLine? "when green flag clicked".toList = some ⟨.whenFlagClicked, [], [], none⟩ := by
    decide +kernel
  have hrepeat : Statement.ofLine? "repeat (3)".toList =
      some ⟨.repeatTimes, [("TIMES", ⟨.whole, "3"⟩)], [], none⟩ := by
    decide +kernel
  have hif : Statement.ofLine? "if <mouse down?> then".toList = some ⟨.ifThen, [], [], some "<mouse down?>"⟩ := by
    decide +kernel
  have hshow : Statement.ofLine? "show".toList = some ⟨.showSprite, [], [], none⟩ := by
    decide +kernel
  have hhide : Statement.ofLine? "hide".toList = some ⟨.hideSprite, [], [], none⟩ := by
    decide +kernel
  have hwritten : program.Written lines := by
    have hbranch := Chain.Written.branch (show SourceLine.Says ⟨3, "if <mouse down?> then"⟩ _ from hif) .done
      (show SourceLine.Marks ⟨4, "sino"⟩ .otherwise by rw [SourceLine.Marks]; decide)
      (.simple (show SourceLine.Says ⟨5, "show"⟩ _ from hshow) .done)
      (show SourceLine.Marks ⟨6, "fin"⟩ .close by rw [SourceLine.Marks]; decide) .done
    have hloop := Chain.Written.loop (show SourceLine.Says ⟨2, "repeat (3)"⟩ _ from hrepeat) hbranch
      (show SourceLine.Marks ⟨7, "end"⟩ .close by rw [SourceLine.Marks]; decide)
      (.simple (show SourceLine.Says ⟨8, "hide"⟩ _ from hhide) .done)
    exact .cons (.hat (show SourceLine.Says ⟨1, "when green flag clicked"⟩ _ from hflag) hloop) .nil
  have hcontent : program.map (Script.map Statement.content) = [⟨some ⟨.whenFlagClicked, [], [], .missing⟩,
        .loop ⟨.repeatTimes, [("TIMES", ⟨.whole, "3"⟩)], [], .missing⟩
          (.branch ⟨.ifThen, [], [], .mouseDown⟩ .done (.simple ⟨.showSprite, [], [], .missing⟩ .done) .done)
          (.simple ⟨.hideSprite, [], [], .missing⟩ .done)⟩] := by
    decide +kernel
  rw [← hcontent]
  exact ofLines_readBack {} 7 hformed hwritten

end ScratchScript
