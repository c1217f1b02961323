import ScratchScript.Proofs.Linked
import ScratchScript.Proofs.Preorder

/-!
# Roles of blocks

A block is a hat, a statement or a predicate, and `slotRoles` lists the slots that hold blocks, with the role that each
of them takes. Every compiled graph respects the roles (`compile_wellTyped`).

Of the vocabulary this needs two more facts than the links do (`Statement.Typed`): no line says a predicate, and the
literals of a line have different names. The rest is in the shape of a program: a statement with a condition is a
header, a body stands below a block that opens one, and only a branch has something in its else branch
(`Chain.Splits.fits`).
-/

namespace ScratchScript

/-- What a block can be used for. -/
inductive Role
  | hat
  | statement
  | predicate
  deriving DecidableEq, Repr

namespace Opcode

/-- Whether the block is a condition or a part of one. -/
def isPredicate : Opcode → Bool
  | and | or | not | greaterThan | lessThan | equals | touchingObject | touchingColor | keyPressed | mouseDown => true
  | _ => false

def role (opcode : Opcode) : Role :=
  if opcode.isHat then .hat else if opcode.isPredicate then .predicate else .statement

theorem role_eq_hat_iff {opcode : Opcode} : opcode.role = .hat ↔ opcode.isHat = true := by
  unfold role
  split
  · simp [*]
  · split <;> simp [*]

theorem role_eq_statement {opcode : Opcode} (hhat : opcode.isHat = false) (hpredicate : opcode.isPredicate = false) :
    opcode.role = .statement := by
  simp [role, hhat, hpredicate]

end Opcode

/-- The slots that hold blocks: the kind of the owner, the name of the slot, and the role of what it holds. -/
def slotRoles : List (Opcode × String × Role) :=
  [.ifThen, .ifElse, .repeatUntil].map (fun owner => (owner, "CONDITION", .predicate)) ++
    [.repeatTimes, .repeatUntil, .forever, .ifThen, .ifElse].map (fun owner => (owner, "SUBSTACK", .statement)) ++
    [(.ifElse, "SUBSTACK2", .statement)] ++
    [.and, .or].map (fun owner => (owner, "OPERAND1", .predicate)) ++
    [.and, .or].map (fun owner => (owner, "OPERAND2", .predicate)) ++
    [(.not, "OPERAND", .predicate)]

namespace Graph

/-- The block at the place may stand in the slot of an owner of that kind. -/
def Fits (graph : Graph) (owner : Opcode) (name : String) (target : Nat) : Prop :=
  ∃ child, graph.block? target = some child ∧ (owner, name, child.opcode.role) ∈ slotRoles

/-- The block is used as its role allows, and so are the blocks that it leads to. -/
structure TypedAt (graph : Graph) (block : Block) : Prop where
  input_fits : ∀ name target, (name, .block target) ∈ block.inputs → graph.Fits block.opcode name target
  next_role : ∀ next, block.next = some next → block.opcode.role ≠ .predicate ∧
    ∃ follower, graph.block? next = some follower ∧ follower.opcode.role = .statement
  topLevel_of_hat : block.opcode.role = .hat → block.topLevel = true
  topLevel_of_predicate : block.opcode.role = .predicate → block.topLevel = false
  names_nodup : (block.inputs.map Prod.fst).Nodup
  shadow : block.shadow = false
  position : block.position.isSome = block.topLevel

/-- Every block is used as its role allows, and no slot and no chain leads to a hat. -/
structure WellTyped (graph : Graph) : Prop where
  typedAt : ∀ index block, graph.block? index = some block → graph.TypedAt block
  hat_not_child : ∀ index hat owner block, graph.block? index = some hat → hat.opcode.role = .hat →
    graph.block? owner = some block → index ∉ block.children

variable {graph : Graph}

theorem role_ne_hat_of_mem_slotRoles : ∀ entry ∈ slotRoles, entry.2.2 ≠ .hat := by
  decide

theorem wellTyped_of_typedAt (h : ∀ index block, graph.block? index = some block → graph.TypedAt block) :
    graph.WellTyped := by
  refine ⟨h, ?_⟩
  intro index hat owner block hhat hrole hblock hmem
  have htyped := h owner block hblock
  rcases List.mem_append.1 hmem with hmem | hmem
  · obtain ⟨⟨name, input⟩, hinput, htarget⟩ := List.mem_filterMap.1 hmem
    cases input with
    | literal => simp at htarget
    | block target =>
      obtain rfl : target = index := by simpa using htarget
      obtain ⟨child, hchild, hfits⟩ := htyped.input_fits name target hinput
      obtain rfl : hat = child := by simpa [hhat] using hchild
      exact role_ne_hat_of_mem_slotRoles _ hfits hrole
  · obtain ⟨-, follower, hfollower, hstatement⟩ := htyped.next_role index (Option.mem_toList.1 hmem)
    obtain rfl : hat = follower := by simpa [hhat] using hfollower
    rw [hrole] at hstatement
    cases hstatement

theorem Fits.relabel {owner : Opcode} {name : String} {target : Nat} (h : graph.Fits owner name target)
    (label : Nat → String) : (graph.relabel label).Fits owner name target := by
  obtain ⟨child, hchild, hrole⟩ := h
  exact ⟨_, block?_relabel_of_some hchild label, hrole⟩

theorem wellTyped_relabel (h : ∀ index block, graph.block? index = some block → graph.TypedAt block)
    (label : Nat → String) : (graph.relabel label).WellTyped := by
  refine wellTyped_of_typedAt fun index block hblock => ?_
  rw [block?_relabel, Option.map_eq_some_iff] at hblock
  obtain ⟨old, hold, rfl⟩ := hblock
  have htyped := h index old hold
  refine ⟨fun name target hmem => (htyped.input_fits name target hmem).relabel label, ?_, htyped.topLevel_of_hat,
    htyped.topLevel_of_predicate, htyped.names_nodup, htyped.shadow, htyped.position⟩
  intro next hnext
  obtain ⟨hpredicate, follower, hfollower, hrole⟩ := htyped.next_role next hnext
  exact ⟨hpredicate, _, block?_relabel_of_some hfollower label, hrole⟩

end Graph

/-! ## What the vocabulary says -/

/-- A regular statement that is no predicate and whose literals have different names. -/
structure Statement.Typed (statement : Statement) : Prop extends Statement.Regular statement where
  isPredicate : statement.opcode.isPredicate = false
  names_nodup : (statement.literals.map Prod.fst).Nodup

namespace Vocabulary

/-- What the data of a rule has to satisfy, besides being regular, for its statements to be typed. -/
def Rule.isTyped (rule : Rule) : Bool :=
  !rule.opcode.isPredicate && (rule.variant.all fun variant => !variant.2.isPredicate) &&
    decide (rule.literals.map LiteralPlan.slot).Nodup

theorem rules_typed : ∀ rule ∈ rules, rule.isTyped = true := by
  decide

theorem Rule.typed_of_read? {rule : Rule} (hmem : rule ∈ rules) {line lowered : List Char} {statement : Statement}
    (h : rule.read? line lowered = some statement) : statement.Typed := by
  have hregular := Rule.regular_of_read? (rules_regular rule hmem) h
  have htyped := rules_typed rule hmem
  simp only [isTyped, Bool.and_eq_true, Bool.not_eq_true', Option.all_eq_true, decide_eq_true_eq] at htyped
  obtain ⟨⟨hopcode, hvariant⟩, hnodup⟩ := htyped
  obtain ⟨holes, rfl⟩ := Rule.exists_holes_of_read? h
  refine ⟨hregular, Rule.opcodeFor_of_all (·.isPredicate = false) hopcode hvariant lowered, ?_⟩
  have hnames : (rule.statement lowered holes).literals.map Prod.fst = rule.literals.map LiteralPlan.slot := by
    simp [Rule.statement, Function.comp_def]
  rw [hnames]
  exact hnodup

end Vocabulary

theorem Statement.typed_of_ofLine? (line : List Char) (statement : Statement)
    (h : Statement.ofLine? line = some statement) : statement.Typed := by
  obtain ⟨rule, hmem, _, _, hread⟩ := Statement.exists_rule_of_ofLine? h
  exact Vocabulary.Rule.typed_of_read? hmem hread

/-! ## Conditions -/

theorem mem_linkTo {name other : String} {target : Nat} {link : Option Nat} :
    (name, Input.block target) ∈ linkTo other link ↔ name = other ∧ link = some target := by
  cases link with
  | none => simp [linkTo]
  | some place => simp [linkTo, eq_comm]

theorem names_linkTo_sublist (name : String) (link : Option Nat) :
    ((linkTo name link).map Prod.fst).Sublist [name] := by
  cases link <;> simp [linkTo]

theorem Condition.names_slotFor_nodup (left right : Condition) (first second : Nat) :
    ((slotFor "OPERAND1" first left ++ slotFor "OPERAND2" second right).map Prod.fst).Nodup := by
  have hnames := (names_linkTo_sublist "OPERAND1" (left.root? first)).append
    (names_linkTo_sublist "OPERAND2" (right.root? second))
  simp only [slotFor_eq, List.map_append]
  exact hnames.nodup (by decide)

variable {graph : Graph}

theorem Condition.Splits.exists_predicate {condition left right : Condition} (h : condition.Splits left right)
    {parent index : Nat} (hholds : graph.Holds index (condition.blocks parent index)) :
    ∃ block, graph.block? index = some block ∧ block.opcode.role = .predicate ∧ block.shadow = false ∧
      block.position = none ∧ (block.inputs.map Prod.fst).Nodup ∧
      ∀ name target, (name, .block target) ∈ block.inputs → (block.opcode, name, .predicate) ∈ slotRoles := by
  cases h with
  | join connective =>
    rw [Condition.blocks, Graph.holds_cons] at hholds
    refine ⟨_, hholds.1, by cases connective <;> rfl, rfl, rfl, Condition.names_slotFor_nodup .., ?_⟩
    intro name target hmem
    simp only [slotFor_eq, List.mem_append, mem_linkTo] at hmem
    rcases hmem with ⟨rfl, -⟩ | ⟨rfl, -⟩
    · change (connective.opcode, "OPERAND1", Role.predicate) ∈ slotRoles
      cases connective <;> decide
    · change (connective.opcode, "OPERAND2", Role.predicate) ∈ slotRoles
      cases connective <;> decide
  | not =>
    rw [Condition.blocks, Graph.holds_cons] at hholds
    refine ⟨_, hholds.1, rfl, rfl, rfl, ?_, ?_⟩
    · simp only [slotFor_eq]
      exact (names_linkTo_sublist _ _).nodup (by decide)
    · intro name target hmem
      simp only [slotFor_eq, mem_linkTo] at hmem
      obtain ⟨rfl, -⟩ := hmem
      change (Opcode.not, "OPERAND", Role.predicate) ∈ slotRoles
      decide
  | compare comparison =>
    rw [Condition.blocks, Graph.holds_cons] at hholds
    exact ⟨_, hholds.1, by cases comparison <;> rfl, rfl, rfl, by simp [textIn], by simp [textIn]⟩
  | mouseDown =>
    rw [Condition.blocks, Graph.holds_cons] at hholds
    exact ⟨_, hholds.1, rfl, rfl, rfl, List.nodup_nil, fun _ _ hmem => absurd hmem List.not_mem_nil⟩
  | _ =>
    rw [Condition.blocks, Graph.holds_cons] at hholds
    exact ⟨_, hholds.1, rfl, rfl, rfl, by simp [textIn], by simp [textIn]⟩

theorem Condition.role_of_root? {condition : Condition} {parent index target : Nat}
    (hholds : graph.Holds index (condition.blocks parent index)) (htarget : condition.root? index = some target) :
    ∃ block, graph.block? target = some block ∧ block.opcode.role = .predicate := by
  cases condition using splitsRec with
  | missing => simp [root?] at htarget
  | step hsplits =>
    obtain rfl : index = target := by simpa [hsplits.root?] using htarget
    obtain ⟨block, hblock, hrole, -⟩ := hsplits.exists_predicate hholds
    exact ⟨block, hblock, hrole⟩

theorem Condition.typedOn (condition : Condition) {parent index : Nat}
    (hholds : graph.Holds index (condition.blocks parent index)) :
    graph.AllOn (fun _ => graph.TypedAt) index condition.size := by
  induction condition using Condition.splitsRec generalizing parent index with
  | missing => exact Graph.allOn_zero index
  | @step condition left right hsplits ihleft ihright =>
    obtain ⟨⟨block, hblock, -, -, hnext, htop, hinner⟩, hleft, hright⟩ := hsplits.holds hholds
    obtain ⟨same, hsame, hrole, hshadow, hposition, hnodup, hslots⟩ := hsplits.exists_predicate hholds
    obtain rfl : block = same := by simpa [hblock] using hsame
    -- the slots lead to the operands, whose first blocks are predicates again
    have htyped : graph.TypedAt block := by
      refine ⟨?_, by simp [hnext], by simp [hrole], fun _ => htop, hnodup, hshadow, by simp [hposition, htop]⟩
      intro name target hmem
      have htarget := Block.mem_inner hmem
      rw [hinner, List.mem_append, Option.mem_toList, Option.mem_toList] at htarget
      have hchild : ∃ child, graph.block? target = some child ∧ child.opcode.role = .predicate := by
        rcases htarget with htarget | htarget
        · exact Condition.role_of_root? hleft htarget
        · exact Condition.role_of_root? hright htarget
      obtain ⟨child, hchild, hpredicate⟩ := hchild
      refine ⟨child, hchild, ?_⟩
      rw [hpredicate]
      exact hslots name target hmem
    rw [hsplits.size, Nat.add_assoc]
    exact (Graph.allOn_one hblock htyped).append ((ihleft hleft).append (ihright hright))

/-! ## Statements -/

theorem Statement.names_nodup_inputs {statement : Statement} (h : statement.Typed)
    (condition body otherwise : Option Nat) :
    ((statement.inputs condition body otherwise).map Prod.fst).Nodup := by
  have hdisjoint : ∀ name ∈ statement.literals.map Prod.fst, ∀ other ∈ blockSlots, name ≠ other := by
    rintro name hname other hother rfl
    obtain ⟨entry, hentry, rfl⟩ := List.mem_map.1 hname
    exact h.literals entry hentry hother
  have hall : (statement.literals.map Prod.fst ++ blockSlots).Nodup :=
    List.nodup_append.2 ⟨h.names_nodup, by decide, hdisjoint⟩
  have hlinks : ((linkTo "CONDITION" condition).map Prod.fst ++ ((linkTo Slot.body.name body).map Prod.fst ++
      (linkTo Slot.elseBranch.name otherwise).map Prod.fst)).Sublist blockSlots :=
    (names_linkTo_sublist _ _).append ((names_linkTo_sublist _ _).append (names_linkTo_sublist _ _))
  rw [Statement.inputs, List.map_append, List.map_append, List.map_append, List.map_map, List.append_assoc,
    List.append_assoc]
  exact ((List.Sublist.refl _).append hlinks).nodup hall

theorem Statement.typedAt {statement : Statement} (h : statement.Typed) {spot : Option Position} {parent : Option Nat}
    {index : Nat} {opcode : Opcode} {body otherwise next : Option Nat} (hrole : opcode.role ≠ .predicate)
    (hspot : opcode.role = .hat → spot.isSome = true)
    (hcondition : ∀ target, statement.conditionRead.root? (index + 1) = some target →
      graph.Fits opcode "CONDITION" target)
    (hbody : ∀ target, body = some target → graph.Fits opcode Slot.body.name target)
    (hother : ∀ target, otherwise = some target → graph.Fits opcode Slot.elseBranch.name target)
    (hnext : ∀ target, next = some target →
      ∃ follower, graph.block? target = some follower ∧ follower.opcode.role = .statement) :
    graph.TypedAt (statement.linked spot parent index opcode body otherwise next) := by
  refine ⟨?_, fun target htarget => ⟨hrole, hnext target htarget⟩, hspot, fun hpredicate => absurd hpredicate hrole,
    Statement.names_nodup_inputs h _ _ _, rfl, rfl⟩
  intro name target hmem
  simp only [Statement.linked, Statement.inputs, List.mem_append, mem_linkTo] at hmem
  rcases hmem with ((hmem | ⟨rfl, htarget⟩) | ⟨rfl, htarget⟩) | ⟨rfl, htarget⟩
  · obtain ⟨entry, -, hentry⟩ := List.mem_map.1 hmem
    simp at hentry
  · exact hcondition target htarget
  · exact hbody target htarget
  · exact hother target htarget

namespace Chain

theorem Splits.role {chain : Chain Statement} {header : Statement} {opcode : Opcode}
    {body otherwise rest : Chain Statement} (h : chain.Splits header opcode body otherwise rest)
    (hheader : header.Typed) (hformed : chain.WellFormed) : opcode.role = .statement := by
  have hhat := h.isHat hformed
  cases h with
  | simple => exact Opcode.role_eq_statement hhat hheader.isPredicate
  | loop => exact Opcode.role_eq_statement hhat hheader.isPredicate
  | branch => rfl

theorem role_of_start? {chain : Chain Statement} (htyped : chain.All Statement.Typed) (hformed : chain.WellFormed)
    {spot : Option Position} {parent : Option Nat} {index target : Nat}
    (hholds : graph.Holds index (chain.blocks spot parent index)) (htarget : chain.start? index = some target) :
    ∃ block, graph.block? target = some block ∧ block.opcode.role = .statement := by
  cases chain using splitsRec with
  | done => simp [start?] at htarget
  | step hsplits =>
    obtain rfl : index = target := by simpa [hsplits.start?] using htarget
    have hheader := (hsplits.all htyped).1
    obtain ⟨hblock, -⟩ := hsplits.holds hheader.toRegular hholds
    exact ⟨_, hblock, hsplits.role hheader hformed⟩

/-- The slots of the first statement of a chain that can be filled: a condition belongs to a header, a body to a block
that opens one, and an else branch to a branch. -/
theorem Splits.fits {chain : Chain Statement} {header : Statement} {opcode : Opcode}
    {body otherwise rest : Chain Statement} (h : chain.Splits header opcode body otherwise rest)
    (hheader : header.Regular) (hformed : chain.WellFormed) :
    (header.condition ≠ none → (opcode, "CONDITION", .predicate) ∈ slotRoles) ∧
      (body ≠ .done → (opcode, Slot.body.name, .statement) ∈ slotRoles) ∧
      (otherwise ≠ .done → (opcode, Slot.elseBranch.name, .statement) ∈ slotRoles) := by
  have hcondition : header.condition ≠ none → (header.opcode, "CONDITION", .predicate) ∈ slotRoles := by
    intro hsome
    rcases hheader.condition with hnone | hopcode | hopcode
    · exact absurd hnone hsome
    · rw [hopcode]
      decide
    · rw [hopcode]
      decide
  have hopens : ∀ opcode : Opcode, opcode.opensBody = true → (opcode, Slot.body.name, .statement) ∈ slotRoles := by
    intro opcode hopcode
    cases opcode <;> simp [Opcode.opensBody] at hopcode <;> decide
  cases h with
  | simple => exact ⟨hcondition, fun hne => absurd rfl hne, fun hne => absurd rfl hne⟩
  | loop => exact ⟨hcondition, fun _ => hopens _ hformed.1, fun hne => absurd rfl hne⟩
  | branch => exact ⟨fun _ => by decide, fun _ => by decide, fun _ => by decide⟩

end Chain

theorem Statement.condition_ne_none_of_root? {statement : Statement} {index target : Nat}
    (h : statement.conditionRead.root? index = some target) : statement.condition ≠ none := by
  intro hnone
  simp [Statement.conditionRead, hnone, Condition.root?] at h

theorem Chain.ne_done_of_start? {chain : Chain Statement} {index target : Nat}
    (h : chain.start? index = some target) : chain ≠ .done := by
  rintro rfl
  simp [Chain.start?] at h

/-! ## Programs -/

theorem Chain.typedOn (chain : Chain Statement) (htyped : chain.All Statement.Typed) (hformed : chain.WellFormed)
    {spot : Option Position} {parent : Option Nat} {index : Nat}
    (hholds : graph.Holds index (chain.blocks spot parent index)) :
    graph.AllOn (fun _ => graph.TypedAt) index chain.size := by
  induction chain using Chain.splitsRec generalizing spot parent index with
  | done => exact Graph.allOn_zero index
  | @step chain header opcode body otherwise rest hsplits ihbody ihother ihrest =>
    obtain ⟨hheader, hbodyTyped, hotherTyped, hrestTyped⟩ := hsplits.all htyped
    obtain ⟨hbodyFormed, hotherFormed, hrestFormed⟩ := hsplits.wellFormed hformed
    obtain ⟨hblock, hcondition, hbody, hother, hrest⟩ := hsplits.holds hheader.toRegular hholds
    obtain ⟨hconditionFits, hbodyFits, hotherFits⟩ := hsplits.fits hheader.toRegular hformed
    have hrole := hsplits.role hheader hformed
    -- each slot of the first block leads to the start of a part, and the parts hold blocks of the right roles
    have hfirst : graph.TypedAt (header.linked spot parent index opcode (body.start? (index + header.size))
        (otherwise.start? (index + header.size + body.size))
        (rest.start? (index + header.size + body.size + otherwise.size))) := by
      refine Statement.typedAt hheader (by simp [hrole]) (by simp [hrole]) ?_ ?_ ?_
        (fun _ => Chain.role_of_start? hrestTyped hrestFormed hrest)
      · intro target htarget
        obtain ⟨child, hchild, hpredicate⟩ := Condition.role_of_root? hcondition htarget
        exact ⟨child, hchild, hpredicate ▸ hconditionFits (Statement.condition_ne_none_of_root? htarget)⟩
      · intro target htarget
        obtain ⟨child, hchild, hstatement⟩ := Chain.role_of_start? hbodyTyped hbodyFormed hbody htarget
        exact ⟨child, hchild, hstatement ▸ hbodyFits (Chain.ne_done_of_start? htarget)⟩
      · intro target htarget
        obtain ⟨child, hchild, hstatement⟩ := Chain.role_of_start? hotherTyped hotherFormed hother htarget
        exact ⟨child, hchild, hstatement ▸ hotherFits (Chain.ne_done_of_start? htarget)⟩
    have hheaderTyped : graph.AllOn (fun _ => graph.TypedAt) index header.size :=
      (Graph.allOn_one hblock hfirst).append (header.conditionRead.typedOn hcondition)
    have hbodyOn := ihbody hbodyTyped hbodyFormed hbody
    have hotherOn := ihother hotherTyped hotherFormed hother
    have hrestOn := ihrest hrestTyped hrestFormed hrest
    rw [hsplits.size, Nat.add_assoc, Nat.add_assoc]
    exact hheaderTyped.append (hbodyOn.append (hotherOn.append hrestOn))

theorem Script.typedOn {script : Script Statement} (htyped : script.All Statement.Typed)
    (hformed : script.WellFormed) {position : Position} {index : Nat}
    (hholds : graph.Holds index (script.blocks position index)) :
    graph.AllOn (fun _ => graph.TypedAt) index script.size := by
  obtain ⟨hat?, chain⟩ := script
  obtain ⟨hhats, -, hchainFormed⟩ := hformed
  obtain ⟨hhatTyped, hchainTyped⟩ := htyped
  cases hat? with
  | none =>
    have hchain := chain.typedOn hchainTyped hchainFormed (show graph.Holds index (chain.blocks _ none index)
      from hholds)
    simpa [Script.size] using hchain
  | some hat =>
    have hhat := hhats hat rfl
    have hregular := (hhatTyped hat rfl).toRegular
    have hmissing := Statement.conditionRead_of_isHat hregular hhat
    have hrole : hat.opcode.role = .hat := Opcode.role_eq_hat_iff.2 hhat
    obtain ⟨hblock, -, hchain⟩ := Script.holds_hat hregular hhat hholds
    have hfirst : graph.TypedAt
        (hat.linked (some position) none index hat.opcode none none (chain.start? (index + 1))) := by
      refine Statement.typedAt (hhatTyped hat rfl) (by simp [hrole]) (fun _ => rfl) ?_ (by simp) (by simp)
        (fun _ => Chain.role_of_start? hchainTyped hchainFormed hchain)
      intro target htarget
      simp [hmissing, Condition.root?] at htarget
    exact (Graph.allOn_one hblock hfirst).append (chain.typedOn hchainTyped hchainFormed hchain)

theorem Program.typedOn {program : Program Statement} (htyped : ∀ script ∈ program, script.All Statement.Typed)
    (hformed : ∀ script ∈ program, script.WellFormed) {layout : Layout} {number index : Nat}
    (hholds : graph.Holds index (program.blocks layout number index)) :
    graph.AllOn (fun _ => graph.TypedAt) index (program.blocks layout number index).length := by
  induction program generalizing number index with
  | nil => exact Graph.allOn_zero index
  | cons script program ih =>
    obtain ⟨hscriptTyped, hothersTyped⟩ := List.forall_mem_cons.1 htyped
    obtain ⟨hscriptFormed, hothersFormed⟩ := List.forall_mem_cons.1 hformed
    obtain ⟨hscript, hothers⟩ := Program.holds_cons.1 hholds
    rw [Program.length_blocks_cons]
    exact (Script.typedOn hscriptTyped hscriptFormed hscript).append (ih hothersTyped hothersFormed hothers)

/-- Whatever the source, every block of the compiled graph is used as its role allows, with the ids of any seed as well
as with ids that name places. -/
theorem compile_wellTyped (layout : Layout) (seed : UInt64) (source : String) :
    (compile layout seed source).graph.WellTyped ∧ (compilePlain layout source).graph.WellTyped := by
  obtain ⟨program, lines, hformed, hwritten, hgraph⟩ := exists_written_program layout (Source.lines source.toList)
  have htyped := hwritten.all Statement.typed_of_ofLine?
  have hon : (program.graph layout).AllOn (fun _ => (program.graph layout).TypedAt) 0 (program.graph layout).size := by
    rw [Graph.size_eq_length]
    exact Program.typedOn htyped hformed.1 (program.graph layout).holds_toList
  have hplain : ∀ index block, (compilePlain layout source).graph.block? index = some block →
      (compilePlain layout source).graph.TypedAt block := by
    have hassembled : (compilePlain layout source).graph = program.graph layout := hgraph
    rw [hassembled]
    exact fun index block hblock => hon.of_size hblock
  exact ⟨Graph.wellTyped_relabel hplain _, Graph.wellTyped_of_typedAt hplain⟩

end ScratchScript
