import Mathlib.Data.List.Forall2
import ScratchScript.Compiled
import ScratchScript.Proofs.Feeding

/-!
# Repairing unbalanced notation

`repair` makes notation balanced: it leaves out the markers that fit nothing and adds close markers for what is still
open before a hat and at the end. It looks at the lines only, and keeps a list of what they leave open (`nesting?`).

The result is that the assembly does the same with both: graph and skipped lines agree, the repaired lines cause no
warning and leave nothing open, and the warnings about the lines as they were name the lines that `repair` leaves out,
one by one (`ofLines_repair`). The invariant is `Tracks`: the open blocks that the lines show are the frames of the
assembly. A marker that fits nothing is exactly one that the assembly warns about (`feed_of_stray`), every other line
keeps the invariant (`Tracks.feed`), and closing a frame early, before a hat that would close it anyway, leaves no trace
(`feed_hat_closed`).
-/

namespace ScratchScript

/-! ## What the lines leave open -/

/-- An open block as the lines show it: its kind, and whether its else branch has begun. -/
structure Open where
  opcode : Opcode
  branched : Bool
  deriving DecidableEq, Repr

def Open.takesElse (block : Open) : Bool :=
  block.opcode.acceptsElse && !block.branched

/-- What is open after a line, innermost first, or nothing if the line is a marker that fits nothing. -/
def nesting? (opens : List Open) (line : SourceLine) : Option (List Open) :=
  match line.reading with
  | .marker .close => opens.tail?
  | .marker .otherwise =>
    match opens with
    | [] => none
    | innermost :: outer =>
      if innermost.takesElse then some ({ innermost with branched := true } :: outer) else none
  | .statement statement =>
    if statement.opcode.isHat then some []
    else if statement.opcode.opensBody then some (⟨statement.opcode, false⟩ :: opens)
    else some opens
  | .blank => some opens
  | .unknown => some opens

def SourceLine.isHat (line : SourceLine) : Bool :=
  match line.reading with
  | .statement statement => statement.opcode.isHat
  | _ => false

/-- The markers that fit nothing, among lines that follow after `opens` has been left open. -/
def strays (opens : List Open) : List SourceLine → List SourceLine
  | [] => []
  | line :: lines =>
    match nesting? opens line with
    | none => line :: strays opens lines
    | some opens => strays opens lines

/-- The lines without the markers that fit nothing, and with a closing line for each open block before every hat and at
the end. -/
def repairFrom (closing : SourceLine) (opens : List Open) : List SourceLine → List SourceLine
  | [] => List.replicate opens.length closing
  | line :: lines =>
    match nesting? opens line with
    | none => repairFrom closing opens lines
    | some inner =>
      (if line.isHat then List.replicate opens.length closing else []) ++ line :: repairFrom closing inner lines

/-- Balanced notation in place of the lines. -/
def repair (closing : SourceLine) (lines : List SourceLine) : List SourceLine :=
  repairFrom closing [] lines

def Warning.line : Warning → Nat
  | strayClose line => line
  | strayElse line => line
  | refusedElse line _ => line

/-! ## Frames and open blocks -/

/-- Whether the block at a place can have an else branch. -/
def Graph.acceptsElseAt? (graph : Graph) (index : Nat) : Option Bool :=
  (graph.block? index).map (·.opcode.acceptsElse)

/-- Blocks of the graph stay where they are and can have an else branch as before. -/
def Graph.Keeps (graph later : Graph) : Prop :=
  ∀ index accepts, graph.acceptsElseAt? index = some accepts → later.acceptsElseAt? index = some accepts

/-- The frame is that of the open block. -/
structure Frame.Tracks (graph : Graph) (block : Open) (frame : Frame) : Prop where
  accepts : graph.acceptsElseAt? frame.owner = some block.opcode.acceptsElse
  slot : frame.slot = if block.branched then .elseBranch else .body

/-- The open blocks that the lines show are the frames of the assembly. -/
def Tracks (opens : List Open) (assembly : Assembly) : Prop :=
  List.Forall₂ (Frame.Tracks assembly.graph) opens assembly.frames

namespace Graph

theorem keeps_append (graph : Graph) (blocks : List Block) : graph.Keeps (graph.append blocks) := by
  intro index accepts h
  simp only [acceptsElseAt?, block?_eq_getElem?, toList_append] at h ⊢
  obtain ⟨block, hblock, rfl⟩ := Option.map_eq_some_iff.1 h
  rw [List.getElem?_append_left (List.getElem?_eq_some_iff.1 hblock).1, hblock]
  rfl

theorem keeps_modify {graph : Graph} {place : Nat} {change : Block → Block}
    (h : ∀ block, graph.block? place = some block → (change block).opcode.acceptsElse = block.opcode.acceptsElse) :
    graph.Keeps (graph.modify place change) := by
  intro index accepts hindex
  simp only [acceptsElseAt?, block?_eq_getElem?, toList_modify, List.getElem?_modify] at h hindex ⊢
  obtain ⟨block, hblock, rfl⟩ := Option.map_eq_some_iff.1 hindex
  rw [hblock]
  split
  · rename_i heq
    subst heq
    simp [h block hblock]
  · rfl

theorem Keeps.trans {graph middle later : Graph} (h : graph.Keeps middle) (h' : middle.Keeps later) :
    graph.Keeps later :=
  fun index accepts hindex => h' index accepts (h index accepts hindex)

end Graph

theorem Assembly.keeps_joined (assembly : Assembly) : assembly.graph.Keeps assembly.joined := by
  unfold Assembly.joined
  split
  · apply Graph.keeps_modify
    intro block _
    rfl
  · apply Graph.keeps_modify
    intro block _
    rfl
  · exact fun _ _ h => h

theorem Assembly.keeps_grown (layout : Layout) (assembly : Assembly) (blocks : List Block) (last : Option Nat) :
    assembly.graph.Keeps (assembly.grown layout blocks last).graph :=
  assembly.keeps_joined.trans (Graph.keeps_append _ _)

def Assembly.withWarnings (assembly : Assembly) (warnings : Array Warning) : Assembly :=
  { assembly with warnings := warnings }

theorem Tracks.length_eq {opens : List Open} {assembly : Assembly} (h : Tracks opens assembly) :
    opens.length = assembly.frames.length :=
  List.Forall₂.length_eq h

theorem Assembly.addStatement_withWarnings (layout : Layout) (assembly : Assembly) (warnings : Array Warning)
    (statement : Statement) :
    (assembly.withWarnings warnings).addStatement layout statement =
      (assembly.addStatement layout statement).withWarnings warnings := by
  rw [addStatement_eq, addStatement_eq]
  cases statement.opcode.opensBody <;> rfl

namespace Tracks

variable {layout : Layout} {assembly : Assembly} {opens inner : List Open} {line : SourceLine}

theorem of_keeps {graph later : Graph} {frames : List Frame} (h : List.Forall₂ (Frame.Tracks graph) opens frames)
    (hkeeps : graph.Keeps later) : List.Forall₂ (Frame.Tracks later) opens frames :=
  h.imp fun _ _ hframe => ⟨hkeeps _ _ hframe.accepts, hframe.slot⟩

theorem of_fillSlot {graph : Graph} {frames : List Frame} (h : List.Forall₂ (Frame.Tracks graph) opens frames) :
    List.Forall₂ (Frame.Tracks graph) opens (Assembly.fillSlot frames) := by
  cases h with
  | nil => exact .nil
  | cons hframe houter => exact .cons ⟨hframe.accepts, hframe.slot⟩ houter

theorem grown (h : Tracks opens assembly) (blocks : List Block) (last : Option Nat) :
    Tracks opens (assembly.grown layout blocks last) :=
  of_keeps (of_fillSlot h) (assembly.keeps_grown layout blocks last)

theorem opened (h : Tracks opens assembly) (block : Block) (blocks : List Block) (last : Option Nat) :
    Tracks (⟨block.opcode, false⟩ :: opens) (assembly.opened layout block blocks .body true last) := by
  have houter : Tracks opens (assembly.grown layout (block :: blocks) last) := h.grown _ _
  refine .cons ⟨?_, rfl⟩ houter
  have hblock := Graph.block?_append_size assembly.joined block blocks
  rw [Assembly.size_joined] at hblock
  simp [Graph.acceptsElseAt?, Assembly.opened, hblock]

theorem addStatement (h : Tracks opens assembly) (statement : Statement) :
    Tracks (if statement.opcode.opensBody then ⟨statement.opcode, false⟩ :: opens else opens)
      (assembly.addStatement layout statement) := by
  cases hbody : statement.opcode.opensBody with
  | false =>
    rw [Assembly.addStatement_simple hbody]
    exact h.grown _ _
  | true =>
    rw [Assembly.addStatement_header hbody]
    have hopened : Tracks _ (assembly.opened layout _ (statement.conditionBlocks assembly.graph.size) .body true
        (some assembly.graph.size)) :=
      h.opened (statement.block (assembly.spot layout) assembly.container assembly.graph.size) _ _
    simpa using hopened

theorem enterElse {block : Open} {outer : List Open} (h : Tracks (block :: outer) assembly) (number : Nat) :
    if block.takesElse then
      Tracks ({ block with branched := true } :: outer) (assembly.enterElse number) ∧
        ∀ warnings, (assembly.withWarnings warnings).enterElse number =
          (assembly.enterElse number).withWarnings warnings
    else ∃ opcode, assembly.enterElse number = assembly.warn (.refusedElse number opcode) := by
  obtain ⟨frame, frames, hframe, houter, hframes⟩ := List.forall₂_cons_left_iff.1 h
  obtain ⟨owner, howner, haccepts⟩ := Option.map_eq_some_iff.1 hframe.accepts
  have htakes : (owner.opcode.acceptsElse && frame.slot == .body) = block.takesElse := by
    rw [haccepts, hframe.slot, Open.takesElse]
    cases block.branched <;> rfl
  cases hcase : block.takesElse with
  | false =>
    rw [hcase] at htakes
    exact ⟨owner.opcode, by simp [Assembly.enterElse, hframes, howner, htakes]⟩
  | true =>
    rw [hcase] at htakes
    have helse : owner.opcode.acceptsElse = true := (Bool.and_eq_true_iff.1 htakes).1
    have hentered : ∀ warnings, (assembly.withWarnings warnings).enterElse number =
        { assembly with
          graph := assembly.graph.modify frame.owner fun block => { block with opcode := .ifElse }
          frames := { frame with slot := .elseBranch, isEmpty := true } :: frames
          last := none
          warnings := warnings } := by
      intro warnings
      simp [Assembly.enterElse, Assembly.withWarnings, hframes, howner, htakes]
    have hkeeps : assembly.graph.Keeps
        (assembly.graph.modify frame.owner fun block => { block with opcode := .ifElse }) := by
      apply Graph.keeps_modify
      intro other hother
      rw [howner, Option.some.injEq] at hother
      rw [← hother, helse]
      rfl
    have hself : assembly.enterElse number = _ := hentered assembly.warnings
    rw [if_pos rfl, hself]
    exact ⟨.cons ⟨hkeeps _ _ hframe.accepts, rfl⟩ (of_keeps houter hkeeps), hentered⟩

/-- A line that fits is fed alike whatever has been warned about, and what it leaves open are the frames after it. -/
theorem feed (layout : Layout) (h : Tracks opens assembly) (hfits : nesting? opens line = some inner) :
    Tracks inner (assembly.feed layout line) ∧
      ∀ warnings, (assembly.withWarnings warnings).feed layout line =
        (assembly.feed layout line).withWarnings warnings := by
  unfold nesting? at hfits
  unfold Assembly.feed
  cases hreading : line.reading with
  | blank =>
    simp only [hreading, Option.some.injEq] at hfits
    subst hfits
    exact ⟨h, fun _ => rfl⟩
  | unknown =>
    simp only [hreading, Option.some.injEq] at hfits
    subst hfits
    exact ⟨h, fun _ => rfl⟩
  | marker marker =>
    cases marker with
    | close =>
      simp only [hreading] at hfits ⊢
      cases opens with
      | nil => simp at hfits
      | cons block outer =>
        obtain ⟨frame, frames, _, houter, hframes⟩ := List.forall₂_cons_left_iff.1 h
        simp only [List.tail?_cons, Option.some.injEq] at hfits
        subst hfits
        refine ⟨?_, fun _ => by simp [Assembly.close, Assembly.withWarnings, hframes]⟩
        rw [Assembly.close, hframes]
        exact houter
    | otherwise =>
      simp only [hreading] at hfits ⊢
      cases opens with
      | nil => simp at hfits
      | cons block outer =>
        have helse := h.enterElse line.number
        cases htakes : block.takesElse with
        | false => simp [htakes] at hfits
        | true =>
          simp only [htakes, if_true, Option.some.injEq] at hfits helse
          subst hfits
          exact helse
  | statement statement =>
    simp only [hreading] at hfits ⊢
    cases hhat : statement.opcode.isHat with
    | true =>
      simp only [hhat, if_true, Option.some.injEq] at hfits
      subst hfits
      exact ⟨.nil, fun _ => rfl⟩
    | false =>
      have hinner : (if statement.opcode.opensBody then ⟨statement.opcode, false⟩ :: opens else opens) = inner := by
        cases hbody : statement.opcode.opensBody <;> simpa [hhat, hbody] using hfits
      subst hinner
      exact ⟨h.addStatement statement, fun warnings => Assembly.addStatement_withWarnings ..⟩

/-- A marker that fits nothing is warned about and does nothing else. -/
theorem feed_of_stray (layout : Layout) (h : Tracks opens assembly) (hstray : nesting? opens line = none) :
    ∃ warning : Warning, warning.line = line.number ∧ assembly.feed layout line = assembly.warn warning := by
  unfold nesting? at hstray
  unfold Assembly.feed
  cases hreading : line.reading with
  | blank => simp [hreading] at hstray
  | unknown => simp [hreading] at hstray
  | statement statement =>
    simp only [hreading] at hstray
    split at hstray
    · simp at hstray
    · split at hstray <;> simp at hstray
  | marker marker =>
    cases opens with
    | nil =>
      have hframes := List.forall₂_nil_left_iff.1 h
      cases marker with
      | close => exact ⟨.strayClose line.number, rfl, by simp [Assembly.close, hframes]⟩
      | otherwise => exact ⟨.strayElse line.number, rfl, by simp [Assembly.enterElse, hframes]⟩
    | cons block outer =>
      cases marker with
      | close => simp [hreading] at hstray
      | otherwise =>
        have helse := h.enterElse line.number
        cases htakes : block.takesElse with
        | true => simp [hreading, htakes] at hstray
        | false =>
          simp only [htakes, Bool.false_eq_true, if_false] at helse
          obtain ⟨opcode, hwarn⟩ := helse
          exact ⟨.refusedElse line.number opcode, rfl, hwarn⟩

end Tracks

/-! ## Two runs -/

namespace Assembly

variable {layout : Layout} {assembly : Assembly} {closing : SourceLine}

theorem feedAll_closings (layout : Layout) (hclosing : closing.Marks .close) (assembly : Assembly) (count : Nat)
    (hcount : count = assembly.frames.length) :
    ∃ last, feedAll layout assembly (List.replicate count closing) =
      { assembly with frames := [], last := last } := by
  induction count generalizing assembly with
  | zero =>
    have hframes := List.length_eq_zero_iff.1 hcount.symm
    exact ⟨assembly.last, by simp [feedAll, ← hframes]⟩
  | succ count ih =>
    obtain ⟨frame, frames, hframes⟩ := List.exists_cons_of_length_eq_add_one hcount.symm
    have hclose : assembly.feed layout closing = { assembly with frames := frames, last := some frame.owner } := by
      rw [feed_of_marks_close hclosing, close, hframes]
    have hlength : count = frames.length := by
      rw [hframes, List.length_cons] at hcount
      omega
    rw [List.replicate_succ, feedAll_cons, hclose]
    exact ih _ hlength

/-- A hat closes what is open by itself: closing it before makes no difference. -/
theorem feed_hat_closed {line : SourceLine} (hhat : line.isHat = true) (last : Option Nat) :
    { assembly with frames := [], last := last : Assembly }.feed layout line = assembly.feed layout line := by
  unfold SourceLine.isHat at hhat
  unfold feed
  cases hreading : line.reading with
  | statement statement =>
    simp only [hreading] at hhat ⊢
    rw [if_pos hhat, if_pos hhat]
    rfl
  | _ => simp [hreading] at hhat

/-- The repaired lines assemble as the lines themselves do, but for the warnings and the frames left open. -/
theorem feedAll_repairFrom (layout : Layout) (hclosing : closing.Marks .close) (lines : List SourceLine)
    (warnings : Array Warning) {opens : List Open} (h : Tracks opens assembly) :
    ∃ last, feedAll layout (assembly.withWarnings warnings) (repairFrom closing opens lines) =
      { feedAll layout assembly lines with frames := [], last := last, warnings := warnings } := by
  induction lines generalizing assembly opens with
  | nil => exact feedAll_closings layout hclosing (assembly.withWarnings warnings) _ h.length_eq
  | cons line lines ih =>
    rw [repairFrom, feedAll_cons]
    cases hfits : nesting? opens line with
    | none =>
      obtain ⟨warning, _, hwarn⟩ := h.feed_of_stray layout hfits
      rw [hwarn]
      exact @ih (assembly.warn warning) opens h
    | some inner =>
      obtain ⟨hinner, hfeed⟩ := h.feed layout hfits
      dsimp only
      cases hhat : line.isHat with
      | false =>
        rw [if_neg (by simp), List.nil_append, feedAll_cons, hfeed]
        exact ih hinner
      | true =>
        obtain ⟨last, hclosed⟩ := feedAll_closings layout hclosing (assembly.withWarnings warnings) _ h.length_eq
        rw [if_pos rfl, feedAll_append, hclosed, feedAll_cons, feed_hat_closed hhat, hfeed]
        exact ih hinner

theorem warnings_feedAll (layout : Layout) (lines : List SourceLine) {opens : List Open} (h : Tracks opens assembly) :
    (feedAll layout assembly lines).warnings.toList.map Warning.line =
      assembly.warnings.toList.map Warning.line ++ (strays opens lines).map SourceLine.number := by
  induction lines generalizing assembly opens with
  | nil => simp [feedAll, strays]
  | cons line lines ih =>
    rw [strays, feedAll_cons]
    cases hfits : nesting? opens line with
    | none =>
      obtain ⟨warning, hline, hwarn⟩ := h.feed_of_stray layout hfits
      rw [hwarn, @ih (assembly.warn warning) opens h]
      simp [warn, hline]
    | some inner =>
      obtain ⟨hinner, hfeed⟩ := h.feed layout hfits
      -- the line leaves the warnings alone, since it would do the same with any others
      have hwarnings : (assembly.feed layout line).warnings =
          ((assembly.feed layout line).withWarnings assembly.warnings).warnings :=
        congrArg Assembly.warnings (hfeed assembly.warnings)
      rw [ih hinner, hwarnings]
      rfl

theorem ofLines_repair_eq (layout : Layout) (hclosing : closing.Marks .close) (lines : List SourceLine) :
    ∃ last, ofLines layout (repair closing lines) =
      { ofLines layout lines with frames := [], last := last, warnings := #[] } :=
  feedAll_repairFrom layout hclosing lines #[] (show Tracks [] {} from .nil)

end Assembly

/-- Repairing notation changes neither what it means nor what is skipped, and the warnings about it name the markers
that the repair leaves out. -/
theorem ofLines_repair (layout : Layout) (seed : UInt64) {closing : SourceLine} (hclosing : closing.Marks .close)
    (lines : List SourceLine) :
    let original := (Compiled.ofAssembly (.ofLines layout lines)).seeded seed
    let repaired := (Compiled.ofAssembly (.ofLines layout (repair closing lines))).seeded seed
    repaired.graph = original.graph ∧ repaired.skipped = original.skipped ∧ repaired.warnings = [] ∧
      (Assembly.ofLines layout (repair closing lines)).depth = 0 ∧
      original.warnings.map Warning.line = (strays [] lines).map SourceLine.number := by
  obtain ⟨last, hrepaired⟩ := Assembly.ofLines_repair_eq layout hclosing lines
  have hwarnings : (Assembly.ofLines layout lines).warnings.toList.map Warning.line =
      (strays [] lines).map SourceLine.number := by
    simpa [Assembly.ofLines] using Assembly.warnings_feedAll layout lines (show Tracks [] {} from .nil)
  rw [hrepaired]
  exact ⟨rfl, rfl, rfl, rfl, hwarnings⟩

/-- An end and an else that fit nothing go, and the loop that a hat would cut off is closed before it. -/
theorem ofLines_repair_unbalanced :
    let closing : SourceLine := ⟨0, "end"⟩
    let lines : List SourceLine :=
      [⟨1, "end"⟩, ⟨2, "forever"⟩, ⟨3, "else"⟩, ⟨4, "show"⟩, ⟨5, "when green flag clicked"⟩]
    let original := (Compiled.ofAssembly (.ofLines {} lines)).seeded 7
    let repaired := (Compiled.ofAssembly (.ofLines {} (repair closing lines))).seeded 7
    closing.Marks .close ∧ (repair closing lines).map SourceLine.number = [2, 4, 0, 5] ∧
      repaired.graph = original.graph ∧ repaired.skipped = original.skipped ∧ repaired.warnings = [] ∧
      (Assembly.ofLines {} (repair closing lines)).depth = 0 ∧ original.warnings.map Warning.line = [1, 3] := by
  intro closing lines original repaired
  have hclosing : closing.Marks .close := by
    rw [SourceLine.Marks]
    decide
  obtain ⟨hgraph, hskipped, hwarnings, hdepth, hstrays⟩ := ofLines_repair {} 7 hclosing lines
  refine ⟨hclosing, by decide +kernel, hgraph, hskipped, hwarnings, hdepth, hstrays.trans ?_⟩
  decide +kernel

end ScratchScript
