import ScratchScript.Proofs.Repair

/-!
# Every notation writes a program

`exists_written`: once the lines that mean nothing are left out, repaired notation writes a well-formed program down.
So whatever the notation, its graph is the graph of a program (`exists_program`), and what holds of all programs holds
of all notation.

The proof goes through the lines from the end. What stands after a point at which some blocks are open completes them
(`Completes`): a chain that goes on in the innermost one, the marker after it, and so on outwards until nothing is open.
A line in front of such lines either extends the chain they start with or opens or closes a block, and each case is one
lemma.
-/

namespace ScratchScript

def SourceLine.isStructural (line : SourceLine) : Bool :=
  match line.reading with
  | .marker _ => true
  | .statement _ => true
  | .blank => false
  | .unknown => false

theorem SourceLine.Marks.isStructural {line : SourceLine} {marker : Source.Marker} (h : line.Marks marker) :
    line.isStructural = true := by
  simp [SourceLine.isStructural, reading_eq_marker h]

theorem SourceLine.marks_of_reading {line : SourceLine} {marker : Source.Marker}
    (h : line.reading = .marker marker) : line.Marks marker := by
  unfold SourceLine.reading at h
  split at h
  · simp at h
  · split at h
    · simp only [Reading.marker.injEq] at h
      subst h
      assumption
    · split at h <;> simp at h

/-! ## Lines that mean nothing -/

namespace Assembly

variable {layout : Layout}

def withSkipped (assembly : Assembly) (skipped : Array SourceLine) : Assembly :=
  { assembly with skipped := skipped }

theorem feed_withSkipped {line : SourceLine} (h : line.isStructural = true) (assembly : Assembly)
    (skipped : Array SourceLine) :
    (assembly.withSkipped skipped).feed layout line = (assembly.feed layout line).withSkipped skipped := by
  unfold SourceLine.isStructural at h
  unfold feed
  cases hreading : line.reading with
  | blank => simp [hreading] at h
  | unknown => simp [hreading] at h
  | marker marker =>
    cases hframes : assembly.frames with
    | nil => cases marker <;> simp [close, enterElse, withSkipped, hframes, warn]
    | cons frame outer =>
      cases marker with
      | close => simp [close, withSkipped, hframes]
      | otherwise =>
        simp only [enterElse, withSkipped, hframes]
        cases assembly.graph.block? frame.owner with
        | none => simp [hframes]
        | some owner =>
          dsimp only
          split <;> simp [warn, hframes]
  | statement statement =>
    dsimp only
    split
    · rfl
    · rw [addStatement_eq, addStatement_eq]
      cases statement.opcode.opensBody <;> rfl

theorem feed_of_not_structural (layout : Layout) {line : SourceLine} (h : line.isStructural = false)
    (assembly : Assembly) :
    ∃ skipped, assembly.feed layout line = assembly.withSkipped skipped := by
  unfold SourceLine.isStructural at h
  unfold feed
  cases hreading : line.reading with
  | blank => exact ⟨assembly.skipped, rfl⟩
  | unknown => exact ⟨assembly.skipped.push line, rfl⟩
  | marker marker => simp [hreading] at h
  | statement statement => simp [hreading] at h

theorem feedAll_filter (lines : List SourceLine) (assembly : Assembly) (skipped : Array SourceLine) :
    feedAll layout (assembly.withSkipped skipped) (lines.filter SourceLine.isStructural) =
      (feedAll layout assembly lines).withSkipped skipped := by
  induction lines generalizing assembly with
  | nil => rfl
  | cons line lines ih =>
    cases h : line.isStructural with
    | true => rw [List.filter_cons_of_pos h, feedAll_cons, feedAll_cons, feed_withSkipped h, ih]
    | false =>
      obtain ⟨others, hfeed⟩ := feed_of_not_structural layout h assembly
      rw [List.filter_cons_of_neg (by simp [h]), feedAll_cons, ← ih, hfeed]
      rfl

end Assembly

/-! ## Lines that complete the open blocks -/

theorem Chain.wellFormed_done : Chain.WellFormed .done := trivial

/-- The lines complete the open blocks, innermost first: a chain goes on in the innermost one up to its marker, and what
follows completes the others; with no block open, scripts with hats follow the chain. -/
inductive Completes : List Open → List SourceLine → Prop
  | scripts {chain : Chain Statement} {lines : List SourceLine} {program : Program Statement}
      {after : List SourceLine} :
      chain.WellFormed → chain.Written lines →
      (∀ script ∈ program, script.WellFormed ∧ script.hat ≠ none) → program.Written after →
      Completes [] (lines ++ after)
  | close {block : Open} {outer : List Open} {chain : Chain Statement} {lines after : List SourceLine}
      {marker : SourceLine} :
      chain.WellFormed → chain.Written lines → marker.Marks .close → Completes outer after →
      Completes (block :: outer) (lines ++ marker :: after)
  | otherwise {block : Open} {outer : List Open} {chain : Chain Statement} {lines after : List SourceLine}
      {marker : SourceLine} :
      block.takesElse = true → chain.WellFormed → chain.Written lines → marker.Marks .otherwise →
      Completes ({ block with branched := true } :: outer) after → Completes (block :: outer) (lines ++ marker :: after)

namespace Completes

variable {opens : List Open} {lines : List SourceLine} {line : SourceLine} {statement : Statement}

theorem append_left (h : Completes opens lines) (front : List SourceLine)
    (hfront : ∀ (chain : Chain Statement) (rest : List SourceLine), chain.WellFormed → chain.Written rest →
      ∃ longer : Chain Statement, longer.WellFormed ∧ longer.Written (front ++ rest)) :
    Completes opens (front ++ lines) := by
  cases h with
  | scripts hformed hwritten hscripts hafter =>
    obtain ⟨longer, hlonger, hfront⟩ := hfront _ _ hformed hwritten
    rw [← List.append_assoc]
    exact .scripts hlonger hfront hscripts hafter
  | close hformed hwritten hmarker hafter =>
    obtain ⟨longer, hlonger, hfront⟩ := hfront _ _ hformed hwritten
    rw [← List.append_assoc]
    exact .close hlonger hfront hmarker hafter
  | otherwise htakes hformed hwritten hmarker hafter =>
    obtain ⟨longer, hlonger, hfront⟩ := hfront _ _ hformed hwritten
    rw [← List.append_assoc]
    exact .otherwise htakes hlonger hfront hmarker hafter

theorem cons_simple (h : Completes opens lines) (hline : line.Says statement)
    (hhat : statement.opcode.isHat = false) (hbody : statement.opcode.opensBody = false) :
    Completes opens (line :: lines) :=
  h.append_left [line] fun chain _ hformed hwritten =>
    ⟨.simple statement chain, ⟨hhat, hbody, hformed⟩, .simple hline hwritten⟩

theorem cons_header (h : Completes (⟨statement.opcode, false⟩ :: opens) lines) (hline : line.Says statement)
    (hbody : statement.opcode.opensBody = true) : Completes opens (line :: lines) := by
  cases h with
  | @close _ _ body inner after marker hformed hwritten hmarker hafter =>
    have hfront := hafter.append_left (line :: (inner ++ [marker])) fun rest restLines hrest hrestWritten =>
      ⟨.loop statement body rest, ⟨hbody, hformed, hrest⟩, by
        simpa using Chain.Written.loop hline hwritten hmarker hrestWritten⟩
    simpa using hfront
  | @otherwise _ _ body inner after middle htakes hformed hwritten hmiddle hafter =>
    have haccepts : statement.opcode.acceptsElse = true := by simpa [Open.takesElse] using htakes
    cases hafter with
    | @close _ _ other otherLines rest marker hother hotherWritten hmarker hrest =>
      have hfront := hrest.append_left (line :: (inner ++ middle :: (otherLines ++ [marker])))
        fun rest restLines hrest hrestWritten =>
          ⟨.branch statement body other rest, ⟨haccepts, hformed, hother, hrest⟩, by
            simpa using Chain.Written.branch hline hwritten hmiddle hotherWritten hmarker hrestWritten⟩
      simpa using hfront
    | otherwise htakesAgain => simp [Open.takesElse] at htakesAgain

theorem cons_hat (h : Completes [] lines) (hline : line.Says statement) (hhat : statement.opcode.isHat = true) :
    Completes [] (line :: lines) := by
  cases h with
  | @scripts chain lines program after hformed hwritten hscripts hafter =>
    have hscript : Script.WellFormed ⟨some statement, chain⟩ := by simpa [Script.WellFormed, hhat] using hformed
    have hprogram : Program.Written (⟨some statement, chain⟩ :: program) ((line :: lines) ++ after) :=
      .cons (.hat hline hwritten) hafter
    refine .scripts Chain.wellFormed_done .done ?_ hprogram
    intro script hmem
    rcases List.mem_cons.1 hmem with rfl | hmem
    · exact ⟨hscript, by simp⟩
    · exact hscripts script hmem

theorem cons_close {marker : SourceLine} (h : Completes opens lines) (hmarker : marker.Marks .close)
    (block : Open) : Completes (block :: opens) (marker :: lines) := by
  have hclose : Completes (block :: opens) ([] ++ marker :: lines) := .close Chain.wellFormed_done .done hmarker h
  simpa using hclose

theorem cons_otherwise {marker : SourceLine} {block : Open} (htakes : block.takesElse = true)
    (h : Completes ({ block with branched := true } :: opens) lines) (hmarker : marker.Marks .otherwise) :
    Completes (block :: opens) (marker :: lines) := by
  have helse : Completes (block :: opens) ([] ++ marker :: lines) :=
    .otherwise htakes Chain.wellFormed_done .done hmarker h
  simpa using helse

theorem nil : Completes [] [] := by
  have hscripts : Completes [] ([] ++ []) := .scripts Chain.wellFormed_done .done (by simp) Program.Written.nil
  simpa using hscripts

theorem replicate_close {closing : SourceLine} (hclosing : closing.Marks .close) (h : Completes [] lines) :
    ∀ opens : List Open, Completes opens (List.replicate opens.length closing ++ lines)
  | [] => h
  | block :: outer => (replicate_close hclosing h outer).cons_close hclosing block

theorem cons_of_nesting? {closing : SourceLine} (hclosing : closing.Marks .close) {inner : List Open}
    (h : Completes inner lines) (hnesting : nesting? opens line = some inner)
    (hstructural : line.isStructural = true) :
    Completes opens ((if line.isHat then List.replicate opens.length closing else []) ++ line :: lines) := by
  unfold SourceLine.isStructural at hstructural
  unfold nesting? at hnesting
  unfold SourceLine.isHat
  cases hreading : line.reading with
  | blank => simp [hreading] at hstructural
  | unknown => simp [hreading] at hstructural
  | marker marker =>
    have hmarker := SourceLine.marks_of_reading hreading
    cases opens with
    | nil => cases marker <;> simp [hreading] at hnesting
    | cons block outer =>
      cases marker with
      | close =>
        obtain rfl : outer = inner := by simpa [hreading] using hnesting
        exact h.cons_close hmarker block
      | otherwise =>
        simp only [hreading, Option.ite_none_right_eq_some, Option.some.injEq] at hnesting
        obtain ⟨htakes, rfl⟩ := hnesting
        exact h.cons_otherwise htakes hmarker
  | statement statement =>
    have hline := reading_eq_statement_iff.1 hreading
    simp only [hreading] at hnesting
    by_cases hhat : statement.opcode.isHat = true
    · obtain rfl : [] = inner := by simpa [hhat] using hnesting
      simpa [hhat] using (h.cons_hat hline hhat).replicate_close hclosing opens
    · rw [Bool.not_eq_true] at hhat
      by_cases hbody : statement.opcode.opensBody = true
      · obtain rfl : ⟨statement.opcode, false⟩ :: opens = inner := by simpa [hhat, hbody] using hnesting
        simpa [hhat] using h.cons_header hline hbody
      · rw [Bool.not_eq_true] at hbody
        obtain rfl : opens = inner := by simpa [hhat, hbody] using hnesting
        simpa [hhat] using h.cons_simple hline hhat hbody

end Completes

theorem nesting?_of_not_structural {line : SourceLine} (h : line.isStructural = false) (opens : List Open) :
    nesting? opens line = some opens ∧ line.isHat = false := by
  unfold SourceLine.isStructural at h
  unfold nesting? SourceLine.isHat
  cases hreading : line.reading <;> simp_all

theorem completes_repairFrom {closing : SourceLine} (hclosing : closing.Marks .close) (lines : List SourceLine)
    (opens : List Open) :
    Completes opens ((repairFrom closing opens lines).filter SourceLine.isStructural) := by
  have hreplicate : ∀ n, (List.replicate n closing).filter SourceLine.isStructural = List.replicate n closing :=
    fun n => by simp [hclosing.isStructural]
  induction lines generalizing opens with
  | nil => simpa [repairFrom, hreplicate] using Completes.nil.replicate_close hclosing opens
  | cons line lines ih =>
    cases hstructural : line.isStructural with
    | false =>
      obtain ⟨hnesting, hhat⟩ := nesting?_of_not_structural hstructural opens
      simpa [repairFrom, hnesting, hhat, hstructural] using ih opens
    | true =>
      cases hnesting : nesting? opens line with
      | none => simpa [repairFrom, hnesting] using ih opens
      | some inner =>
        have hcons := (ih inner).cons_of_nesting? hclosing hnesting hstructural
        cases hhat : line.isHat <;> simpa [repairFrom, hnesting, hhat, hstructural, hreplicate] using hcons

/-- Without the lines that mean nothing, repaired notation writes a program down. -/
theorem exists_written {closing : SourceLine} (hclosing : closing.Marks .close) (lines : List SourceLine) :
    ∃ program : Program Statement, program.WellFormed ∧
      program.Written ((repair closing lines).filter SourceLine.isStructural) := by
  have hcompletes := completes_repairFrom hclosing lines []
  unfold repair
  generalize (repairFrom closing [] lines).filter SourceLine.isStructural = repaired at hcompletes ⊢
  cases hcompletes with
  | @scripts chain lines program after hformed hwritten hscripts hafter =>
    by_cases hdone : chain = .done
    · subst hdone
      cases hwritten
      refine ⟨program, ⟨fun script hmem => (hscripts script hmem).1, ?_⟩, hafter⟩
      exact fun script hmem => (hscripts script (List.mem_of_mem_tail hmem)).2
    · refine ⟨⟨none, chain⟩ :: program, ⟨?_, fun script hmem => (hscripts script hmem).2⟩,
        .cons (.headless hwritten) hafter⟩
      intro script hmem
      rcases List.mem_cons.1 hmem with rfl | hmem
      · exact ⟨by simp, fun _ => hdone, hformed⟩
      · exact (hscripts script hmem).1

/-! ## The program behind a graph -/

section Said

variable {p : Statement → Prop} (hp : ∀ line statement, Statement.ofLine? line = some statement → p statement)
include hp

theorem Chain.Written.all {chain : Chain Statement} {lines : List SourceLine} (h : chain.Written lines) :
    chain.All p := by
  induction h with
  | done => trivial
  | simple hline _ ih => exact ⟨hp _ _ hline, ih⟩
  | loop hline _ _ _ ihbody ihrest => exact ⟨hp _ _ hline, ihbody, ihrest⟩
  | branch hline _ _ _ _ _ ihbody ihotherwise ihrest => exact ⟨hp _ _ hline, ihbody, ihotherwise, ihrest⟩

theorem Script.Written.all {script : Script Statement} {lines : List SourceLine} (h : script.Written lines) :
    script.All p := by
  cases h with
  | hat hline hchain =>
    refine ⟨?_, hchain.all hp⟩
    rintro hat ⟨⟩
    exact hp _ _ hline
  | headless hchain => exact ⟨by simp, hchain.all hp⟩

theorem Program.Written.all {program : Program Statement} {lines : List SourceLine} (h : program.Written lines) :
    ∀ script ∈ program, script.All p := by
  induction h with
  | nil => simp
  | cons hscript _ ih => exact List.forall_mem_cons.2 ⟨hscript.all hp, ih⟩

end Said

theorem Program.Written.regular {program : Program Statement} {lines : List SourceLine} (h : program.Written lines) :
    ∀ script ∈ program, script.All Statement.Regular :=
  h.all fun _ _ => Statement.regular_of_ofLine?

/-- Whatever the lines, the graph that they assemble into is that of a program which some lines write down. -/
theorem exists_written_program (layout : Layout) (lines : List SourceLine) :
    ∃ (program : Program Statement) (repaired : List SourceLine), program.WellFormed ∧ program.Written repaired ∧
      (Assembly.ofLines layout lines).graph = program.graph layout := by
  have hclosing : SourceLine.Marks ⟨0, "end"⟩ .close := by
    rw [SourceLine.Marks]
    decide
  obtain ⟨program, hformed, hwritten⟩ := exists_written hclosing lines
  obtain ⟨hgraph, -, -⟩ := @Assembly.ofLines_written layout program _ hwritten hformed
  obtain ⟨last, hrepaired⟩ := Assembly.ofLines_repair_eq layout hclosing lines
  refine ⟨program, _, hformed, hwritten, ?_⟩
  calc (Assembly.ofLines layout lines).graph
      = (Assembly.ofLines layout (repair ⟨0, "end"⟩ lines)).graph := by rw [hrepaired]
    _ = (Assembly.ofLines layout ((repair ⟨0, "end"⟩ lines).filter SourceLine.isStructural)).graph :=
        (congrArg Assembly.graph (Assembly.feedAll_filter _ {} #[])).symm
    _ = program.graph layout := hgraph

/-- Whatever the lines, the graph that they assemble into is that of a program. -/
theorem exists_program (layout : Layout) (lines : List SourceLine) :
    ∃ program : Program Statement, program.WellFormed ∧ (∀ script ∈ program, script.All Statement.Regular) ∧
      (Assembly.ofLines layout lines).graph = program.graph layout := by
  obtain ⟨program, repaired, hformed, hwritten, hgraph⟩ := exists_written_program layout lines
  exact ⟨program, hformed, hwritten.regular, hgraph⟩

end ScratchScript
