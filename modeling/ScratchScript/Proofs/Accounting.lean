import Mathlib.Algebra.Ring.Nat
import ScratchScript.Proofs.Balance
import ScratchScript.Proofs.ReadBack
import ScratchScript.Proofs.Typing

/-!
# Every line is accounted for

A line is blank, a fence, a marker, a statement or none of these, and the assembly loses none of them
(`compile_accounts`):

* the lines that are none of these are the skipped ones, with their numbers;
* the statements are the blocks that are no predicates, one block for each line and in the order of the lines, and all
  other blocks belong to the conditions of these lines;
* a skipped line leaves no trace: with an empty line in its place the result is the same.

The first and the last part follow from what a line that is no statement and no marker does to an assembly, which is
nothing but noting it. The second one is an invariant of the assembly, `Graph.Accounts`: each line adds what it says,
and what is done later to a block, links and the change of an if into an if-else, never touches what it says.
-/

namespace ScratchScript

/-! ## What a block says -/

/-- The block says what the statement says; an if may have got an else branch. -/
structure Block.Tells (block : Block) (statement : Statement) : Prop where
  opcode : block.opcode = statement.opcode ∨ statement.opcode = .ifThen ∧ block.opcode = .ifElse
  fields : block.fields = statement.fields
  literals : block.literals = statement.literals

/-- The blocks that are no predicates. -/
def Graph.statements (graph : Graph) : List Block :=
  graph.toList.filter fun block => !block.opcode.isPredicate

@[simp] theorem Input.literal?_literal (text : Literal) : (Input.literal text).literal? = some text := rfl

@[simp] theorem Input.literal?_block (target : Nat) : (Input.block target).literal? = none := rfl

namespace Block

theorem literals_setInput {block : Block} {name : String} (h : ∀ entry ∈ block.literals, entry.1 ≠ name)
    (target : Nat) : (block.setInput name (.block target)).literals = block.literals := by
  unfold literals setInput at *
  dsimp only
  generalize block.inputs = entries at h ⊢
  induction entries with
  | nil => rfl
  | cons entry entries ih =>
    obtain ⟨other, old⟩ := entry
    cases old with
    | literal text =>
      have hne : other ≠ name := h (other, text) (by simp)
      have hrest := ih fun entry hmem => h entry (List.mem_cons_of_mem _ hmem)
      simp [setEntry, hne, hrest]
    | block old =>
      have hrest := ih fun entry hmem => h entry hmem
      by_cases heq : other = name
      · rw [setEntry, if_pos (by simpa using heq)]
        rfl
      · rw [setEntry, if_neg (by simpa using heq)]
        exact hrest

variable {block : Block} {statement : Statement}

theorem Tells.setInput (h : block.Tells statement) (hregular : statement.Regular) {name : String}
    (hname : name ∈ blockSlots) (target : Nat) : (block.setInput name (.block target)).Tells statement := by
  refine ⟨h.opcode, h.fields, ?_⟩
  rw [literals_setInput, h.literals]
  intro entry hmem heq
  rw [h.literals] at hmem
  exact hregular.literals entry hmem (heq ▸ hname)

theorem Tells.upgrade (h : block.Tells statement) (haccepts : block.opcode.acceptsElse = true) :
    { block with opcode := .ifElse }.Tells statement := by
  refine ⟨?_, h.fields, h.literals⟩
  rcases h.opcode with heq | ⟨hif, -⟩
  · rw [heq] at haccepts
    cases hopcode : statement.opcode <;> simp [hopcode, Opcode.acceptsElse] at haccepts ⊢
  · exact .inr ⟨hif, rfl⟩

theorem tells_block (hregular : statement.Regular) (spot : Option Position) (parent : Option Nat) (index : Nat) :
    (statement.block spot parent index).Tells statement := by
  refine ⟨.inl (by simp), by simp, ?_⟩
  rw [Statement.block_eq_linked hregular, Statement.literals_linked]

end Block

theorem Condition.isPredicate_of_mem_blocks {condition : Condition} {parent index : Nat} {block : Block}
    (h : block ∈ condition.blocks parent index) : block.opcode.isPredicate = true := by
  obtain ⟨⟨node, hnode⟩, -⟩ := Condition.of_mem_blocks h
  cases node with
  | missing => simp [opcode?] at hnode
  | join connective => cases connective <;> exact (Option.some.inj hnode) ▸ rfl
  | compare comparison => cases comparison <;> exact (Option.some.inj hnode) ▸ rfl
  | _ => exact (Option.some.inj hnode) ▸ rfl

/-! ## The invariant -/

theorem forall₂_filter_of_changed {R : Block → Statement → Prop} {p : Block → Bool} {blocks changed : List Block}
    {said : List Statement} (h : List.Forall₂ R (blocks.filter p) said)
    (hchanged : List.Forall₂ (fun block other => p other = p block ∧ ∀ statement, R block statement → R other statement)
      blocks changed) : List.Forall₂ R (changed.filter p) said := by
  induction hchanged generalizing said with
  | nil => exact h
  | @cons block other blocks changed hhead _ ih =>
    obtain ⟨hp, hR⟩ := hhead
    by_cases hblock : p block = true
    · rw [List.filter_cons_of_pos hblock] at h
      rw [List.filter_cons_of_pos (hp.trans hblock)]
      cases h with
      | cons hfirst hrest => exact .cons (hR _ hfirst) (ih hrest)
    · rw [List.filter_cons_of_neg hblock] at h
      rw [List.filter_cons_of_neg (by rwa [hp])]
      exact ih h

/-- The blocks account for what has been said, statement by statement and condition by condition. -/
structure Graph.Accounts (graph : Graph) (said : List Statement) : Prop where
  tells : List.Forall₂ (fun block statement => block.Tells statement ∧ statement.Regular) graph.statements said
  size : graph.size = (said.map Statement.size).sum

namespace Graph.Accounts

variable {graph : Graph} {said : List Statement} (h : graph.Accounts said)
include h

theorem of_changed {other : Graph} (hsize : other.size = graph.size)
    (hchanged : ∀ index block changed, graph.block? index = some block → other.block? index = some changed →
      changed.opcode.isPredicate = block.opcode.isPredicate ∧
        ∀ statement, statement.Regular → block.Tells statement → changed.Tells statement) :
    other.Accounts said := by
  refine ⟨?_, hsize.trans h.size⟩
  apply forall₂_filter_of_changed h.tells
  apply forall₂_toList hsize.symm
  intro index block changed hblock hother
  obtain ⟨hpredicate, htells⟩ := hchanged index block changed hblock hother
  exact ⟨by rw [hpredicate], fun statement ⟨htold, hregular⟩ => ⟨htells statement hregular htold, hregular⟩⟩

theorem modify {place : Nat} {change : Block → Block}
    (hchange : ∀ block, graph.block? place = some block →
      (change block).opcode.isPredicate = block.opcode.isPredicate ∧
        ∀ statement, statement.Regular → block.Tells statement → (change block).Tells statement) :
    (graph.modify place change).Accounts said := by
  apply h.of_changed (size_modify _ _ _)
  intro index block changed hblock hother
  rw [block?_modify, hblock, Option.map_some, Option.some.injEq] at hother
  subst hother
  by_cases hplace : index = place
  · rw [if_pos hplace]
    exact hchange block (hplace ▸ hblock)
  · rw [if_neg hplace]
    exact ⟨rfl, fun _ _ htells => htells⟩

theorem relabel (label : Nat → String) : (graph.relabel label).Accounts said := by
  apply h.of_changed (size_relabel _ _)
  intro index block changed hblock hother
  rw [block?_relabel_of_some hblock, Option.some.injEq] at hother
  subst hother
  exact ⟨rfl, fun _ _ htells => ⟨htells.opcode, htells.fields, htells.literals⟩⟩

theorem append {statement : Statement} (htyped : statement.Typed) (spot : Option Position) (parent : Option Nat)
    (index : Nat) :
    (graph.append (statement.block spot parent index :: statement.conditionBlocks index)).Accounts
      (said ++ [statement]) := by
  have hregular := htyped.toRegular
  have hown : (statement.block spot parent index :: statement.conditionBlocks index).filter
      (fun block => !block.opcode.isPredicate) = [statement.block spot parent index] := by
    rw [List.filter_cons_of_pos (by simp [htyped.isPredicate]), List.filter_eq_nil_iff.2]
    intro block hmem
    simp [Condition.isPredicate_of_mem_blocks hmem]
  constructor
  · rw [statements, toList_append, List.filter_append, hown]
    exact List.rel_append h.tells (.cons ⟨Block.tells_block hregular spot parent index, hregular⟩ .nil)
  · rw [size_append, h.size, List.map_append, List.sum_append, List.length_cons, Statement.length_conditionBlocks]
    simp [Statement.size, Nat.add_comm]

end Graph.Accounts

namespace Assembly

variable {layout : Layout} {assembly : Assembly} {said : List Statement}

theorem accounts_joined (h : assembly.graph.Accounts said) : assembly.joined.Accounts said := by
  unfold joined
  split
  · rename_i owner slot _
    apply h.modify
    intro block _
    refine ⟨rfl, fun statement hregular htells => htells.setInput hregular ?_ _⟩
    cases slot <;> decide
  · apply h.modify
    intro block _
    exact ⟨rfl, fun statement _ htells => ⟨htells.opcode, htells.fields, htells.literals⟩⟩
  · exact h

theorem accounts_enterElse (h : assembly.graph.Accounts said) (number : Nat) :
    (assembly.enterElse number).graph.Accounts said := by
  unfold enterElse
  split
  · exact h
  · split
    · exact h
    · rename_i frame outer _ owner howner
      split
      · rename_i haccepts
        have haccepts : owner.opcode.acceptsElse = true := by simp_all
        apply h.modify
        intro block hblock
        obtain rfl : owner = block := by simpa [howner] using hblock
        refine ⟨?_, fun statement _ htells => htells.upgrade haccepts⟩
        cases hopcode : owner.opcode <;> simp [hopcode, Opcode.acceptsElse] at haccepts <;> rfl
      · exact h

/-- A statement adds its block and those of its condition at the end; of the blocks before, it changes at most the one
it is linked from. -/
theorem exists_graph_of_statement (layout : Layout) (assembly : Assembly) {line : SourceLine} {statement : Statement}
    (hline : line.Says statement) : ∃ before spot parent, (before = assembly.graph ∨ before = assembly.joined) ∧
      (assembly.feed layout line).graph = before.append
        (statement.block spot parent assembly.graph.size :: statement.conditionBlocks assembly.graph.size) := by
  unfold feed
  rw [reading_eq_statement_iff.2 hline]
  dsimp only
  split
  · rename_i hhat
    have hmissing := Statement.conditionRead_of_isHat (Statement.regular_of_ofLine? hline) hhat
    rw [startScript_eq hmissing]
    refine ⟨_, some (layout.position assembly.scripts), none, .inl rfl, ?_⟩
    rw [Statement.conditionBlocks, hmissing]
    rfl
  · rw [addStatement_eq]
    refine ⟨_, assembly.spot layout, assembly.container, .inr rfl, ?_⟩
    dsimp only
    split <;> rfl

theorem accounts_feed (h : assembly.graph.Accounts said) (line : SourceLine) :
    (assembly.feed layout line).graph.Accounts (said ++ (Statement.ofLine? line.text.toList).toList) := by
  cases hsaid : Statement.ofLine? line.text.toList with
  | some statement =>
    obtain ⟨before, spot, parent, hbefore, hgraph⟩ := exists_graph_of_statement layout assembly hsaid
    rw [hgraph]
    have hjoined : before.Accounts said := by
      rcases hbefore with rfl | rfl
      · exact h
      · exact accounts_joined h
    exact hjoined.append (Statement.typed_of_ofLine? _ statement hsaid) spot parent _
  | none =>
    rw [Option.toList_none, List.append_nil]
    unfold feed
    cases hreading : line.reading with
    | blank => exact h
    | unknown => exact h
    | statement statement =>
      rw [reading_eq_statement_iff, hsaid] at hreading
      simp at hreading
    | marker marker =>
      cases marker with
      | otherwise => exact accounts_enterElse h line.number
      | close =>
        dsimp only [close]
        split <;> exact h

theorem accounts_ofLines (layout : Layout) (lines : List SourceLine) :
    (ofLines layout lines).graph.Accounts (lines.filterMap fun line => Statement.ofLine? line.text.toList) := by
  have hrun : ∀ (lines : List SourceLine) (assembly : Assembly) (said : List Statement),
      assembly.graph.Accounts said →
      (feedAll layout assembly lines).graph.Accounts
        (said ++ lines.filterMap fun line => Statement.ofLine? line.text.toList) := by
    intro lines
    induction lines with
    | nil =>
      intro assembly said h
      rwa [List.filterMap_nil, List.append_nil]
    | cons line lines ih =>
      intro assembly said h
      have hrest := ih (assembly.feed layout line) _ (accounts_feed h line)
      rw [feedAll_cons, List.filterMap_cons]
      cases hsaid : Statement.ofLine? line.text.toList with
      | none => simpa [hsaid] using hrest
      | some statement => simpa [hsaid] using hrest
  exact hrun lines {} [] ⟨.nil, rfl⟩

end Assembly

/-! ## The lines of a source -/

namespace Source

def cleaned (source : String) : List (List Char × Nat) :=
  ((source.toList.splitOn '\n').map clean).zipIdx 1

/-- The source with empty lines in place of those that have one of the numbers. -/
def blankOut (numbers : List Nat) (source : String) : String :=
  String.ofList <| ['\n'].intercalate <|
    ((source.toList.splitOn '\n').zipIdx 1).map fun (line, number) => if numbers.contains number then [] else line

/-- Whether the cleaned line is neither blank nor a fence nor a marker, and no rule reads it. -/
def isUnread (line : List Char) : Bool :=
  !isFence line && !line.isEmpty && (Marker.ofLine? line).isNone &&
    Vocabulary.rules.all fun rule => (rule.read? line (Text.lowercase line)).isNone

def said? (line : List Char) : Option Statement :=
  if isFence line then none else Statement.ofLine? line

def line? : List Char × Nat → Option SourceLine
  | (text, number) => if isFence text then none else some ⟨number, String.ofList text⟩

def unread (source : String) : List SourceLine :=
  (cleaned source).filterMap fun (text, number) =>
    if isUnread text then some ⟨number, String.ofList text⟩ else none

theorem splitOn_cons (c : Char) (text : List Char) :
    (c :: text).splitOn '\n' =
      if c = '\n' then [] :: text.splitOn '\n' else (text.splitOn '\n').modifyHead (c :: ·) := by
  rw [List.splitOn, List.splitOnP_cons_eq_if_modifyHead]
  simp [List.splitOn]

theorem not_mem_of_mem_splitOn {text line : List Char} (h : line ∈ text.splitOn '\n') : '\n' ∉ line := by
  induction text generalizing line with
  | nil =>
    obtain rfl : line = [] := by simpa using h
    simp
  | cons c text ih =>
    rw [splitOn_cons] at h
    split at h
    · rcases List.mem_cons.1 h with rfl | hmem
      · simp
      · exact ih hmem
    · rename_i hc
      cases hsplit : text.splitOn '\n' with
      | nil => exact absurd hsplit (List.splitOnP_ne_nil _ _)
      | cons first rest =>
        rw [hsplit, List.modifyHead_cons] at h
        rw [hsplit] at ih
        rcases List.mem_cons.1 h with rfl | hmem
        · simpa [Ne.symm hc] using ih List.mem_cons_self
        · exact ih (List.mem_cons_of_mem _ hmem)

theorem splitOn_eq_splitLines (text : List Char) :
    text.splitOn '\n' = splitLines text ∨ text.splitOn '\n' = splitLines text ++ [[]] := by
  induction text with
  | nil => exact .inr rfl
  | cons c text ih =>
    have hlines : splitLines (c :: text) = joinLine c (splitLines text) := rfl
    rw [splitOn_cons, hlines]
    unfold joinLine
    by_cases hc : c = '\n'
    · rcases ih with heq | heq <;> simp [hc, heq]
    · cases hsplit : splitLines text with
      | nil =>
        have hne : text.splitOn '\n' ≠ [] := List.splitOnP_ne_nil _ _
        rcases ih with heq | heq
        · exact absurd (heq.trans hsplit) hne
        · simp [hc, heq, hsplit]
      | cons first rest => rcases ih with heq | heq <;> simp [hc, heq, hsplit]

theorem lines_eq_filterMap (source : String) :
    (cleaned source).filterMap line? = lines source.toList ∨
      ∃ number, (cleaned source).filterMap line? = lines source.toList ++ [⟨number, ""⟩] := by
  have hlines : lines source.toList = (((splitLines source.toList).map clean).zipIdx 1).filterMap line? := by
    rw [List.zipIdx_map, List.filterMap_map]
    rfl
  rw [hlines, cleaned]
  rcases splitOn_eq_splitLines source.toList with heq | heq
  · exact .inl (by rw [heq])
  · refine .inr ⟨1 + ((splitLines source.toList).map clean).length, ?_⟩
    rw [heq, List.map_append, List.zipIdx_append, List.filterMap_append]
    rfl

theorem cleaned_blankOut (numbers : List Nat) (source : String) :
    cleaned (blankOut numbers source) =
      (cleaned source).map fun (text, number) => (if numbers.contains number then [] else text, number) := by
  have hsplit : (blankOut numbers source).toList.splitOn '\n' =
      ((source.toList.splitOn '\n').zipIdx 1).map
        fun (line, number) => if numbers.contains number then [] else line := by
    rw [blankOut, String.toList_ofList]
    apply List.splitOn_intercalate
    · intro line hmem
      obtain ⟨⟨old, number⟩, hold, rfl⟩ := List.mem_map.1 hmem
      have hline := not_mem_of_mem_splitOn (List.fst_mem_of_mem_zipIdx hold)
      dsimp only
      split
      · simp
      · exact hline
    · simp
  have hzip : ∀ (lines : List (List Char)) (first : Nat),
      (((lines.zipIdx first).map fun (line, number) => if numbers.contains number then [] else line).map clean).zipIdx
          first =
        ((lines.map clean).zipIdx first).map
          fun (text, number) => (if numbers.contains number then [] else text, number) := by
    intro lines
    induction lines with
    | nil => exact fun _ => rfl
    | cons line lines ih =>
      intro first
      have hclean : clean (if numbers.contains first then [] else line) =
          if numbers.contains first then [] else clean line := by
        split <;> rfl
      simp only [List.zipIdx_cons, List.map_cons, ih (first + 1), hclean]
  rw [cleaned, hsplit, hzip]
  rfl

end Source

/-! ## Lines without an effect -/

def SourceLine.isUnknown (line : SourceLine) : Bool :=
  line.reading == .unknown

theorem SourceLine.isStructural_of_isUnknown {line : SourceLine} (h : line.isUnknown = true) :
    line.isStructural = false := by
  have hreading : line.reading = .unknown := by simpa [isUnknown] using h
  simp [isStructural, hreading]

namespace Assembly

variable {layout : Layout}

theorem skipped_feed (layout : Layout) (assembly : Assembly) (line : SourceLine) :
    (assembly.feed layout line).skipped.toList = assembly.skipped.toList ++ [line].filter SourceLine.isUnknown := by
  cases hstructural : line.isStructural with
  | true =>
    have hskipped := congrArg Assembly.skipped (@feed_withSkipped layout line hstructural assembly assembly.skipped)
    have hknown : line.isUnknown = false := by
      unfold SourceLine.isStructural at hstructural
      unfold SourceLine.isUnknown
      cases hreading : line.reading <;> simp_all
    have hsame : (assembly.feed layout line).skipped = assembly.skipped := hskipped
    simp [hknown, hsame]
  | false =>
    unfold SourceLine.isStructural at hstructural
    unfold feed SourceLine.isUnknown
    cases hreading : line.reading <;> simp_all [skip]

theorem skipped_ofLines (layout : Layout) (lines : List SourceLine) :
    (ofLines layout lines).skipped.toList = lines.filter SourceLine.isUnknown := by
  have hrun : ∀ (lines : List SourceLine) (assembly : Assembly),
      (feedAll layout assembly lines).skipped.toList =
        assembly.skipped.toList ++ lines.filter SourceLine.isUnknown := by
    intro lines
    induction lines with
    | nil => exact fun assembly => (List.append_nil _).symm
    | cons line lines ih =>
      intro assembly
      rw [feedAll_cons, ih, skipped_feed, List.append_assoc, ← List.filter_append]
      rfl
  exact hrun lines {}

theorem ofLines_eq_of_structural {lines other : List SourceLine}
    (hstructural : other.filter SourceLine.isStructural = lines.filter SourceLine.isStructural)
    (hknown : other.filter SourceLine.isUnknown = []) :
    ofLines layout other = (ofLines layout lines).withSkipped #[] := by
  have hother := @feedAll_filter layout other {} #[]
  have hlines := @feedAll_filter layout lines {} #[]
  have hnone : (ofLines layout other).skipped = #[] := by
    rw [← Array.toList_inj, skipped_ofLines, hknown]
  calc ofLines layout other = (ofLines layout other).withSkipped (ofLines layout other).skipped := rfl
    _ = (ofLines layout other).withSkipped #[] := by rw [hnone]
    _ = feedAll layout (withSkipped {} #[]) (other.filter SourceLine.isStructural) := hother.symm
    _ = (ofLines layout lines).withSkipped #[] := by rw [hstructural, hlines]; rfl

end Assembly

theorem Assembly.ofSource_eq_ofLines (layout : Layout) (source : String) :
    Assembly.ofSource layout source = ofLines layout ((Source.cleaned source).filterMap Source.line?) := by
  rcases Source.lines_eq_filterMap source with heq | ⟨number, heq⟩
  · rw [heq]
    rfl
  · rw [heq, ofLines, feedAll_append]
    rfl

namespace Source

theorem ofLine?_eq_none_iff {line : List Char} (htrim : Text.trim line = line) (hne : line ≠ [])
    (hmarker : Marker.ofLine? line = none) :
    Statement.ofLine? line = none ↔
      ∀ rule ∈ Vocabulary.rules, rule.read? line (Text.lowercase line) = none := by
  simp [Statement.ofLine?, Vocabulary.classify?, Vocabulary.firstMatch?, htrim, hne, hmarker,
    List.findSome?_eq_none_iff]

theorem trim_of_mem_cleaned {source : String} {text : List Char} {number : Nat} (h : (text, number) ∈ cleaned source) :
    Text.trim text = text := by
  obtain ⟨line, -, rfl⟩ := List.mem_map.1 (List.fst_mem_of_mem_zipIdx h)
  exact Text.trim_trim _

theorem isUnknown_eq {text : List Char} (htrim : Text.trim text = text) (number : Nat) :
    SourceLine.isUnknown ⟨number, String.ofList text⟩ =
      (!text.isEmpty && (Marker.ofLine? text).isNone &&
        Vocabulary.rules.all fun rule => (rule.read? text (Text.lowercase text)).isNone) := by
  by_cases hne : text = []
  · simp [hne, SourceLine.isUnknown, SourceLine.reading]
  · cases hmarker : Marker.ofLine? text with
    | some marker => simp [hne, hmarker, SourceLine.isUnknown, SourceLine.reading]
    | none =>
      have hrules := ofLine?_eq_none_iff htrim hne hmarker
      rw [Bool.eq_iff_iff]
      simp only [SourceLine.isUnknown, SourceLine.reading, String.isEmpty_iff, String.toList_ofList, hmarker]
      cases hsaid : Statement.ofLine? text with
      | none => simpa [hne] using hrules.1 hsaid
      | some statement => simpa [hne, hsaid] using hrules

theorem filter_isUnknown_line? {text : List Char} (htrim : Text.trim text = text) (number : Nat) :
    (line? (text, number)).filter SourceLine.isUnknown =
      if isUnread text then some ⟨number, String.ofList text⟩ else none := by
  cases hfence : isFence text with
  | true => simp [line?, isUnread, hfence]
  | false => simp [line?, isUnread, hfence, Option.filter_some, isUnknown_eq htrim]

theorem filter_isUnknown_cleaned (source : String) :
    ((cleaned source).filterMap line?).filter SourceLine.isUnknown = unread source := by
  rw [List.filter_filterMap]
  apply List.filterMap_congr
  rintro ⟨text, number⟩ hmem
  exact filter_isUnknown_line? (trim_of_mem_cleaned hmem) number

theorem said_cleaned (source : String) :
    ((cleaned source).filterMap line?).filterMap (fun line => Statement.ofLine? line.text.toList) =
      (cleaned source).filterMap fun (text, _) => said? text := by
  rw [List.filterMap_filterMap]
  apply List.filterMap_congr
  rintro ⟨text, number⟩ -
  unfold line? said?
  dsimp only
  split
  · rfl
  · rw [Option.bind_some, String.toList_ofList]

theorem mem_numbers_unread_iff {source : String} {text : List Char} {number : Nat}
    (h : (text, number) ∈ cleaned source) :
    number ∈ (unread source).map SourceLine.number ↔ isUnread text = true := by
  simp only [unread, List.mem_map, List.mem_filterMap, Prod.exists, Option.ite_none_right_eq_some, Option.some.injEq]
  constructor
  · rintro ⟨line, ⟨other, same, hother, hunread, rfl⟩, rfl⟩
    have heq : some text = some other := by
      rw [cleaned, List.mk_mem_zipIdx_iff_le_and_getElem?_sub] at h hother
      rw [← h.2, ← hother.2]
    rwa [Option.some.inj heq]
  · exact fun hunread => ⟨_, ⟨text, number, h, hunread, rfl⟩, rfl⟩

theorem filterMap_line?_blankOut (source : String) :
    (cleaned (blankOut ((unread source).map SourceLine.number) source)).filterMap line? =
      (cleaned source).filterMap fun (text, number) => line? (if isUnread text then [] else text, number) := by
  rw [cleaned_blankOut, List.filterMap_map]
  apply List.filterMap_congr
  rintro ⟨text, number⟩ hmem
  have hiff : ((unread source).map SourceLine.number).contains number = isUnread text := by
    rw [Bool.eq_iff_iff, List.contains_iff_mem, mem_numbers_unread_iff hmem]
  simp only [Function.comp_apply, hiff]

theorem blankOut_unread (source : String) :
    let blanked := (cleaned (blankOut ((unread source).map SourceLine.number) source)).filterMap line?
    blanked.filter SourceLine.isStructural = ((cleaned source).filterMap line?).filter SourceLine.isStructural ∧
      blanked.filter SourceLine.isUnknown = [] := by
  intro blanked
  rw [show blanked = _ from filterMap_line?_blankOut source, List.filter_filterMap, List.filter_filterMap,
    List.filter_filterMap]
  constructor
  · apply List.filterMap_congr
    rintro ⟨text, number⟩ hmem
    by_cases hunread : isUnread text = true
    · have hunknown := filter_isUnknown_line? (trim_of_mem_cleaned hmem) number
      rw [if_pos hunread, Option.filter_eq_some_iff] at hunknown
      obtain ⟨hline, hunknown⟩ := hunknown
      simp only [hunread, if_true, hline, Option.filter_some, SourceLine.isStructural_of_isUnknown hunknown]
      rfl
    · simp [hunread]
  · rw [List.filterMap_eq_nil_iff]
    rintro ⟨text, number⟩ hmem
    by_cases hunread : isUnread text = true
    · simp only [hunread, if_true]
      rfl
    · simp only [hunread]
      rw [if_neg Bool.false_ne_true, filter_isUnknown_line? (trim_of_mem_cleaned hmem), if_neg hunread]

end Source

/-- No line is lost or counted twice. The skipped lines are the unread ones; the blocks that are no predicates tell the
other lines that say something, one by one and in order; each of these lines has one block and those of its condition;
and with empty lines in place of the skipped ones the result is the same, but for the skipped lines. -/
theorem compile_accounts (layout : Layout) (seed : UInt64) (source : String) :
    let compiled := compile layout seed source
    let said := (Source.cleaned source).filterMap fun (text, _) => Source.said? text
    compiled.skipped = Source.unread source ∧
      List.Forall₂ Block.Tells compiled.graph.statements said ∧
      compiled.graph.size = (said.map fun statement => 1 + statement.conditionRead.size).sum ∧
      compile layout seed (Source.blankOut (compiled.skipped.map SourceLine.number) source) =
        { compiled with skipped := [] } := by
  intro compiled said
  have hsource := Assembly.ofSource_eq_ofLines layout source
  have hskipped : compiled.skipped = Source.unread source := by
    show (Assembly.ofSource layout source).skipped.toList = _
    rw [hsource, Assembly.skipped_ofLines, Source.filter_isUnknown_cleaned]
  have haccounts : compiled.graph.Accounts said := by
    apply Graph.Accounts.relabel
    show (Assembly.ofSource layout source).graph.Accounts said
    rw [hsource, show said = _ from (Source.said_cleaned source).symm]
    exact Assembly.accounts_ofLines layout _
  refine ⟨hskipped, haccounts.tells.imp fun _ _ => And.left, haccounts.size, ?_⟩
  obtain ⟨hstructural, hknown⟩ := Source.blankOut_unread source
  have hblanked := @Assembly.ofLines_eq_of_structural layout _ _ hstructural hknown
  rw [← Assembly.ofSource_eq_ofLines, ← Assembly.ofSource_eq_ofLines, ← hskipped] at hblanked
  unfold compile compilePlain
  rw [hblanked]
  rfl

end ScratchScript
