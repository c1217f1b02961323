import Mathlib.Data.List.GetD
import ScratchScript.Proofs.Brackets
import ScratchScript.Proofs.Casing
import ScratchScript.Proofs.Independence
import ScratchScript.Proofs.Renaming

/-!
# Case does not matter

`compile_caseBlind`: sources that differ only in the case of ASCII letters give the same blocks with the same ids, links
and positions, the same skipped lines and the same warnings, up to the case of the texts in them.

A source is compared with the same source in lowercase. The lines have the same readings up to the case of stored texts
(`alike_lowercase`), since conditions and statements do (`read_lowerAscii`, `ofLine?_lowerAscii`); then the two runs
mirror each other, with nothing in front of the second one.
-/

namespace ScratchScript

open Text

/-! ## Conditions -/

namespace Condition

theorem readComparison?_lowerAscii (text : List Char) :
    (readComparison? (lowerAscii text)).map (mapTexts String.toLower) =
      (readComparison? text).map (mapTexts String.toLower) := by
  have hsplit := splitComparison?_lowerAscii none 0 text
  rw [Option.map_none] at hsplit
  rw [readComparison?, readComparison?, hsplit]
  cases splitComparison? none 0 text with
  | none => rfl
  | some parts =>
    obtain ⟨left, comparison, right⟩ := parts
    simp only [Option.map_some, lowerParts, trim_lowerAscii, isOperand_lowerAscii,
      Vocabulary.unwrapOperand_lowerAscii]
    split
    · simp only [Option.map_some, mapTexts, toLower_ofList_lowerAscii]
    · rfl

theorem mapTexts_wording {forms : List Form} {condition : List Char → Condition} (h : (forms, condition) ∈ wordings)
    (entry : List Char) :
    (condition (lowerAscii entry)).mapTexts String.toLower = (condition entry).mapTexts String.toLower := by
  simp only [wordings, List.mem_cons, Prod.mk.injEq, List.not_mem_nil, or_false] at h
  rcases h with ⟨-, rfl⟩ | ⟨-, rfl⟩ | ⟨-, rfl⟩ | ⟨-, rfl⟩
  · simp only [mapTexts, toLower_ofList_lowerAscii]
  · simp only [mapTexts, Vocabulary.touchTarget_lowerAscii]
  · simp only [mapTexts, Vocabulary.keyName_lowerAscii]
  · rfl

theorem readWording?_lowerAscii (text : List Char) :
    (readWording? (lowerAscii text)).map (mapTexts String.toLower) =
      (readWording? text).map (mapTexts String.toLower) := by
  rw [readWording?, readWording?, List.map_findSome?, List.map_findSome?, ← List.head?_filterMap,
    ← List.head?_filterMap]
  apply congrArg List.head?
  apply List.filterMap_congr
  rintro ⟨forms, condition⟩ hmem
  simp only [Function.comp_apply, Form.findSome?_read?_lowerAscii, Option.map_map]
  congr 1
  funext holes
  have hentry : Source.dropMenuMark ((holes.map lowerAscii).headD []) =
      lowerAscii (Source.dropMenuMark (holes.headD [])) := by
    cases holes with
    | nil => rfl
    | cons hole holes => exact Source.dropMenuMark_lowerAscii hole
  simp only [Function.comp_apply, hentry, mapTexts_wording hmem]

theorem readLeaf_lowerAscii (text : List Char) :
    (readLeaf (lowerAscii text)).mapTexts String.toLower = (readLeaf text).mapTexts String.toLower := by
  have hgetD : ∀ leaf : Option Condition,
      (leaf.getD .missing).mapTexts String.toLower = (leaf.map (mapTexts String.toLower)).getD .missing := by
    intro leaf
    cases leaf <;> rfl
  simp only [readLeaf, hgetD, Option.map_or, dropQuestionMarks_lowerAscii, readComparison?_lowerAscii,
    readWording?_lowerAscii]

theorem read_lowerAscii (text : List Char) :
    (read (lowerAscii text)).mapTexts String.toLower = (read text).mapTexts String.toLower := by
  have hbare : ∀ text, ¬ (bare text).isEmpty = true → bare (lowerAscii text) ≠ [] := by
    intro text hne
    rwa [← isEmpty_lowerAscii, ← bare_lowerAscii, List.isEmpty_iff] at hne
  have hsplits : ∀ text, splitConnective? (bare (lowerAscii text)) = (splitConnective? (bare text)).map lowerParts := by
    intro text
    rw [bare_lowerAscii, splitConnective?_lowerAscii]
  have hnegates : ∀ text, negated? (bare (lowerAscii text)) = (negated? (bare text)).map lowerAscii := by
    intro text
    rw [bare_lowerAscii, negated?_lowerAscii]
  -- along the reading of the text as written: each step finds the same parts in the text in lowercase
  fun_induction read text with
  | case1 text hempty => rw [read, bare_lowerAscii, isEmpty_lowerAscii, if_pos hempty]
  | case2 text hne left connective right hsplit ihleft ihright =>
    have hlowered := hsplits text
    rw [hsplit, Option.map_some, lowerParts] at hlowered
    rw [read_of_split (hbare text hne) hlowered, mapTexts, mapTexts, ihleft, ihright]
  | case3 text hne hsplit rest hnegated ih =>
    have hnone := hsplits text
    have hlowered := hnegates text
    rw [hsplit, Option.map_none] at hnone
    rw [hnegated, Option.map_some] at hlowered
    rw [read_of_negated (hbare text hne) hnone hlowered, mapTexts, mapTexts, ih]
  | case4 text hne hsplit hnegated =>
    have hnone := hsplits text
    have hlowered := hnegates text
    rw [hsplit, Option.map_none] at hnone
    rw [hnegated, Option.map_none] at hlowered
    rw [read_of_leaf (hbare text hne) hnone hlowered, bare_lowerAscii, readLeaf_lowerAscii]

end Condition

/-! ## Statements -/

/-- What a statement says up to the case of its texts. -/
def Statement.caseless (statement : Statement) : Content :=
  statement.content.mapTexts String.toLower

namespace Vocabulary

theorem holeText_lowerAscii (holes : List (List Char)) (hole : Nat) :
    Rule.holeText (holes.map lowerAscii) hole = lowerAscii (Rule.holeText holes hole) := by
  rw [Rule.holeText, ← lowerAscii_nil, List.getD_map, trim_lowerAscii]
  rfl

theorem FieldStyle.mapTexts_field (style : FieldStyle) (f : String → String) (value : String) :
    (style.field value).mapTexts f = style.field (f value) := by
  cases style <;> rfl

theorem Rule.conditionRead_lowerAscii (rule : Rule) (lowered : List Char) (holes : List (List Char)) :
    (rule.statement lowered (holes.map lowerAscii)).conditionRead.mapTexts String.toLower =
      (rule.statement lowered holes).conditionRead.mapTexts String.toLower := by
  have hread : ∀ holes : List (List Char), (rule.statement lowered holes).conditionRead =
      if rule.conditional && !(holeText holes 0).isEmpty then Condition.read (holeText holes 0) else .missing := by
    intro holes
    simp only [Statement.conditionRead, statement, conditionFor]
    cases rule.conditional && !(holeText holes 0).isEmpty <;> simp
  rw [hread, hread, holeText_lowerAscii, isEmpty_lowerAscii]
  split
  · exact Condition.read_lowerAscii _
  · rfl

theorem Rule.content_lowerAscii (rule : Rule) (lowered : List Char) (holes : List (List Char)) :
    (rule.statement lowered (holes.map lowerAscii)).content.mapTexts String.toLower =
      (rule.statement lowered holes).content.mapTexts String.toLower := by
  have hcondition := rule.conditionRead_lowerAscii lowered holes
  simp only [Statement.content, Content.mapTexts, hcondition]
  simp only [statement, List.map_map, Function.comp_def, Literal.mapText, FieldStyle.mapTexts_field,
    holeText_lowerAscii, value_lowerAscii]

theorem Rule.read?_lowerAscii (rule : Rule) (line lowered : List Char) :
    (rule.read? (lowerAscii line) lowered).map Statement.caseless =
      (rule.read? line lowered).map Statement.caseless := by
  rw [read?, read?, Form.findSome?_read?_lowerAscii]
  split
  · rfl
  · rw [Option.map_map, Option.map_map, Option.map_map]
    congr 1
    funext holes
    exact rule.content_lowerAscii lowered holes

theorem ofLine?_lowerAscii (line : List Char) :
    (Statement.ofLine? (lowerAscii line)).map Statement.caseless = (Statement.ofLine? line).map Statement.caseless := by
  have hfirst : ∀ line, ((firstMatch? line).map (·.2)).map Statement.caseless =
      rules.findSome? fun rule => (rule.read? line (lowercase line)).map Statement.caseless := by
    intro line
    rw [map_firstMatch?, List.map_findSome?]
    rfl
  rw [Statement.ofLine?, Statement.ofLine?, classify?, classify?, trim_lowerAscii, isEmpty_lowerAscii,
    Source.Marker.ofLine?_lowerAscii]
  split
  · rfl
  · simp only [hfirst, lowercase_lowerAscii, Rule.read?_lowerAscii]

end Vocabulary

/-! ## Lines -/

theorem SourceLine.alike_lowercase (line : SourceLine) :
    line.Alike String.toLower (line.mapText String.toLower) := by
  have htext : (line.mapText String.toLower).text.toList = lowerAscii line.text.toList := toList_toLower line.text
  have hempty : (line.mapText String.toLower).text.isEmpty = line.text.isEmpty := by
    rw [Bool.eq_iff_iff, String.isEmpty_iff, String.isEmpty_iff, ← String.toList_eq_nil_iff, htext,
      ← String.toList_eq_nil_iff, ← List.isEmpty_iff, isEmpty_lowerAscii, List.isEmpty_iff]
  have hsaid := Vocabulary.ofLine?_lowerAscii line.text.toList
  refine ⟨?_, ?_⟩
  · simp only [mapText, SourceLine.mk.injEq, true_and]
    apply String.toList_injective
    rw [toList_toLower, toList_toLower, toList_toLower, lowerAscii_lowerAscii]
  · unfold reading
    rw [htext, hempty, Source.Marker.ofLine?_lowerAscii]
    split
    · exact .blank
    · split
      · exact .marker _
      · cases hline : Statement.ofLine? line.text.toList with
        | none =>
          rw [hline, Option.map_none, Option.map_eq_none_iff] at hsaid
          rw [hsaid]
          exact .unknown
        | some statement =>
          rw [hline, Option.map_some, Option.map_eq_some_iff] at hsaid
          obtain ⟨lowered, hlowered, hcontent⟩ := hsaid
          rw [hlowered]
          exact .statement hcontent.symm

theorem Source.lines_toLower (source : String) :
    Source.lines source.toLower.toList = (Source.lines source.toList).map (SourceLine.mapText String.toLower) := by
  rw [toList_toLower, lines, lines, splitLines_lowerAscii, List.zipIdx_map, List.filterMap_map, List.map_filterMap]
  congr 1
  funext ⟨line, number⟩
  simp only [Function.comp_apply, Prod.map, clean_lowerAscii, isFence_lowerAscii]
  split
  · rfl
  · simp [SourceLine.mapText, toLower_ofList]

/-! ## Compiled notation -/

def Graph.mapTexts (f : String → String) (graph : Graph) : Graph :=
  ⟨graph.blocks.map (Block.mapTexts f)⟩

def Compiled.mapTexts (f : String → String) (compiled : Compiled) : Compiled where
  graph := compiled.graph.mapTexts f
  skipped := compiled.skipped.map (SourceLine.mapText f)
  warnings := compiled.warnings

theorem Graph.mapTexts_relabel {f : String → String} {graph other : Graph}
    (h : graph.toList.map (Block.moved 0 f) = other.toList.map (Block.moved 0 f)) (label : Nat → String) :
    (graph.relabel label).mapTexts f = (other.relabel label).mapTexts f := by
  have hblock : ∀ (graph : Graph) (index : Nat), ((graph.relabel label).mapTexts f).block? index =
      (graph.toList.map (Block.moved 0 f))[index]?.map fun block => { block with id := label index } := by
    intro graph index
    have hmap : ((graph.relabel label).mapTexts f).block? index =
        ((graph.relabel label).block? index).map (Block.mapTexts f) := by
      simp [mapTexts, block?]
    rw [hmap, block?_relabel, List.getElem?_map, ← block?_eq_getElem?, Option.map_map, Option.map_map]
    congr 1
    funext block
    rw [Function.comp_apply, Function.comp_apply, Block.moved, shift_zero]
    rfl
  apply ext_block?
  intro index
  rw [hblock, hblock, h]

theorem Assembly.mirrors_toLower (layout : Layout) (source : String) :
    (ofSource layout source).Mirrors String.toLower {} (ofSource layout source.toLower) := by
  have hlines : List.Forall₂ (SourceLine.Alike String.toLower) (Source.lines source.toList)
      (Source.lines source.toLower.toList) := by
    rw [Source.lines_toLower, List.forall₂_map_right_iff, List.forall₂_same]
    exact fun line _ => line.alike_lowercase
  exact (mirrors_reset String.toLower {}).feedAll layout hlines

theorem mapTexts_compile_toLower (layout : Layout) (seed : UInt64) (source : String) :
    (compile layout seed source.toLower).mapTexts String.toLower =
      (compile layout seed source).mapTexts String.toLower := by
  have hmirrors := Assembly.mirrors_toLower layout source
  have hsettled : ∀ source : String,
      (Assembly.ofSource layout source).graph.Settled layout (Assembly.ofSource layout source).scripts :=
    fun source => Assembly.settled_ofLines layout (Source.lines source.toList)
  have hfront : Graph.Settled layout 0 {} := ⟨rfl, rfl⟩
  -- with nothing in front, the blocks stand in the same places of the graph and of the canvas
  have hblocks : (Assembly.ofSource layout source.toLower).graph.toList.map (Block.moved 0 String.toLower) =
      (Assembly.ofSource layout source).graph.toList.map (Block.moved 0 String.toLower) := by
    refine (hmirrors.toList_eq hfront (hsettled source.toLower)).trans ?_
    rw [show settle layout (Assembly.scripts {}) _ = _ from (hsettled source).1]
    rfl
  have hsize : (compilePlain layout source.toLower).graph.size = (compilePlain layout source).graph.size := by
    have hlength := congrArg List.length hblocks
    rw [List.length_map, List.length_map] at hlength
    rw [Graph.size_eq_length, Graph.size_eq_length]
    exact hlength
  have hgraph := Graph.mapTexts_relabel hblocks
    (placeId (BlockId.firstIds seed (compilePlain layout source).graph.size).toArray)
  rw [compile_eq_relabel, compile_eq_relabel, hsize, Compiled.mapTexts, Compiled.mapTexts, Compiled.mk.injEq]
  exact ⟨hgraph, hmirrors.skipped, hmirrors.warnings⟩

/-- Case does not matter: sources that are the same in lowercase give the same blocks, with the same ids, links, names,
kinds and positions, skip the same lines and give the same warnings, up to the case of the texts in them. Lowercase is
that of ASCII: no other letters are changed. -/
theorem compile_caseBlind (layout : Layout) (seed : UInt64) {source other : String}
    (h : source.toLower = other.toLower) :
    (compile layout seed source).mapTexts String.toLower = (compile layout seed other).mapTexts String.toLower := by
  rw [← mapTexts_compile_toLower, h, mapTexts_compile_toLower]

/-- A loop in capitals and in small letters: a text keeps its letters, and all else agrees. -/
theorem compile_caseBlind_capitals :
    let loud := "REPEAT UNTIL <KEY [SPACE V] PRESSED?>\nSAY [HELLO]"
    let quiet := "repeat until <key [space v] pressed?>\nsay [hello]"
    loud.toLower = quiet.toLower ∧
      ((compile {} 1 loud).graph.block? 2).map (·.inputs) = some [("MESSAGE", .literal ⟨.text, "HELLO"⟩)] ∧
      ((compile {} 1 quiet).graph.block? 2).map (·.inputs) = some [("MESSAGE", .literal ⟨.text, "hello"⟩)] ∧
      (compile {} 1 loud).mapTexts String.toLower = (compile {} 1 quiet).mapTexts String.toLower := by
  intro loud quiet
  have hsame : loud.toLower = quiet.toLower := by
    apply String.toList_injective
    rw [toList_toLower, toList_toLower]
    decide +kernel
  refine ⟨hsame, ?_, ?_, compile_caseBlind {} 1 hsame⟩
  · decide +kernel
  · decide +kernel

end ScratchScript
