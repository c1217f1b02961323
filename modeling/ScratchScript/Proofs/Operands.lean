import ScratchScript.Proofs.Cleanup
import ScratchScript.Proofs.Pairing

/-!
# Free operands

A free operand is stored without the brackets at its ends. They are taken for a pair whenever they are of one kind, so
of `(a) + (b)` the text `a) + (b` is stored (`unwrapped_across`). `operands_paired_iff`: a paired text gives a paired
text exactly if its first and last bracket do not belong to two different pairs. That decides on the value that a
variable is set to and on both sides of a comparison.
-/

namespace ScratchScript

open Condition (enclose)

variable {c opening closing : Char} {s t stack : List Char}

/-! ## Unwrapping -/

namespace Vocabulary

theorem inside?_eq_some_iff : inside? opening closing s = some t ↔ s = enclose opening closing t := by
  constructor
  · intro h
    cases s with
    | nil => simp [inside?] at h
    | cons c s =>
      simp only [inside?, Text.dropMark?] at h
      split_ifs at h with hc hsuffix
      obtain ⟨front, rfl⟩ := List.isSuffixOf_iff_suffix.1 hsuffix
      rw [beq_iff_eq.1 hc, enclose]
      simpa using h
  · rintro rfl
    simp [inside?, enclose, Text.dropMark?_append]

theorem unwrapOperand_eq_trim
    (h : ∀ pair ∈ operandPairs, ∀ inside, Text.trim s ≠ enclose pair.1 pair.2 inside) :
    unwrapOperand s = Text.trim s := by
  have hnone : ∀ pair ∈ operandPairs, inside? pair.1 pair.2 (Text.trim s) = none := fun pair hpair =>
    Option.eq_none_iff_forall_ne_some.2 fun inside hinside => h pair hpair inside (inside?_eq_some_iff.1 hinside)
  rw [unwrapOperand, hnone ('(', ')') (by decide), hnone ('[', ']') (by decide)]
  rfl

end Vocabulary

open Vocabulary (unwrapOperand)

theorem paired_unwrapOperand_iff (h : Paired s) : Paired (unwrapOperand s) ↔ ¬ Flanked (Text.trim s) := by
  have htrim := paired_trim_iff.2 h
  by_cases hends : ∃ pair ∈ operandPairs, ∃ inside, Text.trim s = enclose pair.1 pair.2 inside
  · obtain ⟨pair, hpair, inside, henclosed⟩ := hends
    have hinside : unwrapOperand (enclose pair.1 pair.2 inside) = Source.dropMenuMark inside :=
      Vocabulary.unwrapOperand_enclosed hpair inside
    rw [henclosed] at htrim
    rw [← Vocabulary.unwrapOperand_trim, henclosed, hinside, paired_dropMenuMark_iff, flanked_enclose_iff hpair htrim,
      not_not]
  · have hne : ∀ pair ∈ operandPairs, ∀ inside, Text.trim s ≠ enclose pair.1 pair.2 inside :=
      fun pair hpair inside henclosed => hends ⟨pair, hpair, inside, henclosed⟩
    rw [Vocabulary.unwrapOperand_eq_trim hne, iff_true_left htrim]
    rintro ⟨o, c, first, middle, last, hpair, -, -, -, htext⟩
    refine hne (o, c) hpair (first ++ c :: (middle ++ o :: last)) ?_
    rw [htext]
    simp [enclose]

/-! ## Comparisons -/

namespace Condition

variable {before : Option Char} {depth : Int} {op : Comparison} {left right : List Char}

theorem sign_of_comparison? (h : comparison? c = some op) : c = op.sign := by
  unfold comparison? at h
  split_ifs at h with hgreater hless hequal
  · rw [← Option.some.inj h, beq_iff_eq.1 hgreater]
    rfl
  · rw [← Option.some.inj h, beq_iff_eq.1 hless]
    rfl
  · rw [← Option.some.inj h, beq_iff_eq.1 hequal]
    rfl

theorem splitComparison?_cons_eq_some (h : splitComparison? before depth (c :: s) = some (left, op, right)) :
    (c = op.sign ∧ depth = 0 ∧ left = [] ∧ right = s) ∨
      ∃ more, left = c :: more ∧ splitComparison? (some c) (depth + bracketStep c) s = some (more, op, right) := by
  have hmore : ∀ found : Option (List Char × Comparison × List Char),
      (found.map fun parts => (c :: parts.1, parts.2)) = some (left, op, right) →
        ∃ more, left = c :: more ∧ found = some (more, op, right) := by
    intro found hfound
    obtain ⟨⟨more, rest⟩, rfl, hparts⟩ := Option.map_eq_some_iff.1 hfound
    obtain ⟨rfl, rfl⟩ := Prod.mk.inj hparts
    exact ⟨more, rfl, rfl⟩
  rw [splitComparison?] at h
  cases hsign : comparison? c with
  | some found =>
    simp only [hsign] at h
    split at h
    · rename_i hfree
      simp only [Bool.and_eq_true, beq_iff_eq] at hfree
      simp only [Option.some.injEq, Prod.mk.injEq] at h
      obtain ⟨rfl, rfl, rfl⟩ := h
      exact .inl ⟨sign_of_comparison? hsign, hfree.1.1, rfl, rfl⟩
    · rw [bracketStep_of_comparison? hsign, Int.add_zero]
      exact .inr (hmore _ h)
  | none =>
    simp only [hsign] at h
    exact .inr (hmore _ h)

theorem length_awaitStep {next : List Char} (h : awaitStep stack c = some next) :
    (next.length : Int) = stack.length + bracketStep c := by
  rcases bracket_cases c with ⟨closing, hpair⟩ | ⟨opening, hpair⟩ | hletter
  · rw [awaitStep_opening hpair, Option.some.injEq] at h
    have hstep : bracketStep c = 1 := by rcases mem_operandPairs_iff.1 hpair with ⟨rfl, -⟩ | ⟨rfl, -⟩ <;> rfl
    rw [← h, hstep, List.length_cons]
    omega
  · rw [awaitStep_closing hpair] at h
    have hstep : bracketStep c = -1 := by rcases mem_operandPairs_iff.1 hpair with ⟨-, rfl⟩ | ⟨-, rfl⟩ <;> rfl
    split at h
    · rename_i hhead
      obtain ⟨rest, rfl⟩ := List.head?_eq_some_iff.1 hhead
      rw [← Option.some.inj h, hstep, List.tail_cons, List.length_cons]
      omega
    · simp at h
  · rw [awaitStep_letter hletter, Option.some.injEq] at h
    have hstep : bracketStep c = 0 := by
      simp only [operandBrackets, List.mem_cons, List.not_mem_nil, or_false, not_or] at hletter
      simp [bracketStep, hletter]
    rw [← h, hstep, Int.add_zero]

theorem awaited_of_splitComparison? {final : List Char} (hawaited : awaited stack s = some final)
    (h : splitComparison? before stack.length s = some (left, op, right)) :
    s = left ++ op.sign :: right ∧ awaited stack left = some [] := by
  induction s generalizing before stack left with
  | nil => simp [splitComparison?] at h
  | cons c s ih =>
    rcases splitComparison?_cons_eq_some h with ⟨rfl, hdepth, rfl, rfl⟩ | ⟨more, rfl, hmore⟩
    · obtain rfl := List.eq_nil_of_length_eq_zero (Int.ofNat_eq_zero.1 hdepth)
      exact ⟨rfl, rfl⟩
    · rw [awaited_cons] at hawaited ⊢
      obtain ⟨next, hnext, hrest⟩ := Option.bind_eq_some_iff.1 hawaited
      rw [← length_awaitStep hnext] at hmore
      obtain ⟨rfl, hleft⟩ := ih hrest hmore
      exact ⟨rfl, by rw [hnext, Option.bind_some, hleft]⟩

theorem paired_of_splitComparison? (hs : Paired s) (h : splitComparison? none 0 s = some (left, op, right)) :
    s = left ++ op.sign :: right ∧ Paired left ∧ Paired right := by
  obtain ⟨rfl, hleft⟩ := awaited_of_splitComparison? (paired_iff.1 hs) h
  have hpaired : Paired left := paired_iff.2 hleft
  have hsign : Paired [op.sign] := by cases op <;> decide
  rw [hpaired.append_iff_right, ← List.singleton_append, hsign.append_iff_right] at hs
  exact ⟨rfl, hpaired, hs⟩

theorem readWording?_ne_compare (text : List Char) (op : Comparison) (left right : String) :
    readWording? text ≠ some (.compare op left right) := by
  intro h
  obtain ⟨⟨forms, condition⟩, hmem, hread⟩ := List.exists_of_findSome?_eq_some h
  obtain ⟨holes, -, hcondition⟩ := Option.map_eq_some_iff.1 hread
  simp only [wordings, List.mem_cons, List.not_mem_nil, or_false, Prod.mk.injEq] at hmem
  rcases hmem with ⟨-, rfl⟩ | ⟨-, rfl⟩ | ⟨-, rfl⟩ | ⟨-, rfl⟩ <;> simp at hcondition

theorem readComparison?_of_readLeaf {text : List Char} {left right : String}
    (h : readLeaf text = .compare op left right) :
    readComparison? (dropQuestionMarks text) = some (.compare op left right) := by
  rw [readLeaf] at h
  cases hread : readComparison? (dropQuestionMarks text) with
  | some condition =>
    simp only [hread, Option.some_or, Option.getD_some] at h
    rw [h]
  | none =>
    simp only [hread, Option.none_or] at h
    cases hwording : readWording? (dropQuestionMarks text) with
    | some condition =>
      rw [hwording, Option.getD_some] at h
      exact absurd (h ▸ hwording) (readWording?_ne_compare _ _ _ _)
    | none => simp [hwording] at h

theorem readLeaf_of_read {text : List Char} {left right : String} (h : read text = .compare op left right) :
    readLeaf (bare text) = .compare op left right := by
  rw [read] at h
  split at h
  · simp at h
  · split at h
    · simp at h
    · split at h
      · simp at h
      · exact h

theorem split_of_readComparison? {text : List Char} {left right : String}
    (h : readComparison? text = some (.compare op left right)) :
    ∃ before after, splitComparison? none 0 text = some (before, op, after) ∧
      left = String.ofList (unwrapOperand before) ∧ right = String.ofList (unwrapOperand after) := by
  unfold readComparison? at h
  split at h
  · simp at h
  · rename_i before found after hsplit
    split at h
    · simp only [Option.some.injEq, compare.injEq] at h
      obtain ⟨rfl, rfl, rfl⟩ := h
      exact ⟨before, after, hsplit, rfl, rfl⟩
    · simp at h

end Condition

/-! ## Assignments -/

def assignmentLine (name text : List Char) : List Char :=
  "set [".toList ++ name ++ "] to ".toList ++ text

def assignment (name value : List Char) : Statement where
  opcode := .setVariableTo
  literals := [("VALUE", ⟨.text, String.ofList value⟩)]
  fields := [("VARIABLE", .named (String.ofList (Source.dropMenuMark name)))]

namespace Form

variable {form : Form} {name rest : List Char}

theorem read?_word_append (spelling : String) (rest : List Char) :
    read? (.word [spelling] :: form) (spelling.toList ++ rest) = read? form rest := by
  rw [read?_word_eq, List.findSome?_singleton, startsWith_append, if_pos rfl, List.drop_left]

theorem read?_unclosed_append (hclosed : ']' ∉ name) :
    read? (.hole .unclosed 0 .longest :: .word ["]"] :: form) (name ++ ']' :: rest) =
      (read? form rest).map (name :: ·) := by
  have hend : read? (.word ["]"] :: form) (']' :: rest) = read? form rest := read?_word_append "]" rest
  induction name with
  | nil =>
    have hlengths : Piece.lengths (.hole .unclosed 0 .longest) (']' :: rest) = [0] := rfl
    rw [List.nil_append, read?, hlengths, List.findSome?_singleton, List.drop_zero, hend]
    rfl
  | cons c name ih =>
    obtain ⟨hc, hname⟩ := not_or.1 (mt List.mem_cons.2 hclosed)
    have hadmits : Filling.unclosed.admits c = true := by simpa [Filling.admits] using Ne.symm hc
    have hshut : read? (.word ["]"] :: form) (c :: (name ++ ']' :: rest)) = none := by
      have hstarts : Text.startsWith "]".toList (c :: (name ++ ']' :: rest)) = false := by
        rw [Bool.eq_false_iff]
        intro hstarts
        obtain ⟨more, hmore⟩ := (Text.startsWith_bracket_iff (by decide)).1 hstarts
        exact hc (List.cons.inj hmore).1.symm
      rw [read?_word_eq, List.findSome?_singleton, hstarts]
      rfl
    rw [List.cons_append, read?_hole_zero_cons hadmits, ih hname, hshut]
    simp [Reach.prefer, lengthen, Function.comp_def]

theorem read?_square_append (hne : name ≠ []) (hclosed : ']' ∉ name) :
    read? (square ++ form) ('[' :: (name ++ ']' :: rest)) = (read? form rest).map (name :: ·) := by
  obtain ⟨c, name, rfl⟩ := List.exists_cons_of_ne_nil hne
  obtain ⟨hc, hname⟩ := not_or.1 (mt List.mem_cons.2 hclosed)
  have hadmits : Filling.unclosed.admits c = true := by simpa [Filling.admits] using Ne.symm hc
  have hopen : read? (square ++ form) ('[' :: (c :: name ++ ']' :: rest)) =
      read? (.hole .unclosed 1 .longest :: .word ["]"] :: form) (c :: (name ++ ']' :: rest)) := read?_word_append "[" _
  rw [hopen, read?_hole_succ_cons hadmits, read?_unclosed_append hname]
  simp [lengthen, Function.comp_def]

theorem read?_restOfLine : read? (restOfLine 1) rest = if rest ≠ [] ∧ '\n' ∉ rest then some [rest] else none := by
  split_ifs with h
  · obtain ⟨hne, hline⟩ := h
    obtain ⟨c, rest, rfl⟩ := List.exists_cons_of_ne_nil hne
    obtain ⟨hc, hrest⟩ := List.forall_mem_cons.1 (Filling.admits_inline hline)
    have hend : read? [.hole .inline 0 .longest, .lineEnd] [] = some [[]] := by decide
    have hread := read?_hole_longest_append hrest hend
    rw [List.append_nil] at hread
    rw [restOfLine, read?_hole_succ_cons hc, hread]
    simp [lengthen]
  · rw [← Option.not_isSome_iff_eq_none, restOfLine, isSome_read?_hole]
    rintro ⟨taken, more, rfl, hleast, hadmits, hmore⟩
    have hnil : more = [] := by
      cases more with
      | nil => rfl
      | cons c more => simp [read?, Piece.lengths] at hmore
    refine h ⟨List.ne_nil_of_length_pos ?_, fun hmem => ?_⟩
    · rwa [hnil, List.append_nil]
    · rw [hnil, List.append_nil] at hmem
      exact absurd (hadmits _ hmem) (by decide)

end Form

namespace Text

theorem trimEnd_concat_bare (h : isBlank c = false) (s : List Char) : trimEnd (s ++ [c]) = s ++ [c] :=
  trimEnd_eq_self (endsBare_concat s h)

theorem trimEnd_append (s t : List Char) :
    trimEnd (s ++ t) = if trimEnd t = [] then trimEnd s else s ++ trimEnd t := by
  induction t using List.reverseRecOn with
  | nil =>
    have hnil : trimEnd [] = [] := rfl
    rw [List.append_nil, if_pos hnil]
  | append_singleton t c ih =>
    rw [← List.append_assoc]
    cases hc : isBlank c with
    | true => rw [trimEnd_concat_blank hc, trimEnd_concat_blank hc, ih]
    | false => rw [trimEnd_concat_bare hc, trimEnd_concat_bare hc, if_neg (by simp), List.append_assoc]

theorem trim_trimEnd_eq (s : List Char) : trim (trimEnd s) = trim s := by
  induction s using List.reverseRecOn with
  | nil => rfl
  | append_singleton s c ih =>
    cases hc : isBlank c with
    | true => rw [trimEnd_concat_blank hc, trim_concat_blank hc, ih]
    | false => rw [trimEnd_concat_bare hc]

end Text

namespace Vocabulary

def assignmentForm : Form :=
  Form.text "set " ++ (Form.square ++ (Form.text " to " ++ Form.restOfLine 1))

def assignmentOpening : Opening :=
  .spelled "set [".toList .hole

theorem exists_assignment_rule : ∃ rule ∈ rules, rule.Serves assignmentOpening assignmentForm ∧
    rule.opcode = .setVariableTo ∧ rule.literals = [⟨"VALUE", .text, 1, .operand⟩] ∧
    rule.fields = [⟨"VARIABLE", .named, 0, .menu⟩] ∧
    ∀ other ∈ rules, other.name ≠ rule.name → other.openings.all assignmentOpening.clash = true := by
  decide +kernel

theorem findSome?_assignment {line : List Char} (hbegins : assignmentOpening.begins line = true) (lowered : List Char) :
    (rules.findSome? fun rule => rule.read? line lowered) = (assignmentForm.read? line).map fun holes =>
      assignment (holes.getD 0 []) (unwrapOperand (holes.getD 1 [])) := by
  obtain ⟨rule, hrule, hserves, hopcode, hliterals, hfields, hclash⟩ := exists_assignment_rule
  have hothers : ∀ other ∈ rules, other.name ≠ rule.name → other.read? line lowered = none := by
    intro other hmem hname
    by_contra hread
    obtain ⟨statement, hstatement⟩ := Option.ne_none_iff_exists'.1 hread
    obtain ⟨opening, hopening, hother⟩ := Rule.exists_opening hstatement
    have hapart := List.all_eq_true.1 (hclash other hmem hname) opening hopening
    rw [Opening.begins_eq_false_of_clash hapart hbegins] at hother
    exact absurd hother (by decide)
  rw [findSome?_eq_of_sole hrule hothers, hserves.read?_eq hbegins]
  congr 1
  funext holes
  simp [hserves.statement_eq, hopcode, hliterals, hfields, assignment, Entry.value, FieldStyle.field, Rule.holeText,
    unwrapOperand_trim, Source.dropMenuMark_trim]

theorem read?_assignmentForm {name : List Char} (hne : name ≠ []) (hclosed : ']' ∉ name) (rest : List Char) :
    assignmentForm.read? ("set [".toList ++ name ++ ']' :: rest) =
      (Form.read? (Form.text " to " ++ Form.restOfLine 1) rest).map (name :: ·) := by
  have hline : "set [".toList ++ name ++ ']' :: rest = "set ".toList ++ '[' :: (name ++ ']' :: rest) := by simp
  rw [hline]
  exact (Form.read?_word_append "set " _).trans (Form.read?_square_append hne hclosed)

theorem ofLine?_of_trim {line name rest : List Char} (hne : name ≠ []) (hclosed : ']' ∉ name)
    (htrim : Text.trim line = "set [".toList ++ name ++ ']' :: rest) :
    Statement.ofLine? line = (Form.read? (Form.text " to " ++ Form.restOfLine 1) rest).map fun holes =>
      assignment name (unwrapOperand (holes.getD 0 [])) := by
  have hbegins : assignmentOpening.begins ("set [".toList ++ name ++ ']' :: rest) = true := by
    rw [List.append_assoc]
    exact Form.begins_append _ _
  have hsame : Statement.ofLine? line = Statement.ofLine? (Text.trim line) := by
    rw [Statement.ofLine?, Statement.ofLine?, classify?, classify?, Text.trim_trim]
  have hbracket : ']' ∈ operandBrackets := by decide
  rw [hsame, Statement.ofLine?_of_bracket (Text.trim_trim line) hbracket (by simp [htrim]), htrim,
    findSome?_assignment hbegins, read?_assignmentForm hne hclosed, Option.map_map]
  rfl

end Vocabulary

theorem Text.trim_assignmentLine (name text : List Char) :
    trim (assignmentLine name text) = "set [".toList ++ name ++
      ']' :: (if trimEnd text = [] then " to".toList else " to ".toList ++ trimEnd text) := by
  have hstart : StartsBare (assignmentLine name text) := startsBare_cons (by decide) _
  have hto : trimEnd "] to ".toList = "] to".toList := by decide
  have hline : assignmentLine name text = "set [".toList ++ name ++ "] to ".toList ++ text := rfl
  rw [trim, trimStart_eq_self hstart, hline, trimEnd_append]
  split
  · rw [trimEnd_append, hto]
    rfl
  · rw [List.append_assoc]
    rfl

open Vocabulary in
theorem Statement.ofLine?_assignmentLine {name : List Char} (hne : name ≠ []) (hclosed : ']' ∉ name)
    (text : List Char) :
    ofLine? (assignmentLine name text) =
      if Text.trimEnd text ≠ [] ∧ '\n' ∉ Text.trimEnd text then some (assignment name (unwrapOperand text))
      else none := by
  rw [ofLine?_of_trim hne hclosed (Text.trim_assignmentLine name text)]
  by_cases hblank : Text.trimEnd text = []
  · rw [if_pos hblank, if_neg fun h => h.1 hblank]
    rfl
  · have hto : Form.read? (Form.text " to " ++ Form.restOfLine 1) (" to ".toList ++ Text.trimEnd text) =
        Form.read? (Form.restOfLine 1) (Text.trimEnd text) := Form.read?_word_append " to " _
    have hvalue : unwrapOperand (Text.trimEnd text) = unwrapOperand text := by
      rw [← unwrapOperand_trim (Text.trimEnd text), Text.trim_trimEnd_eq, unwrapOperand_trim]
    rw [if_neg hblank, hto, Form.read?_restOfLine]
    split_ifs
    · exact congrArg (fun value => some (assignment name value)) hvalue
    · rfl

/-- Unwrapping keeps brackets paired exactly if the first and the last one are not of two different pairs. That holds
for the operand itself, for the value that a variable is set to and for both sides of a comparison. -/
theorem operands_paired_iff {text : List Char} (h : Paired text) :
    (Paired (unwrapOperand text) ↔ ¬ Flanked (Text.trim text)) ∧
      (∀ name, name ≠ [] → ']' ∉ name → Statement.ofLine? (assignmentLine name text) =
        if Text.trimEnd text ≠ [] ∧ '\n' ∉ Text.trimEnd text then some (assignment name (unwrapOperand text))
        else none) ∧
      ∀ condition op left right, Condition.bare condition = text → Condition.read condition = .compare op left right →
        ∃ before after, Condition.dropQuestionMarks text = before ++ op.sign :: after ∧ Paired before ∧ Paired after ∧
          left.toList = unwrapOperand before ∧ (Paired left.toList ↔ ¬ Flanked (Text.trim before)) ∧
          right.toList = unwrapOperand after ∧ (Paired right.toList ↔ ¬ Flanked (Text.trim after)) := by
  refine ⟨paired_unwrapOperand_iff h, fun name hne hclosed => Statement.ofLine?_assignmentLine hne hclosed text, ?_⟩
  rintro condition op left right rfl hread
  have hleaf := Condition.readComparison?_of_readLeaf (Condition.readLeaf_of_read hread)
  obtain ⟨before, after, hsplit, rfl, rfl⟩ := Condition.split_of_readComparison? hleaf
  obtain ⟨htext, hbefore, hafter⟩ := Condition.paired_of_splitComparison? (paired_dropQuestionMarks_iff.2 h) hsplit
  simp only [String.toList_ofList]
  exact ⟨before, after, htext, hbefore, hafter, rfl, paired_unwrapOperand_iff hbefore, rfl,
    paired_unwrapOperand_iff hafter⟩

/-- A sum in brackets, compared with a menu entry. -/
theorem operands_paired_iff_sum :
    let text := "((a) + (b)) > [c v]".toList
    Paired text ∧ ¬ Flanked (Text.trim text) ∧
      Statement.ofLine? (assignmentLine "x v".toList text) = some (assignment "x v".toList text) ∧
      Condition.read text = .compare .greater "(a) + (b)" "c" ∧
      ∃ before after, Condition.dropQuestionMarks text = before ++ '>' :: after ∧ ¬ Flanked (Text.trim before) ∧
        ¬ Flanked (Text.trim after) := by
  intro text
  have hpaired : Paired text := by decide
  have hread : Condition.read text = .compare .greater "(a) + (b)" "c" := by decide +kernel
  obtain ⟨hunwrapped, hset, hcompared⟩ := operands_paired_iff hpaired
  obtain ⟨before, after, htext, -, -, -, hbefore, -, hafter⟩ := hcompared text _ _ _ (by decide +kernel) hread
  refine ⟨hpaired, hunwrapped.1 (by decide), ?_, hread, before, after, htext, hbefore.1 (by decide),
    hafter.1 (by decide)⟩
  rw [hset "x v".toList (by decide) (by decide), if_pos (by decide)]
  rfl

/-- Of two bracketed parts, what is between the first and the last bracket is stored. -/
theorem unwrapped_across :
    Paired "(a) + (b)".toList ∧ ¬ Paired "a) + (b".toList ∧ unwrapOperand "(a) + (b)".toList = "a) + (b".toList ∧
      Statement.ofLine? "set [x v] to (a) + (b)".toList = some (assignment "x v".toList "a) + (b".toList) ∧
      Condition.read "(a) + (b) > [1]".toList = .compare .greater "a) + (b" "1" := by
  decide +kernel

end ScratchScript
