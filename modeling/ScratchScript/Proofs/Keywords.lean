import Mathlib.Data.List.Infix
import ScratchScript.Proofs.Phrasebook

/-!
# Words that are looked for anywhere

Three rules look for words in the whole line, and so in its operand too. `turn` takes its direction from them, and they
keep `repeat` and `go to` from applying. `operand_decides` gives what such lines say for every operand: the operand is
stored as it is, and a word in it counts as if it stood outside the brackets.

Lowercase changes a text piece by piece where the pieces meet in a bracket or a blank (`Text.lowercase_append`), and no
word has a bracket in it, so that the operand can be searched apart from what stands around it
(`Text.mentions_enclosed`). That no other rule reads such a line is computed on the line with its operand left open, as
for the phrasebook.
-/

namespace ScratchScript

/-! ## Lowercase in pieces -/

namespace Text

/-- Whether the character is its own lowercase form and neither a letter that has case nor passed over in looking for
one. -/
def isBoundary (c : Char) : Bool :=
  lowerChar c == [c] && !isCased c && !isCaseIgnorable c

variable {c : Char}

theorem startsCased_append (h : isBoundary c = true) (s rest : List Char) :
    startsCased (s ++ c :: rest) = startsCased s := by
  simp only [isBoundary, Bool.and_eq_true, Bool.not_eq_true'] at h
  obtain ⟨⟨-, hcased⟩, hignorable⟩ := h
  induction s with
  | nil => simp [startsCased, hcased, hignorable]
  | cons d s ih =>
    cases hd : isCaseIgnorable d with
    | false => simp [startsCased, hd]
    | true => simpa [startsCased, hd] using ih

theorem lowercaseAfter_append_before (h : isBoundary c = true) (before earlier s : List Char) :
    lowercaseAfter (before ++ c :: earlier) s = lowercaseAfter before s := by
  induction s generalizing before with
  | nil => rfl
  | cons d s ih =>
    have hsigma : lowerSigma (before ++ c :: earlier) s = lowerSigma before s := by
      simp only [lowerSigma, startsCased_append h]
    rw [lowercaseAfter, lowercaseAfter, hsigma, ← List.cons_append, ih (d :: before)]

theorem lowercaseAfter_append (h : isBoundary c = true) (before s rest : List Char) :
    lowercaseAfter before (s ++ c :: rest) = lowercaseAfter before s ++ c :: lowercase rest := by
  induction s generalizing before with
  | nil =>
    have hlower : lowerChar c = [c] := by
      simp only [isBoundary, Bool.and_eq_true, beq_iff_eq] at h
      exact h.1.1
    have hsigma : c ≠ 'Σ' := by
      rintro rfl
      exact absurd h (by decide +kernel)
    have hafter := lowercaseAfter_append_before h [] before rest
    simpa [lowercaseAfter, hsigma, hlower, lowercase] using hafter
  | cons d s ih =>
    have hsigma : lowerSigma before (s ++ c :: rest) = lowerSigma before s := by
      simp only [lowerSigma, startsCased_append h]
    rw [List.cons_append, lowercaseAfter, lowercaseAfter, hsigma, ih, List.append_assoc]

/-- Pieces of a text that meet in a boundary are changed one by one. -/
theorem lowercase_append (h : isBoundary c = true) (s rest : List Char) :
    lowercase (s ++ c :: rest) = lowercase s ++ c :: lowercase rest :=
  lowercaseAfter_append h [] s rest

theorem occursIn_iff {part text : List Char} : occursIn part text = true ↔ part <:+: text := by
  induction text with
  | nil => simp [occursIn]
  | cons c text ih => rw [occursIn, Bool.or_eq_true, ih, List.isPrefixOf_iff_prefix, List.infix_cons_iff]

theorem infix_append_cons {part : List Char} (h : c ∉ part) (s rest : List Char) :
    part <:+: s ++ c :: rest ↔ part <:+: s ∨ part <:+: rest := by
  have hstarts : ∀ l : List Char, c ∉ l → l <+: c :: rest → l = [] := by
    intro l hl hle
    rcases List.prefix_cons_iff.1 hle with hnil | ⟨more, rfl, -⟩
    · exact hnil
    · simp at hl
  constructor
  · intro hpart
    rcases List.infix_append_iff.1 hpart with hleft | hright | ⟨front, back, rfl, hfront, hback⟩
    · exact .inl hleft
    · rcases List.infix_cons_iff.1 hright with hstart | hrest
      · rw [hstarts part h hstart]
        exact .inl List.nil_infix
      · exact .inr hrest
    · rw [hstarts back (fun hmem => h (List.mem_append_right _ hmem)) hback, List.append_nil]
      exact .inl hfront.isInfix
  · rintro (hleft | hright)
    · exact List.infix_append_of_infix_left hleft
    · exact List.infix_append_of_infix_right (List.infix_cons hright)

def Mentions (words : List String) (text : List Char) : Prop :=
  ∃ word ∈ words, word.toList <:+: lowercase text

instance (words : List String) (text : List Char) : Decidable (Mentions words text) :=
  inferInstanceAs (Decidable (∃ _ ∈ _, _))

theorem not_mentions_nil (text : List Char) : ¬ Mentions [] text := by
  simp [Mentions]

theorem mentions_append (hc : isBoundary c = true) {words : List String} (hwords : ∀ word ∈ words, c ∉ word.toList)
    (s rest : List Char) : Mentions words (s ++ c :: rest) ↔ Mentions words s ∨ Mentions words rest := by
  simp only [Mentions, lowercase_append hc]
  constructor
  · rintro ⟨word, hmem, hword⟩
    exact ((infix_append_cons (hwords word hmem) _ _).1 hword).imp (fun h => ⟨word, hmem, h⟩) fun h => ⟨word, hmem, h⟩
  · rintro (⟨word, hmem, hword⟩ | ⟨word, hmem, hword⟩)
    · exact ⟨word, hmem, (infix_append_cons (hwords word hmem) _ _).2 (.inl hword)⟩
    · exact ⟨word, hmem, (infix_append_cons (hwords word hmem) _ _).2 (.inr hword)⟩

/-- Between brackets, words are looked for in the inner text alone if there are none outside. -/
theorem mentions_enclosed {opening closing : Char} {words : List String} {front back : List Char}
    (hopening : isBoundary opening = true) (hclosing : isBoundary closing = true)
    (hwords : ∀ word ∈ words, opening ∉ word.toList ∧ closing ∉ word.toList) (hfront : ¬ Mentions words front)
    (hback : ¬ Mentions words back) (inner : List Char) :
    Mentions words (front ++ opening :: (inner ++ closing :: back)) ↔ Mentions words inner := by
  rw [mentions_append hopening fun word hmem => (hwords word hmem).1,
    mentions_append hclosing fun word hmem => (hwords word hmem).2]
  simp [hfront, hback]

end Text

namespace Vocabulary

theorem Rule.mentions_iff {words : List String} {line : List Char} :
    mentions words (Text.lowercase line) = true ↔ Text.Mentions words line := by
  simp [mentions, Text.Mentions, Text.occursIn_iff]

/-! ## Lines of one rule -/

/-- What the wordings of the rule take of the template. -/
def Rule.traceForms (rule : Rule) (template : Template) : Verdict (List Template) :=
  .findSome (fun form : Form => form.trace template) rule.forms

/-- The rule fills its one slot from the first hole of the template, and no other rule reads the line. -/
structure Rule.Owns (rule : Rule) (template : Template) (plan : LiteralPlan) (hole : Template) : Prop where
  isLine : template.isLine = true
  literals : rule.literals = [plan]
  fields : rule.fields = []
  conditional : rule.conditional = false
  first : plan.hole = 0
  reads : rule.traceForms template = .reads [hole]
  others : ∀ other ∈ rules, other.name ≠ rule.name → other.traceForms template = .fails

instance (rule : Rule) (template : Template) (plan : LiteralPlan) (hole : Template) :
    Decidable (rule.Owns template plan hole) :=
  decidable_of_iff
    (template.isLine = true ∧ rule.literals = [plan] ∧ rule.fields = [] ∧ rule.conditional = false ∧ plan.hole = 0 ∧
      rule.traceForms template = .reads [hole] ∧
      ∀ other ∈ rules, other.name ≠ rule.name → other.traceForms template = .fails)
    ⟨fun ⟨h1, h2, h3, h4, h5, h6, h7⟩ => ⟨h1, h2, h3, h4, h5, h6, h7⟩,
      fun ⟨h1, h2, h3, h4, h5, h6, h7⟩ => ⟨h1, h2, h3, h4, h5, h6, h7⟩⟩

theorem nodup_names_rules : (rules.map (·.name)).Nodup := by
  decide +kernel

theorem Rule.opcodeFor_eq {rule : Rule} {words : List String} {variant : Opcode}
    (h : rule.variant = some (words, variant)) (line : List Char) :
    rule.opcodeFor (Text.lowercase line) = if Text.Mentions words line then variant else rule.opcode := by
  simp only [opcodeFor, h, Rule.mentions_iff]

theorem Rule.opcodeFor_of_none {rule : Rule} (h : rule.variant = none) (lowered : List Char) :
    rule.opcodeFor lowered = rule.opcode := by
  simp only [opcodeFor, h]

/-- Names tell the rules apart, so that a rule that alone reads something is the one that is found. -/
theorem findSome?_eq_of_sole {α : Type} {rule : Rule} (hrule : rule ∈ rules) {read : Rule → Option α}
    (hothers : ∀ other ∈ rules, other.name ≠ rule.name → read other = none) : rules.findSome? read = read rule := by
  obtain ⟨front, back, hrules⟩ := List.append_of_mem hrule
  have hnames := nodup_names_rules
  rw [hrules, List.map_append, List.map_cons, List.nodup_append, List.nodup_cons] at hnames
  obtain ⟨-, ⟨hback, -⟩, hfront⟩ := hnames
  have hfrontNone : front.findSome? read = none := by
    rw [List.findSome?_eq_none_iff]
    intro other hmem
    refine hothers other (hrules ▸ List.mem_append_left _ hmem) ?_
    exact hfront _ (List.mem_map_of_mem hmem) _ List.mem_cons_self
  have hbackNone : back.findSome? read = none := by
    rw [List.findSome?_eq_none_iff]
    intro other hmem
    refine hothers other (hrules ▸ List.mem_append_right _ (List.mem_cons_of_mem _ hmem)) ?_
    intro hname
    exact hback (hname ▸ List.mem_map_of_mem hmem)
  rw [hrules, List.findSome?_append, hfrontNone, Option.none_or, List.findSome?_cons, hbackNone]
  cases read rule <;> rfl

theorem Rule.Owns.ofLine?_fill {rule : Rule} {template hole : Template} {plan : LiteralPlan}
    (h : rule.Owns template plan hole) (hrule : rule ∈ rules) {operands : Nat → List Char}
    (hoperands : ∀ index, OperandText (operands index)) :
    Statement.ofLine? (template.fill operands) =
      if Text.Mentions rule.vetoes (template.fill operands) then none
      else some
        { opcode := rule.opcodeFor (Text.lowercase (template.fill operands))
          literals := [(plan.slot, ⟨plan.kind, plan.entry.value (Text.trim (hole.fill operands))⟩)] } := by
  -- what the wordings take of the template is what they take of the line, whatever the operands are
  have htells : ∀ other : Rule, (other.traceForms template).Tells (List.map (Template.fill operands))
      (other.forms.findSome? fun form => form.read? (template.fill operands)) :=
    fun other => Verdict.Tells.findSome (fun form => form.tells_trace hoperands template) other.forms
  have hothers : ∀ other ∈ rules, other.name ≠ rule.name →
      other.read? (template.fill operands) (Text.lowercase (template.fill operands)) = none := by
    intro other hmem hname
    have hnone := htells other
    rw [h.others other hmem hname] at hnone
    have hforms : (other.forms.findSome? fun form => form.read? (template.fill operands)) = none := hnone
    simp [Rule.read?, hforms]
  have hforms : (rule.forms.findSome? fun form => form.read? (template.fill operands)) = some [hole.fill operands] := by
    have hreads := htells rule
    rwa [h.reads] at hreads
  rw [Statement.ofLine?_fill h.isLine, findSome?_eq_of_sole hrule hothers, Rule.read?, hforms]
  simp [Rule.mentions_iff, Rule.statement, h.literals, h.fields, Rule.conditionFor, h.conditional, Rule.holeText,
    h.first]

/-! ## The rules that look for words -/

theorem exists_turn : ∃ rule ∈ rules, rule.vetoes = [] ∧ rule.opcode = .turnRight ∧
    rule.variant = some (["left", "ccw", "↺", "izquierda"], .turnLeft) ∧
    ∀ wording ∈ ["turn right (0) degrees", "turn left (0) degrees"],
      rule.Owns (.ofWording wording) ⟨"DEGREES", .number, 0, .verbatim⟩ [.operand 0] := by
  decide +kernel

theorem exists_repeat : ∃ rule ∈ rules, rule.vetoes = ["until", "hasta que"] ∧ rule.opcode = .repeatTimes ∧
    rule.variant = none ∧ rule.Owns (.ofWording "repeat (0)") ⟨"TIMES", .whole, 0, .verbatim⟩ [.operand 0] := by
  decide +kernel

theorem exists_goTo : ∃ rule ∈ rules, rule.vetoes = ["x:"] ∧ rule.opcode = .goTo ∧ rule.variant = none ∧
    rule.Owns (.ofWording "go to [0 v]") ⟨"TO", .text, 0, .sprite⟩ [.operand 0, .letter ' ', .letter 'v'] := by
  decide +kernel

end Vocabulary

theorem OperandText.trim_fill {operand : List Char} (h : OperandText operand) :
    Text.trim (Template.fill (fun _ => operand) [.operand 0]) = operand := by
  simp [Text.trim_eq_self h.startsBare h.endsBare]

theorem Source.dropMenuMark_trim (text : List Char) : dropMenuMark (Text.trim text) = dropMenuMark text := by
  rw [dropMenuMark, Text.trim_trim, dropMenuMark]

theorem Source.dropMenuMark_append {entry : List Char} (h : OperandText entry) :
    dropMenuMark (entry ++ " v".toList) = entry := by
  have htrim : Text.trim (entry ++ " v".toList) = entry ++ " v".toList :=
    Text.trim_eq_self (h.startsBare.append h.ne_nil _) (Text.EndsBare.append (by decide) (by decide) entry)
  have hbefore : entryBefore? " v".toList (entry ++ " v".toList) = some entry := by
    simp [entryBefore?, Text.dropMark?_append, Text.trimEnd_eq_self h.endsBare, h.ne_nil]
  rw [dropMenuMark, htrim, menuMarks, List.findSome?_cons, hbefore]
  rfl

namespace Statement

variable {operand : List Char} (h : OperandText operand)
include h

theorem ofLine?_turnRight :
    ofLine? ("turn right (".toList ++ operand ++ ") degrees".toList) = some
      { opcode := if Text.Mentions ["left", "ccw", "↺", "izquierda"] operand then .turnLeft else .turnRight
        literals := [("DEGREES", ⟨.number, String.ofList operand⟩)] } := by
  obtain ⟨rule, hrule, hvetoes, hopcode, hvariant, howns⟩ := Vocabulary.exists_turn
  have hread := (howns "turn right (0) degrees" (by decide)).ofLine?_fill hrule fun _ => h
  have hfill : Template.fill (fun _ => operand) (.ofWording "turn right (0) degrees") =
      "turn right ".toList ++ '(' :: (operand ++ ')' :: " degrees".toList) := rfl
  have hmentions : Text.Mentions ["left", "ccw", "↺", "izquierda"]
      ("turn right ".toList ++ '(' :: (operand ++ ')' :: " degrees".toList)) ↔ _ :=
    Text.mentions_enclosed (by decide) (by decide) (by decide) (by decide) (by decide) operand
  rw [hfill, Vocabulary.Rule.opcodeFor_eq hvariant, hvetoes, if_neg (Text.not_mentions_nil _), hopcode,
    h.trim_fill] at hread
  simp only [hmentions] at hread
  exact hread

theorem ofLine?_turnLeft :
    ofLine? ("turn left (".toList ++ operand ++ ") degrees".toList) = some
      { opcode := .turnLeft, literals := [("DEGREES", ⟨.number, String.ofList operand⟩)] } := by
  obtain ⟨rule, hrule, hvetoes, hopcode, hvariant, howns⟩ := Vocabulary.exists_turn
  have hread := (howns "turn left (0) degrees" (by decide)).ofLine?_fill hrule fun _ => h
  have hfill : Template.fill (fun _ => operand) (.ofWording "turn left (0) degrees") =
      "turn left ".toList ++ '(' :: (operand ++ ')' :: " degrees".toList) := rfl
  have hmentions : Text.Mentions ["left", "ccw", "↺", "izquierda"]
      ("turn left ".toList ++ '(' :: (operand ++ ')' :: " degrees".toList)) :=
    (Text.mentions_append (by decide) (by decide) _ _).2 (.inl (by decide))
  rwa [hfill, Vocabulary.Rule.opcodeFor_eq hvariant, hvetoes, if_neg (Text.not_mentions_nil _), if_pos hmentions,
    h.trim_fill] at hread

theorem ofLine?_repeat :
    ofLine? ("repeat (".toList ++ operand ++ ")".toList) =
      if Text.Mentions ["until", "hasta que"] operand then none
      else some { opcode := .repeatTimes, literals := [("TIMES", ⟨.whole, String.ofList operand⟩)] } := by
  obtain ⟨rule, hrule, hvetoes, hopcode, hvariant, howns⟩ := Vocabulary.exists_repeat
  have hread := howns.ofLine?_fill hrule fun _ => h
  have hfill : Template.fill (fun _ => operand) (.ofWording "repeat (0)") =
      "repeat ".toList ++ '(' :: (operand ++ ')' :: []) := rfl
  have hmentions : Text.Mentions ["until", "hasta que"] ("repeat ".toList ++ '(' :: (operand ++ ')' :: [])) ↔ _ :=
    Text.mentions_enclosed (by decide) (by decide) (by decide) (by decide) (by decide) operand
  rw [hfill, Vocabulary.Rule.opcodeFor_of_none hvariant, hvetoes, hopcode, h.trim_fill] at hread
  simp only [hmentions] at hread
  exact hread

theorem ofLine?_goTo :
    ofLine? ("go to [".toList ++ operand ++ " v]".toList) =
      if Text.Mentions ["x:"] operand then none
      else some { opcode := .goTo, literals := [("TO", ⟨.text, Vocabulary.spriteName operand⟩)] } := by
  obtain ⟨rule, hrule, hvetoes, hopcode, hvariant, howns⟩ := Vocabulary.exists_goTo
  have hread := howns.ofLine?_fill hrule fun _ => h
  have hfill : Template.fill (fun _ => operand) (.ofWording "go to [0 v]") =
      "go to ".toList ++ '[' :: (operand ++ ' ' :: "v]".toList) := rfl
  have hmentions : Text.Mentions ["x:"] ("go to ".toList ++ '[' :: (operand ++ ' ' :: "v]".toList)) ↔ _ :=
    Text.mentions_enclosed (by decide) (by decide) (by decide) (by decide) (by decide) operand
  have hhole : Template.fill (fun _ => operand) [.operand 0, .letter ' ', .letter 'v'] = operand ++ " v".toList := rfl
  rw [hfill, Vocabulary.Rule.opcodeFor_of_none hvariant, hvetoes, hopcode, hhole] at hread
  simp only [hmentions, Vocabulary.Entry.value, Source.dropMenuMark_trim, Source.dropMenuMark_append h] at hread
  exact hread

end Statement

/-- What lines with an operand say when the words that the rules look for may stand in it: it is stored as it is, a word
for the left in it turns `turn right` around, and a veto in it keeps `repeat` and `go to` from being read. -/
theorem operand_decides {operand : List Char} (h : OperandText operand) :
    Statement.ofLine? ("turn right (".toList ++ operand ++ ") degrees".toList) = some
      { opcode := if Text.Mentions ["left", "ccw", "↺", "izquierda"] operand then .turnLeft else .turnRight
        literals := [("DEGREES", ⟨.number, String.ofList operand⟩)] } ∧
    Statement.ofLine? ("turn left (".toList ++ operand ++ ") degrees".toList) = some
      { opcode := .turnLeft, literals := [("DEGREES", ⟨.number, String.ofList operand⟩)] } ∧
    Statement.ofLine? ("repeat (".toList ++ operand ++ ")".toList) =
      (if Text.Mentions ["until", "hasta que"] operand then none
      else some { opcode := .repeatTimes, literals := [("TIMES", ⟨.whole, String.ofList operand⟩)] }) ∧
    Statement.ofLine? ("go to [".toList ++ operand ++ " v]".toList) =
      if Text.Mentions ["x:"] operand then none
      else some { opcode := .goTo, literals := [("TO", ⟨.text, Vocabulary.spriteName operand⟩)] } :=
  ⟨Statement.ofLine?_turnRight h, Statement.ofLine?_turnLeft h, Statement.ofLine?_repeat h, Statement.ofLine?_goTo h⟩

/-- A word that counts for one line is like any other in the next. -/
theorem operand_decides_myLeft :
    OperandText "my left".toList ∧
    Statement.ofLine? "turn right (my left) degrees".toList = some
      { opcode := .turnLeft, literals := [("DEGREES", ⟨.number, "my left"⟩)] } ∧
    Statement.ofLine? "repeat (my left)".toList = some
      { opcode := .repeatTimes, literals := [("TIMES", ⟨.whole, "my left"⟩)] } ∧
    Statement.ofLine? "go to [my left v]".toList = some
      { opcode := .goTo, literals := [("TO", ⟨.text, "my left"⟩)] } := by
  have hoperand : OperandText "my left".toList := by decide
  obtain ⟨hright, -, hrepeat, hgoTo⟩ := operand_decides hoperand
  rw [if_pos (by decide)] at hright
  rw [if_neg (by decide)] at hrepeat hgoTo
  exact ⟨hoperand, hright, hrepeat, hgoTo⟩

/-- An operand is taken for a word of the line: a turn to the right becomes one to the left, and a loop and a jump are
not read at all. -/
theorem keyword_in_operand :
    (OperandText "left".toList ∧ Statement.ofLine? "turn right (left) degrees".toList = some
      { opcode := .turnLeft, literals := [("DEGREES", ⟨.number, "left"⟩)] }) ∧
    (OperandText "until".toList ∧ Statement.ofLine? "repeat (until)".toList = none) ∧
    OperandText "x:".toList ∧ Statement.ofLine? "go to [x: v]".toList = none := by
  decide +kernel

end ScratchScript
