import Mathlib.Data.List.DropRight
import ScratchScript.Vocabulary.Classify

/-!
# What a line reads as

Facts about readings that the theory of scripts rests on, and all that it knows of the vocabulary:

* `reading_eq_statement_iff`: a line reads as a statement exactly when the vocabulary recognises it. Markers and blank
  lines need no exception, since the vocabulary itself leaves them out;
* `reading_eq_marker`: a spelling of a marker reads as that marker;
* `Regular`: what every statement of the vocabulary satisfies. No line says `ifElse`, only the headers of `repeat until`
  and `if` have a condition, and no literal takes the slot of a condition or of a body.
-/

namespace ScratchScript

namespace Text

def StartsBare (s : List Char) : Prop :=
  ∀ c rest, s = c :: rest → isBlank c = false

theorem startsBare_nil : StartsBare [] :=
  fun _ _ h => nomatch h

theorem startsBare_cons {c : Char} (h : isBlank c = false) (s : List Char) : StartsBare (c :: s) := by
  intro d rest heq
  rw [← (List.cons.inj heq).1]
  exact h

instance : (s : List Char) → Decidable (StartsBare s)
  | [] => isTrue startsBare_nil
  | c :: s => decidable_of_iff (isBlank c = false) ⟨fun h => startsBare_cons h s, fun h => h c s rfl⟩

theorem StartsBare.append {s : List Char} (h : StartsBare s) (hne : s ≠ []) (t : List Char) : StartsBare (s ++ t) := by
  obtain ⟨c, rest, rfl⟩ := List.exists_cons_of_ne_nil hne
  exact startsBare_cons (h c rest rfl) _

theorem trimStart_eq_self {s : List Char} (h : StartsBare s) : trimStart s = s := by
  cases s with
  | nil => rfl
  | cons c rest => simp [trimStart, h c rest rfl]

theorem startsBare_trimStart (s : List Char) : StartsBare (trimStart s) := by
  intro c rest h
  have hhead := List.head?_dropWhile_not isBlank s
  rw [trimStart] at h
  simpa [h] using hhead

theorem StartsBare.trimEnd {s : List Char} (h : StartsBare s) : StartsBare (trimEnd s) := by
  intro c rest heq
  obtain ⟨tail, htail⟩ : Text.trimEnd s <+: s := List.rdropWhile_prefix isBlank s
  rw [heq, List.cons_append] at htail
  exact h c _ htail.symm

theorem trimEnd_trimEnd (s : List Char) : trimEnd (trimEnd s) = trimEnd s :=
  List.rdropWhile_idempotent isBlank s

theorem startsBare_trim (s : List Char) : StartsBare (trim s) :=
  (startsBare_trimStart s).trimEnd

theorem trim_trim (s : List Char) : trim (trim s) = trim s := by
  rw [trim, trimStart_eq_self (startsBare_trim s), trim, trimEnd_trimEnd]

def EndsBare (s : List Char) : Prop :=
  ∀ c, s.getLast? = some c → isBlank c = false

instance (s : List Char) : Decidable (EndsBare s) :=
  decidable_of_iff ((s.getLast?.all fun c => !isBlank c) = true) (by simp [EndsBare, Option.all_eq_true])

theorem endsBare_nil : EndsBare [] :=
  fun _ h => nomatch h

theorem endsBare_concat {c : Char} (s : List Char) (h : isBlank c = false) : EndsBare (s ++ [c]) := by
  intro d hlast
  rw [List.getLast?_concat, Option.some.injEq] at hlast
  rw [← hlast]
  exact h

theorem EndsBare.append {s : List Char} (h : EndsBare s) (hne : s ≠ []) (t : List Char) : EndsBare (t ++ s) := by
  intro c hlast
  rw [List.getLast?_append_of_ne_nil _ hne] at hlast
  exact h c hlast

theorem trimEnd_eq_self {s : List Char} (h : EndsBare s) : trimEnd s = s := by
  refine List.rdropWhile_eq_self_iff.2 ?_
  intro hne
  rw [h _ (List.getLast?_eq_some_getLast hne)]
  decide

theorem trim_eq_self {s : List Char} (hstart : StartsBare s) (hend : EndsBare s) : trim s = s := by
  rw [trim, trimStart_eq_self hstart, trimEnd_eq_self hend]

end Text

theorem Source.Marker.ofLine?_trim (line : List Char) : ofLine? (Text.trim line) = ofLine? line := by
  simp only [ofLine?, Text.trim_trim]

/-! ## Readings -/

theorem Statement.ofLine?_nil : Statement.ofLine? [] = none := by
  simp [Statement.ofLine?, Vocabulary.classify?, Text.trim, Text.trimStart, Text.trimEnd]

theorem Statement.ofLine?_of_marker {line : List Char} {marker : Source.Marker}
    (h : Source.Marker.ofLine? line = some marker) : Statement.ofLine? line = none := by
  simp [Statement.ofLine?, Vocabulary.classify?, Source.Marker.ofLine?_trim, h]

/-- A line reads as a statement exactly when the vocabulary recognises it. -/
theorem reading_eq_statement_iff {line : SourceLine} {statement : Statement} :
    line.reading = .statement statement ↔ Statement.ofLine? line.text.toList = some statement := by
  unfold SourceLine.reading
  by_cases hempty : line.text.isEmpty = true
  · have htext : line.text = "" := by simpa using hempty
    simp [htext, Statement.ofLine?_nil]
  · rw [if_neg hempty]
    cases hmarker : Source.Marker.ofLine? line.text.toList with
    | some marker => simp [Statement.ofLine?_of_marker hmarker]
    | none => cases Statement.ofLine? line.text.toList <;> simp

/-- A spelling of a marker reads as that marker. -/
theorem reading_eq_marker {line : SourceLine} {marker : Source.Marker}
    (h : Source.Marker.ofLine? line.text.toList = some marker) : line.reading = .marker marker := by
  have hne : line.text ≠ "" := by
    intro htext
    rw [htext] at h
    have : Source.Marker.ofLine? "".toList = none := by decide
    rw [this] at h
    simp at h
  simp [SourceLine.reading, hne, h]

/-! ## The statements of the vocabulary -/

/-- The slots that hold blocks. No literal may take one of them. -/
def blockSlots : List String := ["CONDITION", "SUBSTACK", "SUBSTACK2"]

/-- What holds of every statement of the vocabulary. -/
structure Statement.Regular (statement : Statement) : Prop where
  opcode_ne : statement.opcode ≠ .ifElse
  condition : statement.condition = none ∨ statement.opcode = .repeatUntil ∨ statement.opcode = .ifThen
  literals : ∀ entry ∈ statement.literals, entry.1 ∉ blockSlots

namespace Vocabulary

theorem map_firstMatch? (line : List Char) :
    (firstMatch? line).map (·.2) = rules.findSome? fun rule => rule.read? line (Text.lowercase line) := by
  rw [firstMatch?, List.map_findSome?]
  congr 1
  funext rule
  simp [Function.comp_def]

/-- What the data of a rule has to satisfy for its statements to be regular. -/
def Rule.isRegular (rule : Rule) : Bool :=
  rule.opcode != .ifElse && (rule.variant.all fun variant => variant.2 != .ifElse) &&
    (!rule.conditional || rule.variant.isNone && (rule.opcode == .repeatUntil || rule.opcode == .ifThen)) &&
    rule.literals.all fun plan => !blockSlots.contains plan.slot

theorem rules_regular : ∀ rule ∈ rules, rule.isRegular = true := by
  decide

theorem Rule.exists_holes_of_read? {rule : Rule} {line lowered : List Char} {statement : Statement}
    (h : rule.read? line lowered = some statement) : ∃ holes, statement = rule.statement lowered holes := by
  unfold read? at h
  split at h
  · simp at h
  · obtain ⟨holes, _, rfl⟩ := Option.map_eq_some_iff.1 h
    exact ⟨holes, rfl⟩

theorem Rule.opcodeFor_of_all {rule : Rule} (p : Opcode → Prop) (hopcode : p rule.opcode)
    (hvariant : ∀ variant, rule.variant = some variant → p variant.2) (lowered : List Char) :
    p (rule.opcodeFor lowered) := by
  unfold opcodeFor
  cases hv : rule.variant with
  | none => exact hopcode
  | some variant =>
    dsimp only
    split
    · exact hvariant variant hv
    · exact hopcode

theorem Rule.regular_of_read? {rule : Rule} (hrule : rule.isRegular = true) {line lowered : List Char}
    {statement : Statement} (h : rule.read? line lowered = some statement) : statement.Regular := by
  simp only [isRegular, Bool.and_eq_true, bne_iff_ne, ne_eq, Bool.or_eq_true, Bool.not_eq_true',
    List.all_eq_true, beq_iff_eq, Option.isNone_iff_eq_none, Option.all_eq_true] at hrule
  obtain ⟨⟨⟨hopcode, hvariant⟩, hconditional⟩, hliterals⟩ := hrule
  obtain ⟨holes, rfl⟩ := Rule.exists_holes_of_read? h
  refine ⟨Rule.opcodeFor_of_all (· ≠ .ifElse) hopcode hvariant lowered, ?_, ?_⟩
  · unfold Rule.statement conditionFor opcodeFor
    rcases hconditional with hfalse | ⟨hnone, hheader⟩
    · left
      simp [hfalse]
    · right
      simpa [hnone] using hheader
  · intro entry hentry
    obtain ⟨plan, hplan, rfl⟩ := List.mem_map.1 hentry
    simpa using hliterals plan hplan

end Vocabulary

theorem Statement.exists_rule_of_ofLine? {line : List Char} {statement : Statement}
    (h : Statement.ofLine? line = some statement) :
    ∃ rule ∈ Vocabulary.rules, ∃ line lowered, rule.read? line lowered = some statement := by
  obtain ⟨_, hclassify, rfl⟩ := Option.map_eq_some_iff.1 h
  unfold Vocabulary.classify? at hclassify
  dsimp only at hclassify
  split at hclassify
  · simp at hclassify
  · obtain ⟨rule, hmem, hread⟩ := List.exists_of_findSome?_eq_some hclassify
    obtain ⟨_, hstatement, heq⟩ := Option.map_eq_some_iff.1 hread
    cases heq
    exact ⟨rule, hmem, _, _, hstatement⟩

theorem Statement.regular_of_ofLine? {line : List Char} {statement : Statement}
    (h : Statement.ofLine? line = some statement) : statement.Regular := by
  obtain ⟨rule, hmem, _, _, hread⟩ := Statement.exists_rule_of_ofLine? h
  exact Vocabulary.Rule.regular_of_read? (Vocabulary.rules_regular rule hmem) hread

theorem Statement.Regular.condition_of_isHat {statement : Statement} (h : statement.Regular)
    (hhat : statement.opcode.isHat = true) : statement.condition = none := by
  rcases h.condition with hnone | heq | heq
  · exact hnone
  all_goals rw [heq] at hhat; simp [Opcode.isHat] at hhat

end ScratchScript
