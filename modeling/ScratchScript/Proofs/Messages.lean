import ScratchScript.Proofs.Overlap
import ScratchScript.Proofs.Phrasebook

/-!
# Messages

What `say […]` and its like make of a message. The rule for messages with a duration is tried first, and its wording
takes a round bracket for the end of the message as well as a square one. So a message that goes on after a round
bracket like a duration, as in `say [Stay :) for (5) secs]`, is cut at that bracket.

`ofLine?_speech_iff` says that this is the only way in which a message is not taken as a whole: a line says its message
exactly if no duration is embedded in it. Whether the wording with a duration reads the line is a matter of how the line
can be divided (`Form.isSome_read?_word`, `Form.isSome_read?_hole`), whichever divisions are tried first, and the
brackets of the wording leave one division only (`SpeechVerb.isSome_read?_timedForm`).
-/

namespace ScratchScript

/-! ## Beginnings of a text -/

namespace Text

variable {text : List Char}

theorem startsWith_append_eq (wording more text : List Char) :
    startsWith (wording ++ more) text = (startsWith wording text && startsWith more (text.drop wording.length)) := by
  induction wording generalizing text with
  | nil => simp [startsWith]
  | cons a wording ih =>
    cases text with
    | nil => simp [startsWith]
    | cons c text => simp [startsWith, ih, Bool.and_assoc]

theorem sameLetter_bracket_iff {bracket c : Char} (hbracket : bracket ∈ operandBrackets) :
    sameLetter bracket c = true ↔ c = bracket := by
  have hpairs : ∀ a ∈ operandBrackets, ∀ b ∈ operandBrackets, sameLetter a b = true ↔ b = a := by
    simp only [forall_mem_operandBrackets]
    decide
  by_cases hc : c ∈ operandBrackets
  · exact hpairs bracket hbracket c hc
  · have hne : c ≠ bracket := fun heq => hc (heq ▸ hbracket)
    simp [sameLetter_bracket hbracket hc, hne]

theorem startsWith_bracket_iff {bracket : Char} (hbracket : bracket ∈ operandBrackets) :
    startsWith [bracket] text = true ↔ ∃ rest, text = bracket :: rest := by
  cases text with
  | nil => simp [startsWith]
  | cons c text => simp [startsWith, sameLetter_bracket_iff hbracket]

theorem startsWith_concat_bracket {bracket : Char} (hbracket : bracket ∈ operandBrackets) {wording : List Char}
    (hwording : bracket ∉ wording) : startsWith wording (text ++ [bracket]) = startsWith wording text := by
  induction wording generalizing text with
  | nil => rfl
  | cons a wording ih =>
    obtain ⟨ha, hrest⟩ := not_or.1 (List.mem_cons.not.1 hwording)
    cases text with
    | nil =>
      have hsame : sameLetter a bracket = false := by
        rw [sameLetter, BEq.comm, Bool.eq_false_iff]
        exact fun h => ha ((sameLetter_bracket_iff hbracket).1 h).symm
      simp [startsWith, hsame]
    | cons c text => simp [startsWith, ih hrest]

/-- The texts that follow the character, one for each place where it stands. -/
def textsAfter (c : Char) : List Char → List (List Char)
  | [] => []
  | d :: rest => if d = c then rest :: textsAfter c rest else textsAfter c rest

theorem mem_textsAfter {c : Char} {rest : List Char} :
    rest ∈ textsAfter c text ↔ ∃ first, text = first ++ c :: rest := by
  induction text with
  | nil => simp [textsAfter]
  | cons d text ih =>
    have hcons : (∃ first, d :: text = first ++ c :: rest) ↔
        d = c ∧ text = rest ∨ ∃ first, text = first ++ c :: rest := by
      constructor
      · rintro ⟨first, hfirst⟩
        cases first with
        | nil => exact .inl (List.cons.inj hfirst)
        | cons a first => exact .inr ⟨first, (List.cons.inj hfirst).2⟩
      · rintro (⟨rfl, rfl⟩ | ⟨first, rfl⟩)
        · exact ⟨[], rfl⟩
        · exact ⟨d :: first, rfl⟩
    rw [hcons, ← ih, textsAfter]
    split_ifs with hd
    · simp [hd, eq_comm]
    · simp [hd]

theorem textsAfter_concat {c d : Char} (hne : d ≠ c) (text : List Char) :
    textsAfter c (text ++ [d]) = (textsAfter c text).map (· ++ [d]) := by
  induction text with
  | nil => simp [textsAfter, hne]
  | cons a text ih =>
    rw [List.cons_append, textsAfter, textsAfter, ih]
    split_ifs <;> rfl

theorem textsAfter_concat_self {c : Char} (h : c ∉ text) : textsAfter c (text ++ [c]) = [[]] := by
  induction text with
  | nil => simp [textsAfter]
  | cons a text ih =>
    obtain ⟨ha, hrest⟩ := not_or.1 (List.mem_cons.not.1 h)
    rw [List.cons_append, textsAfter, if_neg (Ne.symm ha), ih hrest]

theorem textsAfter_drop_concat {c d : Char} (hne : d ≠ c) (text : List Char) (n : Nat) :
    textsAfter c ((text ++ [d]).drop n) = (textsAfter c (text.drop n)).map (· ++ [d]) := by
  by_cases hn : n ≤ text.length
  · rw [List.drop_append_of_le_length hn, textsAfter_concat hne]
  · rw [List.drop_eq_nil_of_le (by simp; omega), List.drop_eq_nil_of_le (by omega)]
    rfl

theorem mem_textsAfter_drop_one {c : Char} {rest : List Char} :
    rest ∈ textsAfter c (text.drop 1) ↔ ∃ first, first ≠ [] ∧ text = first ++ c :: rest := by
  rw [mem_textsAfter]
  constructor
  · rintro ⟨first, hfirst⟩
    cases text with
    | nil => simp at hfirst
    | cons d text => exact ⟨d :: first, by simp, congrArg (d :: ·) hfirst⟩
  · rintro ⟨first, hne, rfl⟩
    obtain ⟨d, first, rfl⟩ := List.exists_cons_of_ne_nil hne
    exact ⟨first, rfl⟩

end Text

/-! ## Whether a form reads a text -/

theorem Filling.admits_inline {text : List Char} (h : '\n' ∉ text) : ∀ c ∈ text, Filling.inline.admits c = true := by
  intro c hc
  have hne : c ≠ '\n' := fun heq => h (heq ▸ hc)
  simpa [Filling.admits] using hne

namespace Piece

theorem mem_tries {least most n : Nat} {reach : Reach} : n ∈ tries least most reach ↔ least ≤ n ∧ n ≤ most := by
  cases reach <;> simp only [tries, List.mem_reverse, List.mem_range'_1] <;> omega

end Piece

namespace Form

variable {form : Form} {text : List Char}

theorem isSome_read?_word (spellings : List String) :
    (read? (.word spellings :: form) text).isSome = true ↔
      ∃ spelling ∈ spellings, Text.startsWith spelling.toList text = true ∧
        (read? form (text.drop spelling.toList.length)).isSome = true := by
  rw [read?_word_eq, List.findSome?_isSome_iff]
  refine exists_congr fun spelling => and_congr_right fun _ => ?_
  split_ifs with hstarts <;> simp [hstarts]

/-- A hole can take any beginning of the text that is long enough and that it admits. -/
theorem isSome_read?_hole (filling : Filling) (least : Nat) (reach : Reach) :
    (read? (.hole filling least reach :: form) text).isSome = true ↔
      ∃ taken rest, text = taken ++ rest ∧ least ≤ taken.length ∧ (∀ c ∈ taken, filling.admits c = true) ∧
        (read? form rest).isSome = true := by
  rw [read?, List.findSome?_isSome_iff]
  constructor
  · rintro ⟨n, hn, hrest⟩
    obtain ⟨hleast, hmost⟩ := Piece.mem_tries.1 hn
    have htaken := List.takeWhile_prefix (l := text) filling.admits
    have htake : text.take n = (text.takeWhile filling.admits).take n := by
      rw [List.prefix_iff_eq_take.1 htaken, List.take_take, Nat.min_eq_left hmost]
    refine ⟨text.take n, text.drop n, (List.take_append_drop n text).symm, ?_, ?_, by simpa using hrest⟩
    · rw [htake, List.length_take]
      omega
    · intro c hc
      rw [htake] at hc
      exact List.mem_takeWhile_imp (List.mem_of_mem_take hc)
  · rintro ⟨taken, rest, rfl, hleast, hadmits, hrest⟩
    refine ⟨taken.length, Piece.mem_tries.2 ⟨hleast, ?_⟩, by simpa using hrest⟩
    rw [List.takeWhile_append_of_pos hadmits, List.length_append]
    omega

theorem isSome_read?_closed {reach : Reach} {closings : List Char} (hclosings : ∀ c ∈ closings, c ∈ operandBrackets)
    (hline : '\n' ∉ text) :
    (read? (.hole .inline 1 reach :: .word (closings.map fun c => String.ofList [c]) :: form) text).isSome = true ↔
      ∃ closing ∈ closings, ∃ rest ∈ Text.textsAfter closing (text.drop 1), (read? form rest).isSome = true := by
  have hword : ∀ rest, (read? (.word (closings.map fun c => String.ofList [c]) :: form) rest).isSome = true ↔
      ∃ closing ∈ closings, ∃ more, rest = closing :: more ∧ (read? form more).isSome = true := by
    intro rest
    rw [isSome_read?_word]
    simp only [List.mem_map, exists_exists_and_eq_and]
    refine exists_congr fun closing => and_congr_right fun hmem => ?_
    rw [String.toList_ofList, Text.startsWith_bracket_iff (hclosings closing hmem)]
    constructor
    · rintro ⟨⟨more, rfl⟩, hread⟩
      exact ⟨more, rfl, hread⟩
    · rintro ⟨more, rfl, hread⟩
      exact ⟨⟨more, rfl⟩, hread⟩
  rw [isSome_read?_hole]
  constructor
  · rintro ⟨taken, rest, rfl, hleast, -, hread⟩
    obtain ⟨closing, hmem, more, rfl, hmore⟩ := (hword rest).1 hread
    exact ⟨closing, hmem, more,
      Text.mem_textsAfter_drop_one.2 ⟨taken, List.ne_nil_of_length_pos hleast, rfl⟩, hmore⟩
  · rintro ⟨closing, hmem, rest, hrest, hread⟩
    obtain ⟨first, hne, rfl⟩ := Text.mem_textsAfter_drop_one.1 hrest
    refine ⟨first, closing :: rest, rfl, List.length_pos_iff.2 hne, ?_, (hword _).2 ⟨closing, hmem, rest, rfl, hread⟩⟩
    exact Filling.admits_inline fun hmem => hline (List.mem_append_left _ hmem)

theorem read?_hole_longest_append {filling : Filling} {s hole : List Char} {holes : List (List Char)}
    (hadmits : ∀ c ∈ s, filling.admits c = true)
    (h : read? (.hole filling 0 .longest :: form) text = some (hole :: holes)) :
    read? (.hole filling 0 .longest :: form) (s ++ text) = some ((s ++ hole) :: holes) := by
  induction s with
  | nil => exact h
  | cons c s ih =>
    obtain ⟨hc, hs⟩ := List.forall_mem_cons.1 hadmits
    rw [List.cons_append, read?_hole_zero_cons hc, ih hs]
    rfl

end Form

/-! ## Verbs for messages -/

/-- A verb for messages: how a line with it starts, the words before and after a duration, and the kinds of block for a
message without a duration and with one. -/
structure SpeechVerb where
  start : String
  joins : List String
  units : List String
  plain : Opcode
  timed : Opcode
  deriving DecidableEq, Repr

def speechVerbs : List SpeechVerb := [
  ⟨"say ", [" for "], [" secs", " sec", " seconds", " second"], .say, .sayForSecs⟩,
  ⟨"think ", [" for "], [" secs", " sec", " seconds", " second"], .think, .thinkForSecs⟩,
  ⟨"decir ", [" durante ", " por "], [" segundos", " segundo"], .say, .sayForSecs⟩,
  ⟨"pensar ", [" durante ", " por "], [" segundos", " segundo"], .think, .thinkForSecs⟩]

namespace SpeechVerb

def line (verb : SpeechVerb) (message : List Char) : List Char :=
  verb.start.toList ++ '[' :: (message ++ [']'])

def statement (verb : SpeechVerb) (message : List Char) : Statement where
  opcode := verb.plain
  literals := [("MESSAGE", ⟨.text, String.ofList (Text.trim message)⟩)]

/-- The text goes on like a duration, as ` for (5) secs` does. -/
def DurationAt (verb : SpeechVerb) (text : List Char) : Prop :=
  ∃ join ∈ verb.joins, Text.startsWith (join.toList ++ ['(']) text = true ∧
    ∃ rest ∈ Text.textsAfter ')' (text.drop (join.toList.length + 2)),
      ∃ unit ∈ verb.units, Text.startsWith unit.toList rest = true

/-- After a closing round bracket other than its first character, the message goes on like a duration. -/
def EmbedsDuration (verb : SpeechVerb) (message : List Char) : Prop :=
  ∃ rest ∈ Text.textsAfter ')' (message.drop 1), verb.DurationAt rest

instance (verb : SpeechVerb) (text : List Char) : Decidable (verb.DurationAt text) :=
  inferInstanceAs (Decidable (∃ _ ∈ _, _))

instance (verb : SpeechVerb) (message : List Char) : Decidable (verb.EmbedsDuration message) :=
  inferInstanceAs (Decidable (∃ _ ∈ _, _))

/-! ## The wording with a duration -/

def durationForm (verb : SpeechVerb) : Form :=
  Form.oneOf verb.joins ++ Form.round ++ Form.oneOf verb.units

def timedForm (verb : SpeechVerb) : Form :=
  Form.text verb.start ++ Form.bracketed .shortest ++ verb.durationForm

def plainForm (verb : SpeechVerb) : Form :=
  Form.text verb.start ++ Form.bracketed .longest

variable {verb : SpeechVerb} {message text : List Char}

theorem isSome_read?_durationForm (hline : '\n' ∉ text) :
    (verb.durationForm.read? text).isSome = true ↔ verb.DurationAt text := by
  have hform : verb.durationForm =
      .word verb.joins :: .word ["("] :: .hole .inline 1 .shortest :: .word [")"] :: Form.oneOf verb.units := rfl
  have hclosing : [")"] = [')'].map fun c => String.ofList [c] := by decide
  rw [hform, Form.isSome_read?_word, DurationAt]
  refine exists_congr fun join => and_congr_right fun _ => ?_
  rw [Text.startsWith_append_eq, Bool.and_eq_true, and_assoc, Form.isSome_read?_word]
  simp only [List.mem_singleton, exists_eq_left]
  refine and_congr_right fun _ => and_congr_right fun _ => ?_
  have hdrop : text.drop (join.toList.length + 2) =
      ((text.drop join.toList.length).drop "(".toList.length).drop 1 := by
    simp [List.drop_drop]
  have hlineRest : '\n' ∉ (text.drop join.toList.length).drop "(".toList.length :=
    fun hmem => hline (List.mem_of_mem_drop (List.mem_of_mem_drop hmem))
  rw [hdrop, hclosing, Form.isSome_read?_closed (by simp [operandBrackets]) hlineRest]
  simp only [List.mem_singleton, exists_eq_left, Form.oneOf, Form.isSome_read?_word]
  simp [Form.read?]

/-- The words of a duration have no square bracket in them. -/
def IsWorded (verb : SpeechVerb) : Prop :=
  (∀ join ∈ verb.joins, ']' ∉ join.toList) ∧ ∀ unit ∈ verb.units, ']' ∉ unit.toList

instance (verb : SpeechVerb) : Decidable verb.IsWorded :=
  inferInstanceAs (Decidable (_ ∧ _))

theorem durationAt_concat (hverb : verb.IsWorded) : verb.DurationAt (text ++ [']']) ↔ verb.DurationAt text := by
  refine exists_congr fun join => and_congr_right fun hjoin => ?_
  have hopening : ']' ∉ join.toList ++ ['('] := by simpa using hverb.1 join hjoin
  rw [Text.startsWith_concat_bracket (by decide) hopening, Text.textsAfter_drop_concat (by decide)]
  refine and_congr_right fun _ => ?_
  simp only [List.mem_map, exists_exists_and_eq_and]
  refine exists_congr fun rest => and_congr_right fun _ => exists_congr fun unit => and_congr_right fun hunit => ?_
  rw [Text.startsWith_concat_bracket (by decide) (hverb.2 unit hunit)]

theorem not_durationAt_nil : ¬ verb.DurationAt [] := by
  rintro ⟨join, -, hstarts, -⟩
  cases hletters : join.toList <;> simp [hletters, Text.startsWith] at hstarts

theorem isSome_read?_opened (form : Form) :
    (Form.read? (.word [verb.start] :: .word ["[", "("] :: form) (verb.line message)).isSome = true ↔
      (form.read? (message ++ [']'])).isSome = true := by
  have hother : Text.startsWith "(".toList ('[' :: (message ++ [']'])) = false := rfl
  have hsquare : Text.startsWith "[".toList ('[' :: (message ++ [']'])) = true := rfl
  rw [line, Form.isSome_read?_word]
  simp only [List.mem_singleton, exists_eq_left, Form.startsWith_append, List.drop_left, true_and]
  rw [Form.isSome_read?_word]
  simp only [List.mem_cons, List.not_mem_nil, or_false, exists_eq_or_imp, exists_eq_left, hother, hsquare]
  simp

/-- The wording with a duration reads the line of a message exactly if a duration is embedded in it. -/
theorem isSome_read?_timedForm (hverb : verb.IsWorded) (hline : '\n' ∉ message) (hclosed : ']' ∉ message) :
    (verb.timedForm.read? (verb.line message)).isSome = true ↔ verb.EmbedsDuration message := by
  have hlineAll : '\n' ∉ message ++ [']'] := by simpa using hline
  have hlineRest : ∀ rest ∈ Text.textsAfter ')' (message.drop 1), '\n' ∉ rest ++ [']'] := by
    intro rest hrest hmem
    obtain ⟨first, -, rfl⟩ := Text.mem_textsAfter_drop_one.1 hrest
    have hmemRest : '\n' ∈ rest := by simpa using hmem
    exact hline (List.mem_append_right _ (List.mem_cons_of_mem _ hmemRest))
  have hform : verb.timedForm = .word [verb.start] :: .word ["[", "("] :: .hole .inline 1 .shortest ::
      .word ["]", ")"] :: verb.durationForm := rfl
  have hclosings : ["]", ")"] = [']', ')'].map fun c => String.ofList [c] := by decide
  rw [hform, isSome_read?_opened, hclosings, Form.isSome_read?_closed (by simp [operandBrackets]) hlineAll]
  constructor
  · rintro ⟨closing, hclosing, rest, hrest, hread⟩
    simp only [List.mem_cons, List.not_mem_nil, or_false] at hclosing
    rcases hclosing with rfl | rfl
    · -- the only closing square bracket ends the line
      obtain ⟨first, -, hfirst⟩ := Text.mem_textsAfter_drop_one.1 hrest
      have hmem := Text.mem_textsAfter.2 ⟨first, hfirst⟩
      rw [Text.textsAfter_concat_self hclosed, List.mem_singleton] at hmem
      rw [hmem, isSome_read?_durationForm (by simp)] at hread
      exact absurd hread not_durationAt_nil
    · rw [Text.textsAfter_drop_concat (by decide)] at hrest
      obtain ⟨rest, hmem, rfl⟩ := List.mem_map.1 hrest
      rw [isSome_read?_durationForm (hlineRest rest hmem), durationAt_concat hverb] at hread
      exact ⟨rest, hmem, hread⟩
  · rintro ⟨rest, hmem, hduration⟩
    refine ⟨')', by decide, rest ++ [']'], ?_, ?_⟩
    · rw [Text.textsAfter_drop_concat (by decide)]
      exact List.mem_map_of_mem hmem
    · rwa [isSome_read?_durationForm (hlineRest rest hmem), durationAt_concat hverb]

theorem read?_plainForm (hne : message ≠ []) (hline : '\n' ∉ message) :
    verb.plainForm.read? (verb.line message) = some [message] := by
  have hform : verb.plainForm =
      .word [verb.start] :: .word ["[", "("] :: .hole .inline 1 .longest :: .word ["]", ")"] :: [] := rfl
  have hend : Form.read? (.hole .inline 0 .longest :: .word ["]", ")"] :: []) [']'] = some [[]] := by decide
  have hadmits := Filling.admits_inline hline
  have hhole : Form.read? (.hole .inline 1 .longest :: .word ["]", ")"] :: []) (message ++ [']']) = some [message] := by
    obtain ⟨c, rest, rfl⟩ := List.exists_cons_of_ne_nil hne
    obtain ⟨hc, hrest⟩ := List.forall_mem_cons.1 hadmits
    rw [List.cons_append, Form.read?_hole_succ_cons hc, Form.read?_hole_longest_append hrest hend]
    simp [lengthen]
  rw [hform, line]
  exact Form.read?_word verb.start [] (Form.read?_word "[" ["("] hhole)

end SpeechVerb

/-! ## The rules for messages -/

deriving instance DecidableEq for Filling, Reach, Piece

namespace Vocabulary.Rule

/-- The rule makes one kind of block and has no vetoes, and for a line with the opening it has the one wording. -/
def Serves (rule : Rule) (opening : Opening) (form : Form) : Prop :=
  rule.vetoes = [] ∧ rule.variant = none ∧ rule.conditional = false ∧ form ∈ rule.forms ∧
    ∀ other ∈ rule.forms, other = form ∨ other.openings.all opening.clash = true

instance (rule : Rule) (opening : Opening) (form : Form) : Decidable (rule.Serves opening form) :=
  inferInstanceAs (Decidable (_ ∧ _))

variable {rule : Rule} {opening : Opening} {form : Form}

theorem Serves.read?_eq (h : rule.Serves opening form) {line : List Char} (hbegins : opening.begins line = true)
    (lowered : List Char) : rule.read? line lowered = (form.read? line).map (rule.statement lowered) := by
  obtain ⟨hvetoes, -, -, hform, hothers⟩ := h
  have hforms : (rule.forms.findSome? fun other => other.read? line) = form.read? line := by
    cases hfind : rule.forms.findSome? fun other => other.read? line with
    | none => exact (List.findSome?_eq_none_iff.1 hfind form hform).symm
    | some holes =>
      obtain ⟨other, hmem, hread⟩ := List.exists_of_findSome?_eq_some hfind
      rcases hothers other hmem with rfl | hclash
      · exact hread.symm
      · simp [Form.read?_eq_none hclash hbegins] at hread
  simp [read?, hvetoes, mentions, hforms]

theorem Serves.statement_eq (h : rule.Serves opening form) (lowered : List Char) (holes : List (List Char)) :
    rule.statement lowered holes =
      { opcode := rule.opcode
        literals := rule.literals.map fun plan => (plan.slot, ⟨plan.kind, plan.entry.value (holeText holes plan.hole)⟩)
        fields := rule.fields.map fun plan =>
          (plan.slot, plan.style.field (plan.entry.value (holeText holes plan.hole))) } := by
  obtain ⟨-, hvariant, hconditional, -, -⟩ := h
  simp [statement, opcodeFor, conditionFor, hvariant, hconditional]

end Vocabulary.Rule

namespace SpeechVerb

open Vocabulary

def opening (verb : SpeechVerb) : Opening :=
  .spelled (verb.start.toList ++ ['[']) .hole

/-- The rule for messages without a duration, and that the only rule before it that can read its lines is the other. -/
theorem exists_plain_rule : ∀ verb ∈ speechVerbs, ∃ rule ∈ rules, rule.Serves verb.opening verb.plainForm ∧
    rule.opcode = verb.plain ∧ rule.literals = [⟨"MESSAGE", .text, 0, .verbatim⟩] ∧ rule.fields = [] ∧
      ∀ earlier ∈ rules, (earlier.name, rule.name) ∈ overlaps → earlier.Serves verb.opening verb.timedForm := by
  decide +kernel

theorem exists_timed_rule : ∀ verb ∈ speechVerbs, ∃ rule ∈ rules, rule.Serves verb.opening verb.timedForm ∧
    rule.opcode = verb.timed ∧ ∀ earlier ∈ rules, (earlier.name, rule.name) ∉ overlaps := by
  decide +kernel

theorem isWorded_of_mem : ∀ verb ∈ speechVerbs, verb.IsWorded := by
  decide

theorem plain_ne_timed : ∀ verb ∈ speechVerbs, verb.plain ≠ verb.timed := by
  decide

theorem start_of_mem : ∀ verb ∈ speechVerbs, verb.start.toList ≠ [] ∧ Text.StartsBare verb.start.toList := by
  decide

variable {verb : SpeechVerb}

theorem begins_line (verb : SpeechVerb) (message : List Char) : verb.opening.begins (verb.line message) = true := by
  have hline : verb.line message = verb.start.toList ++ ['['] ++ (message ++ [']']) := by simp [line]
  rw [opening, hline, Form.begins_append]

theorem ofLine?_line (hverb : verb ∈ speechVerbs) (message : List Char) :
    Statement.ofLine? (verb.line message) =
      rules.findSome? fun rule => rule.read? (verb.line message) (Text.lowercase (verb.line message)) := by
  obtain ⟨hne, hstart⟩ := start_of_mem verb hverb
  have htrim : Text.trim (verb.line message) = verb.line message := by
    refine Text.trim_eq_self (hstart.append hne _) ?_
    rw [line, ← List.cons_append, ← List.append_assoc]
    exact Text.endsBare_concat _ (by decide)
  have hbracket : '[' ∈ operandBrackets := by decide
  exact Statement.ofLine?_of_bracket htrim hbracket (by simp [line])

end SpeechVerb

open Vocabulary in
/-- The line of a message says the message exactly if no duration is embedded in it. If one is, the line says a message
with a duration. -/
theorem ofLine?_speech_iff {verb : SpeechVerb} (hverb : verb ∈ speechVerbs) {message : List Char} (hne : message ≠ [])
    (hline : '\n' ∉ message) (hclosed : ']' ∉ message) :
    (Statement.ofLine? (verb.line message) = some (verb.statement message) ↔ ¬ verb.EmbedsDuration message) ∧
      (verb.EmbedsDuration message →
        ∃ statement, Statement.ofLine? (verb.line message) = some statement ∧ statement.opcode = verb.timed) := by
  obtain ⟨plain, hplain, hserves, hopcode, hliterals, hfields, hearlier⟩ := SpeechVerb.exists_plain_rule verb hverb
  obtain ⟨timed, htimed, hservesTimed, hopcodeTimed, hfirst⟩ := SpeechVerb.exists_timed_rule verb hverb
  have hbegins := SpeechVerb.begins_line verb message
  have hembeds := SpeechVerb.isSome_read?_timedForm (SpeechVerb.isWorded_of_mem verb hverb) hline hclosed
  rw [SpeechVerb.ofLine?_line hverb]
  by_cases h : verb.EmbedsDuration message
  · obtain ⟨holes, hholes⟩ := Option.isSome_iff_exists.1 (hembeds.2 h)
    have hread := hservesTimed.read?_eq hbegins (Text.lowercase (verb.line message))
    rw [hholes, Option.map_some] at hread
    rw [findSome?_rules htimed hread fun earlier hmem hoverlap => absurd hoverlap (hfirst earlier hmem)]
    have hstatement : (timed.statement (Text.lowercase (verb.line message)) holes).opcode = verb.timed := by
      rw [hservesTimed.statement_eq, hopcodeTimed]
    refine ⟨iff_of_false ?_ (not_not_intro h), fun _ => ⟨_, rfl, hstatement⟩⟩
    intro heq
    rw [Option.some.inj heq] at hstatement
    exact SpeechVerb.plain_ne_timed verb hverb hstatement
  · have hread := hserves.read?_eq hbegins (Text.lowercase (verb.line message))
    rw [SpeechVerb.read?_plainForm hne hline, Option.map_some] at hread
    have hnone : verb.timedForm.read? (verb.line message) = none := by
      rw [← Option.not_isSome_iff_eq_none, hembeds]
      exact h
    rw [findSome?_rules hplain hread]
    · refine ⟨iff_of_true ?_ h, fun hduration => absurd hduration h⟩
      simp [hserves.statement_eq, hopcode, hliterals, hfields, SpeechVerb.statement, Rule.holeText, Entry.value]
    · intro earlier hmem hoverlap
      rw [(hearlier earlier hmem hoverlap).read?_eq hbegins, hnone, Option.map_none]

theorem ofLine?_speech_iff_sunny :
    "Sunny :) for (2) days".toList ≠ [] ∧ '\n' ∉ "Sunny :) for (2) days".toList ∧
      ']' ∉ "Sunny :) for (2) days".toList ∧
      Statement.ofLine? "say [Sunny :) for (2) days]".toList =
        some { opcode := .say, literals := [("MESSAGE", ⟨.text, "Sunny :) for (2) days"⟩)] } := by
  have hverb : ⟨"say ", [" for "], [" secs", " sec", " seconds", " second"], .say, .sayForSecs⟩ ∈ speechVerbs := by
    decide
  have hne : "Sunny :) for (2) days".toList ≠ [] := by decide
  have hline : '\n' ∉ "Sunny :) for (2) days".toList := by decide
  have hclosed : ']' ∉ "Sunny :) for (2) days".toList := by decide
  exact ⟨hne, hline, hclosed, (ofLine?_speech_iff hverb hne hline hclosed).1.2 (by decide +kernel)⟩

/-- A round bracket in a message can end it. -/
theorem message_cut_at_bracket :
    '\n' ∉ "Stay :) for (5) secs".toList ∧ ']' ∉ "Stay :) for (5) secs".toList ∧
      Statement.ofLine? "say [Stay :) for (5) secs]".toList =
        some { opcode := .sayForSecs, literals := [("MESSAGE", ⟨.text, "Stay :"⟩), ("SECS", ⟨.number, "5"⟩)] } ∧
      Statement.ofLine? "say [Stay :) for (5) secs]".toList ≠
        some { opcode := .say, literals := [("MESSAGE", ⟨.text, "Stay :) for (5) secs"⟩)] } := by
  decide +kernel

end ScratchScript
