import ScratchScript.Proofs.Entries
import ScratchScript.Proofs.Grouping

/-!
# Reading a condition comes to an end

Whatever the text, balanced or not, the reader only ever goes on with less of it (`read_descends`).

* Taking off a pair of brackets costs two characters at least, and leaves a part of the text.
* A connective begins and ends with a blank, and the text that is split does not. So there is something on both sides of
  each connective (`Parted.properPart_left`, `Parted.properPart_right`), and no text stays whole because one side of
  its last connective is empty.
* A word of negation is dropped only in front of a bracket.

`readWithin` is the reader with a bound on how deep its calls nest. That the length of the text is bound enough is the
same as saying that the length is a measure for the recursion.
-/

namespace ScratchScript

/-! ## Parts of a text -/

namespace Text

theorem endsBare_trim (s : List Char) : EndsBare (trim s) := by
  intro c hlast
  have hne : trim s ≠ [] := by
    rintro hnil
    simp [hnil] at hlast
  have hbare := List.rdropWhile_last_not isBlank (trimStart s) hne
  rw [List.getLast?_eq_some_getLast hne, Option.some.injEq] at hlast
  rw [← hlast]
  exact Bool.eq_false_iff.2 hbare

theorem isInfix_trim (s : List Char) : trim s <:+: s := by
  have hend : trim s <+: trimStart s := List.rdropWhile_prefix isBlank (trimStart s)
  exact hend.isInfix.trans (List.dropWhile_suffix isBlank).isInfix

end Text

namespace Condition

variable {before : Option Char} {depth : Int} {c : Char} {text rest left right : List Char} {joint : Joint}

/-- The part can be read in place of the text: it is not empty, has no white space at its ends, and is shorter. -/
structure ProperPart (text part : List Char) : Prop where
  ne_nil : part ≠ []
  trimmed : Text.trim part = part
  isInfix : part <:+: text
  length_lt : part.length < text.length

/-! ## Brackets -/

theorem isInfix_inner (text : List Char) : inner text <:+: text := by
  have hfront : inner text <+: text.drop 1 := List.dropLast_prefix _
  exact hfront.isInfix.trans (List.drop_suffix 1 text).isInfix

/-- The two brackets around an enclosed text are different, so there are two of them. -/
theorem length_inner_add_two (h : isEnclosed text = true) : (inner text).length + 2 = text.length := by
  cases text with
  | nil => simp [isEnclosed] at h
  | cons c rest =>
    cases rest with
    | nil =>
      cases hclosing : closing? c with
      | none => simp [isEnclosed, hclosing] at h
      | some closing =>
        have hsame : c = closing := by
          simp only [isEnclosed, hclosing, Bool.and_eq_true, beq_iff_eq] at h
          simpa using h.1
        subst hsame
        simp only [closing?, beq_iff_eq] at hclosing
        split_ifs at hclosing with hpointed hround
        · rw [Option.some.injEq] at hclosing
          exact absurd (hclosing.trans hpointed) (by decide)
        · rw [Option.some.injEq] at hclosing
          exact absurd (hclosing.trans hround) (by decide)
    | cons d rest => simp [inner]

theorem length_trim_inner (h : isEnclosed text = true) : (Text.trim (inner text)).length + 2 ≤ text.length := by
  have hinner := length_inner_add_two h
  have htrim := Text.length_trim_le (inner text)
  omega

theorem isInfix_unenclose (text : List Char) : unenclose text <:+: text := by
  fun_induction unenclose text with
  | case1 text h ih => exact ih.trans ((Text.isInfix_trim _).trans (isInfix_inner text))
  | case2 text h => exact List.infix_rfl

theorem trim_unenclose (h : Text.trim text = text) : Text.trim (unenclose text) = unenclose text := by
  fun_induction unenclose text with
  | case1 text henclosed ih => exact ih (Text.trim_trim _)
  | case2 text henclosed => exact h

/-! ## Connectives -/

/-- The joint stands outside all brackets between the two parts of a text that follows after the character `before` at
the given depth. -/
structure PartedFrom (before : Option Char) (depth : Int) (text left : List Char) (joint : Joint) (right : List Char) :
    Prop where
  text_eq : text = left ++ (joint.spaced ++ right)
  outside : (depthsFrom before depth text)[left.length]? = some 0

/-- The joint stands outside all brackets between the two parts of the text. -/
abbrev Parted (text left : List Char) (joint : Joint) (right : List Char) : Prop :=
  PartedFrom none 0 text left joint right

theorem partedFrom_nil_iff :
    PartedFrom before depth text [] joint right ↔ text = joint.spaced ++ right ∧ depth = 0 := by
  have hfirst : (depthsFrom before depth text)[0]? = some depth := by cases text <;> rfl
  constructor
  · rintro ⟨htext, houtside⟩
    rw [List.length_nil, hfirst, Option.some.injEq] at houtside
    exact ⟨htext, houtside⟩
  · rintro ⟨htext, rfl⟩
    exact ⟨htext, hfirst⟩

theorem partedFrom_cons_iff {d : Char} :
    PartedFrom before depth (c :: rest) (d :: left) joint right ↔
      c = d ∧ PartedFrom (some c) (depth + depthStep before c rest.head?) rest left joint right := by
  constructor
  · rintro ⟨htext, houtside⟩
    obtain ⟨rfl, hrest⟩ := List.cons.inj htext
    exact ⟨rfl, hrest, houtside⟩
  · rintro ⟨rfl, hrest, houtside⟩
    exact ⟨congrArg (c :: ·) hrest, houtside⟩

theorem exists_joint_of_connectiveAt? {connective : Connective}
    (h : connectiveAt? text = some (connective, right)) :
    ∃ joint : Joint, joint.connective = connective ∧ text = joint.spaced ++ right := by
  have hwords : ∀ entry ∈ connectives, ∃ spelled ∈ joiningWords, spelled.2 = entry.2 ∧
      entry.1.toList = ' ' :: (spelled.1.toList ++ [' ']) := by decide
  have hblank : ∀ {c : Char}, c.toLower = ' ' → c = ' ' := fun hc => (Text.toLower_eq_iff rfl _).1 hc
  simp only [connectiveAt?, Option.map_eq_some_iff, Prod.exists, Prod.mk.injEq] at h
  obtain ⟨word, _, hfind, rfl, rfl⟩ := h
  obtain ⟨⟨letters, connective⟩, hspelled, rfl, hword⟩ := hwords _ (List.mem_of_find?_eq_some hfind)
  have hfound := List.find?_some hfind
  have hstarts : (text.take word.length).map Char.toLower = ' ' :: (letters.toList ++ [' ']) := by
    rw [← hword, ← String.length_toList]
    exact beq_iff_eq.1 hfound
  obtain ⟨first, more, htake, hfirst, hmore⟩ := List.map_eq_cons_iff.1 hstarts
  obtain ⟨middle, final, rfl, hmiddle, hfinal⟩ := List.map_eq_append_iff.1 hmore
  obtain ⟨last, more, rfl, hlast, hmore⟩ := List.map_eq_cons_iff.1 hfinal
  obtain rfl := List.map_eq_nil_iff.1 hmore
  refine ⟨⟨middle, connective, ?_⟩, rfl, ?_⟩
  · rw [hmiddle, String.ofList_toList]
    exact hspelled
  · conv_lhs => rw [← List.take_append_drop word.length text, htake, hblank hfirst, hblank hlast]
    rfl

theorem PartedFrom.splitAtLast?_ne_none (h : PartedFrom before depth text left joint right) :
    splitAtLast? before depth text ≠ none := by
  induction left generalizing before depth text with
  | nil =>
    obtain ⟨rfl, rfl⟩ := partedFrom_nil_iff.1 h
    intro hnone
    have hhere : connectiveAt? (joint.spaced ++ right) = none := (splitAtLast?_cons_eq_none_iff.1 hnone).2 rfl
    rw [joint.connectiveAt?_spaced] at hhere
    exact absurd hhere (by simp)
  | cons c left ih =>
    obtain ⟨rest, rfl⟩ : ∃ rest, text = c :: rest := ⟨_, h.text_eq⟩
    intro hnone
    exact ih (partedFrom_cons_iff.1 h).2 (splitAtLast?_cons_eq_none_iff.1 hnone).1

theorem exists_last_of_splitAtLast? {connective : Connective}
    (h : splitAtLast? before depth text = some (left, connective, right)) :
    ∃ joint : Joint, joint.connective = connective ∧ PartedFrom before depth text left joint right ∧
      ∀ earlier other later, PartedFrom before depth text earlier other later → earlier.length ≤ left.length := by
  induction text generalizing before depth left connective right with
  | nil => simp [splitAtLast?] at h
  | cons c rest ih =>
    rw [splitAtLast?] at h
    split at h
    · -- there is one in the rest of the text, and the last one there is the last one of all
      rename_i hrest
      simp only [Option.some.injEq, Prod.mk.injEq] at h
      obtain ⟨rfl, rfl, rfl⟩ := h
      obtain ⟨joint, hjoint, hparted, hlast⟩ := ih hrest
      refine ⟨joint, hjoint, partedFrom_cons_iff.2 ⟨rfl, hparted⟩, ?_⟩
      intro earlier other later hother
      cases earlier with
      | nil => exact Nat.zero_le _
      | cons d earlier =>
        have := hlast earlier other later (partedFrom_cons_iff.1 hother).2
        simp only [List.length_cons]
        omega
    · rename_i hrest
      split_ifs at h with hdepth
      simp only [Option.map_eq_some_iff, Prod.exists, Prod.mk.injEq] at h
      obtain ⟨_, _, hhere, rfl, rfl, rfl⟩ := h
      obtain ⟨joint, hjoint, htext⟩ := exists_joint_of_connectiveAt? hhere
      refine ⟨joint, hjoint, partedFrom_nil_iff.2 ⟨htext, by simpa using hdepth⟩, ?_⟩
      intro earlier other later hother
      cases earlier with
      | nil => exact Nat.le_refl _
      | cons d earlier => exact absurd hrest (partedFrom_cons_iff.1 hother).2.splitAtLast?_ne_none

namespace Parted

variable (h : Parted text left joint right) (htrim : Text.trim text = text)
include h htrim

/-- A text without white space at its start has something before each connective, which starts with a blank. -/
theorem properPart_left : ProperPart text (Text.trim left) := by
  have hstart : Text.StartsBare text := htrim ▸ Text.startsBare_trim text
  have hlength := congrArg List.length h.text_eq
  have hle := Text.length_trim_le left
  refine ⟨?_, Text.trim_trim left, ?_, ?_⟩
  · cases left with
    | nil => exact absurd (hstart ' ' _ h.text_eq) (by decide)
    | cons c left => exact Text.trim_ne_nil List.mem_cons_self (hstart c _ h.text_eq)
  · have hleft : left <:+: text := h.text_eq ▸ (List.prefix_append left _).isInfix
    exact (Text.isInfix_trim left).trans hleft
  · simp only [List.length_append, Joint.spaced, List.length_cons] at hlength
    omega

/-- A text without white space at its end has something after each connective, which ends with a blank. -/
theorem properPart_right : ProperPart text (Text.trim right) := by
  have hend : Text.EndsBare text := htrim ▸ Text.endsBare_trim text
  have htext : text = (left ++ ' ' :: joint.word) ++ ' ' :: right := by simp [h.text_eq, Joint.spaced]
  have hlength := congrArg List.length htext
  have hle := Text.length_trim_le right
  refine ⟨?_, Text.trim_trim right, ?_, ?_⟩
  · cases hlast : right.getLast? with
    | none =>
      obtain rfl := List.getLast?_eq_none_iff.1 hlast
      have hblank := hend ' ' (htext ▸ List.getLast?_concat)
      exact absurd hblank (by decide)
    | some c =>
      have hne : right ≠ [] := by
        rintro rfl
        simp at hlast
      refine Text.trim_ne_nil (List.mem_of_getLast? hlast) (hend c ?_)
      rw [htext, List.getLast?_append_of_ne_nil _ (by simp), List.getLast?_cons_of_ne_nil hne]
      exact hlast
  · have hright : right <:+ text := h.text_eq ▸ (List.suffix_append _ right).trans (List.suffix_append left _)
    exact (Text.isInfix_trim right).trans hright.isInfix
  · simp only [List.length_append, List.length_cons] at hlength
    omega

theorem exists_splitConnective? :
    ∃ left joint right, Parted text left joint right ∧
      (∀ earlier other later, Parted text earlier other later → earlier.length ≤ left.length) ∧
      splitConnective? text = some (Text.trim left, joint.connective, Text.trim right) := by
  obtain ⟨⟨front, connective, back⟩, hsplit⟩ := Option.ne_none_iff_exists'.1 h.splitAtLast?_ne_none
  obtain ⟨last, rfl, hparted, hlast⟩ := exists_last_of_splitAtLast? hsplit
  refine ⟨front, last, back, hparted, hlast, ?_⟩
  have hfront := (Parted.properPart_left hparted htrim).ne_nil
  have hback := (Parted.properPart_right hparted htrim).ne_nil
  rw [splitConnective?, hsplit]
  simp [hfront, hback]

end Parted

/-! ## Negation -/

theorem exists_negation_of_negated? (h : negated? text = some rest) :
    ∃ word ∈ negations, rest = Text.trimStart (text.drop word.length) ∧ startsEnclosed rest = true := by
  rw [negated?, List.findSome?_eq_some_iff] at h
  obtain ⟨_, word, _, hwords, h, _⟩ := h
  rw [afterNegation?] at h
  split_ifs at h with hword
  rw [Option.some.injEq] at h
  rw [Bool.and_eq_true] at hword
  exact ⟨word, by simp [hwords], h.symm, h ▸ hword.2⟩

theorem negated?_suffix (h : negated? text = some rest) : rest <:+ text := by
  obtain ⟨word, -, rfl, -⟩ := exists_negation_of_negated? h
  exact (List.dropWhile_suffix _).trans (List.drop_suffix _ text)

theorem ne_nil_of_negated? (h : negated? text = some rest) : rest ≠ [] := by
  obtain ⟨word, -, -, hstarts⟩ := exists_negation_of_negated? h
  rintro rfl
  simp [startsEnclosed] at hstarts

/-! ## Reading -/

/-- The condition that the text expresses, if calls of the reader nest no deeper than `bound`. -/
def readWithin : (bound : Nat) → List Char → Option Condition
  | 0, _ => none
  | bound + 1, text =>
    if (bare text).isEmpty then some .missing else
      match splitConnective? (bare text) with
      | some (left, connective, right) => do
        return .join connective (← readWithin bound left) (← readWithin bound right)
      | none =>
        match negated? (bare text) with
        | some rest => do return .not (← readWithin bound rest)
        | none => some (readLeaf (bare text))

theorem readWithin_eq_some {bound : Nat} (h : text.length < bound) : readWithin bound text = some (read text) := by
  induction bound generalizing text with
  | zero => omega
  | succ bound ih =>
    have hbare := length_bare_le text
    by_cases hne : bare text = []
    · rw [readWithin, read, hne]
      rfl
    · rw [readWithin, if_neg (by simpa using hne)]
      cases hsplit : splitConnective? (bare text) with
      | some parts =>
        obtain ⟨left, connective, right⟩ := parts
        obtain ⟨hleft, hright⟩ := length_splitConnective?_lt hsplit
        rw [read_of_split hne hsplit]
        simp [ih (show left.length < bound by omega), ih (show right.length < bound by omega)]
      | none =>
        cases hnegated : negated? (bare text) with
        | some rest =>
          have hrest := length_negated?_lt hnegated
          rw [read_of_negated hne hsplit hnegated]
          simp [ih (show rest.length < bound by omega)]
        | none => rw [read_of_leaf hne hsplit hnegated]

/-- The reader goes on with less of the text. Brackets are taken off by two characters at least a round and leave a
trimmed part. A trimmed text with a connective outside all brackets is split at the last one, into two proper parts.
What a word of negation leaves is the end of the text, and not empty. So calls never nest deeper than the text is
long. -/
structure Descends (text : List Char) : Prop where
  unenclose_part : Text.trim text = text → Text.trim (unenclose text) = unenclose text ∧ unenclose text <:+: text
  unenclose_round : unenclose text = if isEnclosed text then unenclose (Text.trim (inner text)) else text
  round_shorter : isEnclosed text = true → (Text.trim (inner text)).length + 2 ≤ text.length
  split_last : Text.trim text = text → (∃ left joint right, Parted text left joint right) →
    ∃ left joint right, Parted text left joint right ∧
      (∀ earlier other later, Parted text earlier other later → earlier.length ≤ left.length) ∧
      splitConnective? text = some (Text.trim left, joint.connective, Text.trim right) ∧
      ProperPart text (Text.trim left) ∧ ProperPart text (Text.trim right)
  negated_rest : ∀ rest, negated? text = some rest → rest ≠ [] ∧ rest <:+ text ∧ rest.length < text.length
  nesting : ∀ bound, text.length < bound → readWithin bound text = some (read text)

theorem read_descends (text : List Char) : Descends text where
  unenclose_part h := ⟨trim_unenclose h, isInfix_unenclose text⟩
  unenclose_round := by rw [unenclose]
  round_shorter := length_trim_inner
  split_last := by
    rintro htrim ⟨left, joint, right, hparted⟩
    obtain ⟨front, last, back, hlast, hlatest, hsplit⟩ := Parted.exists_splitConnective? hparted htrim
    exact ⟨front, last, back, hlast, hlatest, hsplit, Parted.properPart_left hlast htrim,
      Parted.properPart_right hlast htrim⟩
  negated_rest rest h := ⟨ne_nil_of_negated? h, negated?_suffix h, length_negated?_lt h⟩
  nesting bound := readWithin_eq_some

/-- Two connectives that share a blank, before a bracket that closes nothing: the second one splits the text. -/
theorem read_descends_overlapping :
    let text := "a and and b)".toList
    Text.trim text = text ∧ Parted text "a".toList (.ofConnective .and) "and b)".toList ∧
      splitConnective? text = some ("a and".toList, .and, "b)".toList) ∧
      ProperPart text "a and".toList ∧ ProperPart text "b)".toList := by
  intro text
  have htrim : Text.trim text = text := by decide
  have hparted : Parted text "a".toList (.ofConnective .and) "and b)".toList := ⟨by decide, by decide⟩
  have hvalue : splitConnective? text = some ("a and".toList, .and, "b)".toList) := by decide
  obtain ⟨left, joint, right, -, -, hsplit, hleft, hright⟩ :=
    (read_descends text).split_last htrim ⟨_, _, _, hparted⟩
  rw [hvalue, Option.some.injEq, Prod.mk.injEq, Prod.mk.injEq] at hsplit
  obtain ⟨hfront, -, hback⟩ := hsplit
  exact ⟨htrim, hparted, hvalue, hfront ▸ hleft, hback ▸ hright⟩

end Condition

end ScratchScript
