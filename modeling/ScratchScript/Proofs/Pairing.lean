import ScratchScript.Proofs.Entries

/-!
# Paired brackets

`Paired` is a grammar of the texts in which round and square brackets are paired and nested. A text is checked against
it with a stack of the brackets that are still to come (`paired_iff`), and the stack also tells what becomes of texts
that are put together or taken apart. Trimming and the like take no bracket off a text, so they do not matter. If a
paired text has brackets of one kind at its ends, then these are a pair, or the text is `Flanked` by two pairs
(`flanked_enclose_iff`).
-/

namespace ScratchScript

open Condition (enclose)

def operandPairs : List (Char × Char) := [('(', ')'), ('[', ']')]

/-- Round and square brackets are paired and nested. -/
inductive Paired : List Char → Prop
  | nil : Paired []
  | letter {c : Char} {s : List Char} (hc : c ∉ operandBrackets) (hs : Paired s) : Paired (c :: s)
  | pair {opening closing : Char} {s t : List Char} (h : (opening, closing) ∈ operandPairs) (hs : Paired s)
      (ht : Paired t) : Paired (enclose opening closing s ++ t)

/-- Two bracketed parts of one kind are at the ends of the text. -/
def Flanked (text : List Char) : Prop :=
  ∃ opening closing first middle last, (opening, closing) ∈ operandPairs ∧ Paired first ∧ Paired middle ∧ Paired last ∧
    text = enclose opening closing first ++ middle ++ enclose opening closing last

variable {c opening closing : Char} {s t stack : List Char}

/-! ## Brackets that are still to come -/

/-- The closing brackets that are still to come after the character, the next one first. -/
def awaitStep (stack : List Char) (c : Char) : Option (List Char) :=
  if c = '(' then some (')' :: stack)
  else if c = '[' then some (']' :: stack)
  else if c = ')' ∨ c = ']' then (if stack.head? = some c then some stack.tail else none)
  else some stack

/-- The closing brackets that are still to come after the text, if it closes none out of turn. -/
def awaited (stack text : List Char) : Option (List Char) :=
  text.foldlM awaitStep stack

theorem awaited_cons (stack : List Char) (c : Char) (s : List Char) :
    awaited stack (c :: s) = (awaitStep stack c).bind (awaited · s) :=
  List.foldlM_cons

theorem awaited_append (stack s t : List Char) : awaited stack (s ++ t) = (awaited stack s).bind (awaited · t) :=
  List.foldlM_append

theorem mem_operandPairs_iff : (opening, closing) ∈ operandPairs ↔
    (opening = '(' ∧ closing = ')') ∨ (opening = '[' ∧ closing = ']') := by
  simp [operandPairs]

theorem awaitStep_opening (h : (opening, closing) ∈ operandPairs) (stack : List Char) :
    awaitStep stack opening = some (closing :: stack) := by
  rcases mem_operandPairs_iff.1 h with ⟨rfl, rfl⟩ | ⟨rfl, rfl⟩ <;> rfl

theorem awaitStep_closing (h : (opening, closing) ∈ operandPairs) (stack : List Char) :
    awaitStep stack closing = if stack.head? = some closing then some stack.tail else none := by
  rcases mem_operandPairs_iff.1 h with ⟨rfl, rfl⟩ | ⟨rfl, rfl⟩ <;> rfl

theorem awaitStep_letter (h : c ∉ operandBrackets) (stack : List Char) : awaitStep stack c = some stack := by
  simp only [operandBrackets, List.mem_cons, List.not_mem_nil, or_false, not_or] at h
  simp [awaitStep, h]

theorem bracket_cases (c : Char) :
    (∃ closing, (c, closing) ∈ operandPairs) ∨ (∃ opening, (opening, c) ∈ operandPairs) ∨ c ∉ operandBrackets := by
  by_cases h : c ∈ operandBrackets
  · simp only [operandBrackets, List.mem_cons, List.not_mem_nil, or_false] at h
    rcases h with rfl | rfl | rfl | rfl
    · exact .inl ⟨')', by decide⟩
    · exact .inr (.inl ⟨'(', by decide⟩)
    · exact .inl ⟨']', by decide⟩
    · exact .inr (.inl ⟨'[', by decide⟩)
  · exact .inr (.inr h)

/-! ## Paired texts -/

namespace Paired

theorem append (hs : Paired s) (ht : Paired t) : Paired (s ++ t) := by
  induction hs with
  | nil => exact ht
  | letter hc _ ih => exact .letter hc ih
  | pair h hs _ _ ih =>
    rw [List.append_assoc]
    exact .pair h hs ih

theorem enclosed (h : (opening, closing) ∈ operandPairs) (hs : Paired s) : Paired (enclose opening closing s) := by
  simpa using pair h hs nil

theorem awaited_eq (h : Paired s) (stack : List Char) : awaited stack s = some stack := by
  induction h generalizing stack with
  | nil => rfl
  | letter hc _ ih => rw [awaited_cons, awaitStep_letter hc, Option.bind_some, ih]
  | pair h _ _ ihs iht =>
    rw [Condition.enclose_append, awaited_cons, awaitStep_opening h, Option.bind_some, awaited_append, ihs,
      Option.bind_some, awaited_cons, awaitStep_closing h, List.head?_cons, if_pos rfl, Option.bind_some,
      List.tail_cons, iht]

end Paired

/-- The text closes the brackets of the stack one after the other, with paired texts between them. -/
def Closes : (stack text : List Char) → Prop
  | [], text => Paired text
  | closing :: stack, text => ∃ first rest, Paired first ∧ text = first ++ closing :: rest ∧ Closes stack rest

theorem Closes.prepend (h : Closes stack t) (hs : Paired s) : Closes stack (s ++ t) := by
  cases stack with
  | nil => exact hs.append h
  | cons closing stack =>
    obtain ⟨first, rest, hfirst, rfl, hrest⟩ := h
    exact ⟨s ++ first, rest, hs.append hfirst, by rw [List.append_assoc], hrest⟩

theorem closes_of_awaited (h : awaited stack s = some []) : Closes stack s := by
  induction s generalizing stack with
  | nil =>
    obtain rfl : stack = [] := Option.some.inj h
    exact .nil
  | cons c s ih =>
    rw [awaited_cons] at h
    rcases bracket_cases c with ⟨closing, hpair⟩ | ⟨opening, hpair⟩ | hletter
    · rw [awaitStep_opening hpair, Option.bind_some] at h
      obtain ⟨first, rest, hfirst, rfl, hrest⟩ := ih h
      rw [← Condition.enclose_append]
      exact hrest.prepend (.enclosed hpair hfirst)
    · rw [awaitStep_closing hpair] at h
      split at h
      · rename_i hhead
        obtain ⟨stack, rfl⟩ := List.head?_eq_some_iff.1 hhead
        exact ⟨[], s, .nil, rfl, ih h⟩
      · simp at h
    · rw [awaitStep_letter hletter, Option.bind_some] at h
      exact (ih h).prepend (.letter hletter .nil)

theorem paired_iff : Paired s ↔ awaited [] s = some [] :=
  ⟨fun h => h.awaited_eq [], fun h => closes_of_awaited h⟩

instance (text : List Char) : Decidable (Paired text) :=
  decidable_of_iff _ paired_iff.symm

theorem Paired.append_iff_right (h : Paired s) : Paired (s ++ t) ↔ Paired t := by
  rw [paired_iff, paired_iff, awaited_append, h.awaited_eq, Option.bind_some]

theorem Paired.append_iff_left (h : Paired t) : Paired (s ++ t) ↔ Paired s := by
  have hbind : (awaited [] s).bind (awaited · t) = awaited [] s := by
    cases awaited [] s with
    | none => rfl
    | some stack => exact h.awaited_eq stack
  rw [paired_iff, paired_iff, awaited_append, hbind]

theorem not_paired_closing (h : (opening, closing) ∈ operandPairs) (s : List Char) : ¬ Paired (closing :: s) := by
  rw [paired_iff, awaited_cons, awaitStep_closing h]
  simp

/-! ## Ends of paired texts -/

theorem paired_of_noBracket (h : ∀ c ∈ s, c ∉ operandBrackets) : Paired s := by
  induction s with
  | nil => exact .nil
  | cons c s ih =>
    obtain ⟨hc, hs⟩ := List.forall_mem_cons.1 h
    exact .letter hc (ih hs)

section

variable {p : Char → Bool} (hp : ∀ c, p c = true → c ∉ operandBrackets)
include hp

theorem paired_dropWhile_iff : Paired (s.dropWhile p) ↔ Paired s := by
  have hfront : Paired (s.takeWhile p) := paired_of_noBracket fun c hc => hp c (List.mem_takeWhile_imp hc)
  rw [← hfront.append_iff_right, List.takeWhile_append_dropWhile]

theorem paired_dropWhile_reverse_iff : Paired (s.reverse.dropWhile p).reverse ↔ Paired s := by
  have hback : Paired (s.reverse.takeWhile p).reverse :=
    paired_of_noBracket fun c hc => hp c (List.mem_takeWhile_imp (List.mem_reverse.1 hc))
  rw [← hback.append_iff_left, ← List.reverse_append, List.takeWhile_append_dropWhile, List.reverse_reverse]

end

theorem isBlank_noBracket (c : Char) (h : Text.isBlank c = true) : c ∉ operandBrackets := by
  have hbrackets : ∀ bracket ∈ operandBrackets, Text.isBlank bracket = false :=
    forall_mem_operandBrackets.2 (by decide)
  intro hmem
  rw [hbrackets c hmem] at h
  exact absurd h (by decide)

theorem paired_trimEnd_iff : Paired (Text.trimEnd s) ↔ Paired s :=
  paired_dropWhile_reverse_iff isBlank_noBracket

theorem paired_trim_iff : Paired (Text.trim s) ↔ Paired s :=
  paired_trimEnd_iff.trans (paired_dropWhile_iff isBlank_noBracket)

theorem paired_dropMenuMark_iff : Paired (Source.dropMenuMark s) ↔ Paired s := by
  rw [← Source.dropMenuMark_trim, ← paired_trim_iff (s := s)]
  by_cases hsame : Source.dropMenuMark (Text.trim s) = Text.trim s
  · rw [hsame]
  · obtain ⟨front, letter, hletter, hentry, hfront⟩ :=
      Source.exists_mark_of_dropMenuMark_ne (Text.trim_trim s) hsame
    have hmark : Paired [' ', letter] := by
      simp only [Source.markLetters, List.mem_cons, List.not_mem_nil, or_false] at hletter
      rcases hletter with rfl | rfl | rfl | rfl <;> decide
    rw [hfront, hentry, paired_trimEnd_iff, hmark.append_iff_left]

theorem paired_dropQuestionMarks_iff : Paired (Condition.dropQuestionMarks s) ↔ Paired s := by
  have hopening : ∀ c, (c == '¿') = true → c ∉ operandBrackets := by simp [operandBrackets]
  have hclosing : ∀ c, (c == '?') = true → c ∉ operandBrackets := by simp [operandBrackets]
  rw [Condition.dropQuestionMarks, paired_trim_iff, paired_dropWhile_reverse_iff hclosing,
    paired_dropWhile_iff hopening, paired_trim_iff]

/-! ## Brackets at the ends -/

theorem mem_operandBrackets_of_pair (h : (opening, closing) ∈ operandPairs) :
    opening ∈ operandBrackets ∧ closing ∈ operandBrackets := by
  rcases mem_operandPairs_iff.1 h with ⟨rfl, rfl⟩ | ⟨rfl, rfl⟩ <;> decide

theorem operandPairs_agree : ∀ pair ∈ operandPairs, ∀ other ∈ operandPairs, pair.1 = other.1 ↔ pair.2 = other.2 := by
  decide

theorem Paired.exists_first (h : Paired (opening :: s)) (hpair : (opening, closing) ∈ operandPairs) :
    ∃ first rest, Paired first ∧ Paired rest ∧ s = first ++ closing :: rest := by
  generalize htext : opening :: s = text at h
  cases h with
  | nil => simp at htext
  | letter hc _ =>
    obtain ⟨rfl, -⟩ := List.cons.inj htext
    exact absurd (mem_operandBrackets_of_pair hpair).1 hc
  | @pair _ other first rest hother hfirst hrest =>
    rw [Condition.enclose_append] at htext
    obtain ⟨rfl, htail⟩ := List.cons.inj htext
    obtain rfl := (operandPairs_agree _ hpair _ hother).1 rfl
    exact ⟨first, rest, hfirst, hrest, htail⟩

theorem Paired.exists_last (h : Paired s) (hpair : (opening, closing) ∈ operandPairs)
    (hlast : s.getLast? = some closing) :
    ∃ front last, Paired front ∧ Paired last ∧ s = front ++ enclose opening closing last := by
  induction h with
  | nil => simp at hlast
  | @letter c s hc _ ih =>
    cases s with
    | nil =>
      obtain rfl : c = closing := by simpa using hlast
      exact absurd (mem_operandBrackets_of_pair hpair).2 hc
    | cons d s =>
      obtain ⟨front, last, hfront, hinside, hs⟩ := ih (by simpa using hlast)
      exact ⟨c :: front, last, .letter hc hfront, hinside, congrArg (c :: ·) hs⟩
  | @pair o other inside rest hother hinside _ _ ih =>
    cases rest with
    | nil =>
      rw [List.append_nil, enclose, ← List.cons_append, List.getLast?_concat, Option.some.injEq] at hlast
      subst hlast
      obtain rfl := (operandPairs_agree _ hpair _ hother).2 rfl
      exact ⟨[], inside, .nil, hinside, by simp⟩
    | cons d rest =>
      obtain ⟨front, last, hfront, hends, hrest⟩ := ih (by simpa using hlast)
      refine ⟨enclose o other inside ++ front, last, .pair hother hinside hfront, hends, ?_⟩
      rw [hrest, List.append_assoc]

/-- The brackets at the ends of a paired text are a pair, or the text is flanked. -/
theorem flanked_enclose_iff (hpair : (opening, closing) ∈ operandPairs) (h : Paired (enclose opening closing s)) :
    Flanked (enclose opening closing s) ↔ ¬ Paired s := by
  constructor
  · rintro ⟨o, c, first, middle, last, hother, hfirst, -, -, htext⟩
    obtain ⟨rfl, htail⟩ := List.cons.inj htext
    obtain rfl := (operandPairs_agree _ hpair _ hother).1 rfl
    -- the first pair is closed before the text ends
    have hinside : s = first ++ closing :: (middle ++ opening :: last) :=
      List.append_cancel_right (htail.trans (by simp [enclose]))
    rw [hinside, hfirst.append_iff_right]
    exact not_paired_closing hpair _
  · intro hnot
    obtain ⟨first, rest, hfirst, hrest, htext⟩ := h.exists_first hpair
    cases rest with
    | nil =>
      rw [List.append_cancel_right htext] at hnot
      exact absurd hfirst hnot
    | cons d rest =>
      have hends := congrArg List.getLast? htext
      rw [List.getLast?_concat, List.getLast?_append_cons, List.getLast?_cons_cons] at hends
      obtain ⟨middle, last, hmiddle, hlast, hrest⟩ := hrest.exists_last hpair hends.symm
      refine ⟨opening, closing, first, middle, last, hpair, hfirst, hmiddle, hlast, ?_⟩
      rw [List.append_assoc, ← hrest, Condition.enclose_append, ← htext]
      rfl

end ScratchScript
