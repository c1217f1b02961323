import ScratchScript.Condition.Reader
import ScratchScript.Proofs.Reading

/-!
# Brackets in conditions

How the reader of conditions moves through texts in brackets. `Stays` follows the depth along a piece of a text; a piece
is `Balanced` if, wherever it stands, the depth comes back at its end and is never lower in between. Balanced pieces can
be put together, and put in brackets (`Enclosable`), without a look at what is in them.

The two facts that the reader rests on are about enclosed texts. A pair of brackets is taken off when it encloses the
whole text and is not when more text follows (`isEnclosed_enclose`, `isEnclosed_enclose_append`). No connective is found
inside of one, since the depth is positive there (`NoConnective.enclose`). It follows how enclosed texts are read, alone
(`read_enclose`) and negated (`read_not`).
-/

namespace ScratchScript

namespace Condition

/-! ## Depth along a piece of a text -/

/-- Along the text, which stands between two characters, the depth goes from `depth` to `final` and is never below
`floor`. -/
def Stays (floor : Int) (before : Option Char) (depth : Int) (text : List Char) (after : Option Char)
    (final : Int) : Prop :=
  match text with
  | [] => floor ≤ depth ∧ depth = final
  | c :: rest =>
    floor ≤ depth ∧ Stays floor (some c) (depth + depthStep before c (rest.head?.or after)) rest after final

/-- Wherever the text stands, the depth at its end is that at its start, and nowhere lower. -/
structure Balanced (text : List Char) : Prop where
  stays : ∀ before depth after, Stays depth before depth text after depth

def brackets : List Char := ['(', ')', '[', ']', '<', '>']

variable {floor depth middle final : Int} {before after : Option Char} {s t rest : List Char}

theorem Stays.mono {lower : Int} (h : Stays floor before depth s after final) (hle : lower ≤ floor) :
    Stays lower before depth s after final := by
  induction s generalizing before depth with
  | nil => exact ⟨Int.le_trans hle h.1, h.2⟩
  | cons c s ih => exact ⟨Int.le_trans hle h.1, ih h.2⟩

theorem getLast?_cons_or (c : Char) (s : List Char) (before : Option Char) :
    (c :: s).getLast?.or before = s.getLast?.or (some c) := by
  rw [List.getLast?_cons]
  cases s.getLast? <;> rfl

theorem Stays.append (hs : Stays floor before depth s (t.head?.or after) middle)
    (ht : Stays floor (s.getLast?.or before) middle t after final) :
    Stays floor before depth (s ++ t) after final := by
  induction s generalizing before depth with
  | nil =>
    obtain ⟨-, rfl⟩ := hs
    exact ht
  | cons c s ih =>
    rw [getLast?_cons_or] at ht
    rw [List.cons_append]
    refine ⟨hs.1, ?_⟩
    rw [List.head?_append, Option.or_assoc]
    exact ih hs.2 ht

theorem balanced_nil : Balanced [] :=
  ⟨fun _ _ _ => ⟨Int.le_refl _, rfl⟩⟩

theorem Balanced.append (hs : Balanced s) (ht : Balanced t) : Balanced (s ++ t) :=
  ⟨fun before depth after => (hs.stays before depth _).append (ht.stays _ depth after)⟩

theorem depthStep_eq_zero {c : Char} (h : c ∉ brackets) : depthStep before c after = 0 := by
  simp only [brackets, List.mem_cons, List.not_mem_nil, or_false, not_or] at h
  simp [depthStep, h]

theorem balanced_of_no_bracket (h : ∀ c ∈ s, c ∉ brackets) : Balanced s := by
  constructor
  intro before depth after
  induction s generalizing before with
  | nil => exact ⟨Int.le_refl _, rfl⟩
  | cons c s ih =>
    refine ⟨Int.le_refl _, ?_⟩
    rw [depthStep_eq_zero (h c (by simp)), Int.add_zero]
    exact ih (fun d hd => h d (by simp [hd])) (some c)

def isFlat (text : List Char) : Bool :=
  text.all fun c => !brackets.contains c

theorem isFlat_iff : isFlat s = true ↔ ∀ c ∈ s, c ∉ brackets := by
  simp [isFlat]

theorem balanced_of_isFlat (h : isFlat s = true) : Balanced s :=
  balanced_of_no_bracket (isFlat_iff.1 h)

/-! ## Enclosed texts -/

def enclose (opening closing : Char) (text : List Char) : List Char :=
  opening :: (text ++ [closing])

/-- The text is balanced, and the brackets count as such around it. -/
structure Enclosable (opening closing : Char) (text : List Char) : Prop where
  balanced : Balanced text
  opens : ∀ before, depthStep before opening (text.head?.or (some closing)) = 1
  closes : ∀ after, depthStep (text.getLast?.or (some opening)) closing after = -1

theorem enclosable_round (h : Balanced t) : Enclosable '(' ')' t :=
  ⟨h, fun _ => rfl, fun _ => rfl⟩

theorem enclosable_square (h : Balanced t) : Enclosable '[' ']' t :=
  ⟨h, fun _ => rfl, fun _ => rfl⟩

theorem depthStep_less (h : after ≠ some ' ') : depthStep before '<' after = 1 := by
  simp [depthStep, h]

theorem depthStep_greater (h : before ≠ some ' ') : depthStep before '>' after = -1 := by
  simp [depthStep, h]

theorem enclosable_pointed (h : Balanced t) (hstart : Text.StartsBare t) (hend : Text.EndsBare t) :
    Enclosable '<' '>' t := by
  refine ⟨h, fun _ => depthStep_less ?_, fun _ => depthStep_greater ?_⟩
  · cases t with
    | nil => decide
    | cons c rest =>
      rintro ⟨⟩
      exact absurd (hstart ' ' rest rfl) (by decide)
  · cases hlast : t.getLast? with
    | none => decide
    | some c =>
      rintro ⟨⟩
      exact absurd (hend ' ' hlast) (by decide)

namespace Enclosable

variable {opening closing : Char}

theorem stays_text (h : Enclosable opening closing t) (before after : Option Char) (depth : Int) :
    Stays (depth + 1) before (depth + 1) t after (depth + 1) :=
  h.balanced.stays before (depth + 1) after

theorem balanced_enclose (h : Enclosable opening closing t) : Balanced (enclose opening closing t) := by
  constructor
  intro before depth after
  refine ⟨Int.le_refl _, ?_⟩
  have hhead : (t ++ [closing]).head?.or after = t.head?.or (some closing) := by
    cases t <;> rfl
  rw [hhead, h.opens before]
  refine ((h.stays_text _ _ depth).mono (by omega)).append ?_
  refine ⟨by omega, ?_⟩
  rw [List.head?_nil, Option.none_or, h.closes after]
  exact ⟨by omega, by omega⟩

end Enclosable

/-! ## Brackets around the whole text -/

theorem depthsFrom_ne_nil (before : Option Char) (depth : Int) (text : List Char) :
    depthsFrom before depth text ≠ [] := by
  cases text <;> simp [depthsFrom]

theorem endsAtLast_cons {depths : List Int} (h : depths ≠ []) (depth : Int) :
    endsAtLast (depth :: depths) = (depth != 0 && endsAtLast depths) := by
  cases depths with
  | nil => exact absurd rfl h
  | cons => rfl

theorem Stays.endsAtLast_depthsFrom (h : Stays 1 before depth s rest.head? middle) :
    endsAtLast (depthsFrom before depth (s ++ rest)) = endsAtLast (depthsFrom (s.getLast?.or before) middle rest) := by
  induction s generalizing before depth with
  | nil =>
    obtain ⟨-, rfl⟩ := h
    rfl
  | cons c s ih =>
    have hpositive : (depth != 0) = true := by
      have := h.1
      simp only [bne_iff_ne]
      omega
    rw [List.cons_append, depthsFrom, endsAtLast_cons (depthsFrom_ne_nil _ _ _), hpositive, Bool.true_and,
      List.head?_append, ih h.2, getLast?_cons_or]

section

variable {opening closing : Char}

theorem endsAtLast_enclose_append (h : Enclosable opening closing t) (rest : List Char) :
    endsAtLast
        (depthsFrom (some opening) (depthStep none opening (t ++ closing :: rest).head?) (t ++ closing :: rest)) =
      endsAtLast (depthsFrom (some closing) 0 rest) := by
  have hhead : (t ++ closing :: rest).head? = t.head?.or (some closing) := by
    cases t <;> rfl
  have hinside : Stays 1 (some opening) 1 t (closing :: rest).head? 1 := h.stays_text _ _ 0
  rw [hhead, h.opens none, hinside.endsAtLast_depthsFrom, depthsFrom, endsAtLast_cons (depthsFrom_ne_nil _ _ _),
    h.closes rest.head?]
  rfl

theorem isEnclosed_enclose (h : Enclosable opening closing t) (hclosing : closing? opening = some closing) :
    isEnclosed (enclose opening closing t) = true := by
  have hlast : (opening :: (t ++ [closing])).getLast? = some closing := by
    rw [← List.cons_append, List.getLast?_concat]
  simp only [enclose, isEnclosed, hclosing, hlast, endsAtLast_enclose_append h []]
  simp [depthsFrom, endsAtLast]

/-- Brackets that close before the end of the text do not enclose it. -/
theorem isEnclosed_enclose_append (h : Enclosable opening closing t) (hrest : rest ≠ []) :
    isEnclosed (enclose opening closing t ++ rest) = false := by
  obtain ⟨c, rest, rfl⟩ := List.exists_cons_of_ne_nil hrest
  have hdown : endsAtLast (depthsFrom (some closing) 0 (c :: rest)) = false := by
    rw [depthsFrom, endsAtLast_cons (depthsFrom_ne_nil _ _ _)]
    rfl
  have hends := endsAtLast_enclose_append h (c :: rest)
  rw [hdown] at hends
  simp only [enclose, List.cons_append, List.append_assoc, List.nil_append, isEnclosed, hends]
  cases closing? opening <;> simp

theorem unenclose_enclose (h : Enclosable opening closing t) (hclosing : closing? opening = some closing) :
    unenclose (enclose opening closing t) = unenclose (Text.trim t) := by
  rw [unenclose, if_pos (isEnclosed_enclose h hclosing)]
  simp [inner, enclose]

theorem isBlank_of_closing? (hclosing : closing? opening = some closing) :
    Text.isBlank opening = false ∧ Text.isBlank closing = false := by
  simp only [closing?, beq_iff_eq] at hclosing
  split at hclosing
  · rename_i hopening
    obtain rfl : '>' = closing := by simpa using hclosing
    subst hopening
    decide
  · split at hclosing
    · rename_i hopening
      obtain rfl : ')' = closing := by simpa using hclosing
      subst hopening
      decide
    · simp at hclosing

theorem bare_enclose (h : Enclosable opening closing t) (hclosing : closing? opening = some closing) :
    bare (enclose opening closing t) = bare t := by
  obtain ⟨hopening, hclosed⟩ := isBlank_of_closing? hclosing
  have htrim : Text.trim (enclose opening closing t) = enclose opening closing t :=
    Text.trim_eq_self (Text.startsBare_cons hopening _) (Text.endsBare_concat (opening :: t) hclosed)
  rw [bare, htrim, unenclose_enclose h hclosing, bare]

end

/-! ## Connectives -/

def connectiveInitials : List Char := ['a', 'o', 'y']

theorem connectiveAt?_eq_none {c : Char}
    (h : c.toLower ≠ ' ' ∨ ∀ d, rest.head? = some d → d.toLower ∉ connectiveInitials) :
    connectiveAt? (c :: rest) = none := by
  rcases h with hblank | hinitial
  · simp [connectiveAt?, connectives, Text.startsWithWord, hblank]
  · cases rest with
    | nil => simp [connectiveAt?, connectives, Text.startsWithWord]
    | cons d rest =>
      have hne := hinitial d rfl
      simp only [connectiveInitials, List.mem_cons, List.not_mem_nil, or_false, not_or] at hne
      simp [connectiveAt?, connectives, Text.startsWithWord, hne]

/-- Whether the word, before the character `after`, has no bracket in it and no connective begins in it. -/
def isQuiet (after : Option Char) : List Char → Bool
  | [] => true
  | c :: rest =>
    !brackets.contains c &&
      (c.toLower != ' ' || (rest.head?.or after).all fun d => !connectiveInitials.contains d.toLower) &&
      isQuiet after rest

/-- Outside all brackets of the text, whatever stands before it, there is no connective. -/
def NoConnective (depth : Int) (text : List Char) : Prop :=
  ∀ before, splitAtLast? before depth text = none

theorem splitAtLast?_cons_of_none {c : Char}
    (hrest : splitAtLast? (some c) (depth + depthStep before c rest.head?) rest = none)
    (hhere : depth = 0 → connectiveAt? (c :: rest) = none) : splitAtLast? before depth (c :: rest) = none := by
  rw [splitAtLast?, hrest]
  by_cases hdepth : depth = 0
  · simp [hdepth, hhere hdepth]
  · simp [hdepth]

theorem noConnective_nil (depth : Int) : NoConnective depth [] :=
  fun _ => rfl

theorem NoConnective.quiet {word : List Char} (hquiet : isQuiet rest.head? word = true) (h : NoConnective depth rest) :
    NoConnective depth (word ++ rest) := by
  induction word with
  | nil => exact h
  | cons c word ih =>
    simp only [isQuiet, Bool.and_eq_true, Bool.or_eq_true, bne_iff_ne, Bool.not_eq_true', List.contains_eq_mem,
      decide_eq_false_iff_not] at hquiet
    obtain ⟨⟨hbracket, hblank⟩, hword⟩ := hquiet
    intro before
    rw [List.cons_append]
    refine splitAtLast?_cons_of_none ?_ ?_
    · rw [depthStep_eq_zero hbracket, Int.add_zero]
      exact ih hword (some c)
    · intro _
      refine connectiveAt?_eq_none (hblank.imp_right ?_)
      intro hall d hd
      rw [List.head?_append] at hd
      simpa using (Option.all_eq_true ..).1 hall d hd

theorem Stays.splitAtLast?_eq_none (h : Stays 1 before depth s rest.head? middle)
    (hrest : splitAtLast? (s.getLast?.or before) middle rest = none) :
    splitAtLast? before depth (s ++ rest) = none := by
  induction s generalizing before depth with
  | nil =>
    obtain ⟨-, rfl⟩ := h
    exact hrest
  | cons c s ih =>
    rw [getLast?_cons_or] at hrest
    rw [List.cons_append]
    refine splitAtLast?_cons_of_none ?_ ?_
    · rw [List.head?_append]
      exact ih h.2 hrest
    · -- at depth 0 the text would be below the floor
      intro hdepth
      have := h.1
      omega

/-- No connective is found in an enclosed text. -/
theorem NoConnective.enclose {opening closing : Char} (henclosable : Enclosable opening closing t)
    (hopening : opening.toLower ≠ ' ') (h : NoConnective 0 rest) :
    NoConnective 0 (enclose opening closing t ++ rest) := by
  intro before
  rw [Condition.enclose, List.cons_append, List.append_assoc]
  refine splitAtLast?_cons_of_none ?_ fun _ => connectiveAt?_eq_none (.inl hopening)
  have hhead : (t ++ ([closing] ++ rest)).head? = t.head?.or (some closing) := by
    cases t <;> rfl
  rw [hhead, henclosable.opens before]
  refine Stays.splitAtLast?_eq_none (henclosable.stays_text _ _ 0) ?_
  refine splitAtLast?_cons_of_none ?_ (by omega)
  rw [henclosable.closes]
  exact h _

theorem Stays.splitAtLast?_eq_some {left right : List Char} {connective : Connective}
    (h : Stays floor before depth s rest.head? middle)
    (hrest : splitAtLast? (s.getLast?.or before) middle rest = some (left, connective, right)) :
    splitAtLast? before depth (s ++ rest) = some (s ++ left, connective, right) := by
  induction s generalizing before depth with
  | nil =>
    obtain ⟨-, rfl⟩ := h
    exact hrest
  | cons c s ih =>
    rw [getLast?_cons_or] at hrest
    rw [List.cons_append, splitAtLast?, List.head?_append, ih h.2 hrest]
    rfl

/-! ## Reading -/

theorem read_eq_of_bare (h : bare s = bare t) : read s = read t := by
  rw [read, read, h]

theorem read_of_split {text left right : List Char} {connective : Connective} (hne : bare text ≠ [])
    (h : splitConnective? (bare text) = some (left, connective, right)) :
    read text = .join connective (read left) (read right) := by
  rw [read, if_neg (by simpa using hne)]
  split
  · rename_i heq
    rw [h] at heq
    simp only [Option.some.injEq, Prod.mk.injEq] at heq
    obtain ⟨rfl, rfl, rfl⟩ := heq
    rfl
  · rename_i heq
    simp [h] at heq

theorem read_of_negated {text rest : List Char} (hne : bare text ≠ []) (hsplit : splitConnective? (bare text) = none)
    (h : negated? (bare text) = some rest) : read text = .not (read rest) := by
  rw [read, if_neg (by simpa using hne)]
  split
  · rename_i heq
    simp [hsplit] at heq
  · split
    · rename_i heq
      obtain rfl := Option.some.inj (h.symm.trans heq)
      rfl
    · rename_i heq
      simp [h] at heq

theorem read_of_leaf {text : List Char} (hne : bare text ≠ []) (hsplit : splitConnective? (bare text) = none)
    (h : negated? (bare text) = none) : read text = readLeaf (bare text) := by
  rw [read, if_neg (by simpa using hne)]
  split
  · rename_i heq
    simp [hsplit] at heq
  · split
    · rename_i heq
      simp [h] at heq
    · rfl

/-- Brackets around the whole text change nothing. -/
theorem read_enclose {opening closing : Char} (h : Enclosable opening closing t)
    (hclosing : closing? opening = some closing) : read (enclose opening closing t) = read t :=
  read_eq_of_bare (bare_enclose h hclosing)

theorem bare_eq_self (hstart : Text.StartsBare s) (hend : Text.EndsBare s) (h : isEnclosed s = false) : bare s = s := by
  rw [bare, Text.trim_eq_self hstart hend, unenclose, if_neg (by simp [h])]

/-! ## Operands -/

/-- The text is enclosed in brackets of the kind that conditions have. -/
structure Operand (text : List Char) : Prop where
  exists_enclose : ∃ opening closing t, text = enclose opening closing t ∧ Enclosable opening closing t ∧
    closing? opening = some closing

namespace Operand

variable {left right : List Char}

theorem balanced (h : Operand s) : Balanced s := by
  obtain ⟨opening, closing, t, rfl, henclosable, -⟩ := h
  exact henclosable.balanced_enclose

theorem head?_eq (h : Operand s) : s.head? = some '<' ∨ s.head? = some '(' := by
  obtain ⟨opening, closing, t, rfl, -, hclosing⟩ := h
  simp only [closing?, beq_iff_eq] at hclosing
  split at hclosing
  · rename_i hopening
    exact .inl (congrArg some hopening)
  · split at hclosing
    · rename_i hopening
      exact .inr (congrArg some hopening)
    · simp at hclosing

theorem ne_nil (h : Operand s) : s ≠ [] := by
  obtain ⟨opening, closing, t, rfl, -, -⟩ := h
  simp [enclose]

theorem startsBare (h : Operand s) : Text.StartsBare s := by
  obtain ⟨opening, closing, t, rfl, -, hclosing⟩ := h
  exact Text.startsBare_cons (isBlank_of_closing? hclosing).1 _

theorem endsBare (h : Operand s) : Text.EndsBare s := by
  obtain ⟨opening, closing, t, rfl, -, hclosing⟩ := h
  exact Text.endsBare_concat (opening :: t) (isBlank_of_closing? hclosing).2

theorem trim_eq (h : Operand s) : Text.trim s = s :=
  Text.trim_eq_self h.startsBare h.endsBare

theorem noConnective (h : Operand s) : NoConnective 0 s := by
  have hhead := h.head?_eq
  obtain ⟨opening, closing, t, rfl, henclosable, -⟩ := h
  have hopening : opening.toLower ≠ ' ' := by
    rcases hhead with hhead | hhead
    · rw [show opening = '<' from Option.some.inj hhead]
      decide
    · rw [show opening = '(' from Option.some.inj hhead]
      decide
  simpa using NoConnective.enclose henclosable hopening (noConnective_nil 0)

theorem isEnclosed_append (h : Operand s) (hrest : rest ≠ []) : isEnclosed (s ++ rest) = false := by
  obtain ⟨opening, closing, t, rfl, henclosable, -⟩ := h
  exact isEnclosed_enclose_append henclosable hrest

end Operand

theorem splitConnective?_eq_none (h : NoConnective 0 s) : splitConnective? s = none := by
  rw [splitConnective?, h none]

theorem negated?_not (h : Operand s) : negated? ("not ".toList ++ s) = some s := by
  have htrim : Text.trimStart s = s := Text.trimStart_eq_self h.startsBare
  have hstarts : startsEnclosed s = true := by
    rcases h.head?_eq with hhead | hhead <;> simp [startsEnclosed, hhead]
  have hword : Text.startsWithWord "not ".toList ("not ".toList ++ s) = true := rfl
  have hdrop : ("not ".toList ++ s).drop "not ".length = s := rfl
  simp only [negated?, negations, List.findSome?_cons, afterNegation?, hword, hdrop, htrim, hstarts, Bool.and_self,
    if_true]

theorem read_not (h : Operand s) : read ("not ".toList ++ s) = .not (read s) := by
  have hbare : bare ("not ".toList ++ s) = "not ".toList ++ s := by
    refine bare_eq_self ?_ (h.endsBare.append h.ne_nil _) rfl
    exact Text.startsBare_cons (by decide) _
  have hquiet : isQuiet s.head? "not ".toList = true := by
    rcases h.head?_eq with hhead | hhead <;> rw [hhead] <;> decide
  have hnone : NoConnective 0 ("not ".toList ++ s) := NoConnective.quiet hquiet h.noConnective
  refine read_of_negated ?_ ?_ ?_
  · rw [hbare]
    simp
  · rw [hbare, splitConnective?_eq_none hnone]
  · rw [hbare, negated?_not h]

end Condition

end ScratchScript
