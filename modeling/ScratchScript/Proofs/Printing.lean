import ScratchScript.Proofs.Grouping
import ScratchScript.Proofs.Forms

/-!
# Writing conditions

`Condition.print` writes a condition, and reading gives it back (`read_print`). A missing operand is written as a pair
of brackets with nothing in it. The texts in a condition must be such that they can be told from what is written around
them (`Plain`), and the names of keys and of things to touch must be stored forms, since those are what is read.

Every condition is written in pointed brackets around a balanced text (`enclosable_body`). How the text is taken apart
where it has operands is a matter of brackets only; what is left are the leaves, where a text without connectives goes
to `readLeaf` (`read_eq_readLeaf`), and from there to the comparisons or to one of the four wordings.
-/

namespace ScratchScript

def Comparison.sign : Comparison → Char
  | greater => '>'
  | less => '<'
  | equal => '='

/-! ## Marks at the end of a text -/

theorem Text.dropMark?_append (mark s : List Char) : dropMark? mark (s ++ mark) = some s := by
  have hsuffix : mark.isSuffixOf (s ++ mark) = true := List.isSuffixOf_iff_suffix.2 (List.suffix_append s mark)
  rw [dropMark?, if_pos hsuffix]
  simp

theorem Text.dropMark?_eq_none {mark s : List Char} (h : ¬ mark.IsSuffix s) : dropMark? mark s = none := by
  rw [dropMark?, if_neg]
  rwa [List.isSuffixOf_iff_suffix]

theorem Source.dropMenuMark_eq_self {s : List Char} (htrim : Text.trim s = s)
    (hmark : ∀ mark ∈ menuMarks, ¬ mark.toList.IsSuffix s) : dropMenuMark s = s := by
  have hnone : (menuMarks.findSome? fun mark => entryBefore? mark.toList (Text.trim s)) = none := by
    rw [List.findSome?_eq_none_iff]
    intro mark hmem
    rw [htrim, entryBefore?, Text.dropMark?_eq_none (hmark mark hmem)]
  rw [dropMenuMark, hnone, htrim]
  rfl

namespace Condition

variable {before : Option Char} {depth : Int} {s t rest : List Char}

/-! ## What is written -/

def worded (word : String) (s : List Char) : List Char :=
  word.toList ++ s

/-- An entry in square brackets with the words around it. -/
def entry (word : String) (s : List Char) (ending : String) : List Char :=
  word.toList ++ (enclose '[' ']' s ++ ending.toList)

/-- What is written between the outermost brackets. -/
def body : Condition → List Char
  | missing => []
  | join connective left right =>
    enclose '<' '>' left.body ++ (connective.word.toList ++ enclose '<' '>' right.body)
  | not operand => worded "not " (enclose '<' '>' operand.body)
  | compare comparison left right =>
    enclose '(' ')' left.toList ++ ([' ', comparison.sign, ' '] ++ enclose '(' ')' right.toList)
  | touching target => entry "touching " target.toList "" ++ ['?']
  | touchingColor color => entry "touching color " color.toList "" ++ ['?']
  | keyPressed key => entry "key " key.toList " pressed" ++ ['?']
  | mouseDown => worded "mouse down" ['?']

def print (condition : Condition) : List Char :=
  enclose '<' '>' condition.body

/-- The text has no white space at its ends, no brackets and no mark of a menu. -/
structure Plain (s : List Char) : Prop where
  trim_eq : Text.trim s = s
  no_bracket : ∀ c ∈ s, c ∉ brackets
  no_mark : ∀ mark ∈ Source.menuMarks, ¬ mark.toList.IsSuffix s

/-- The condition can be written: its texts are plain, entries are not empty, and names are stored forms. -/
def Printable : Condition → Prop
  | missing => True
  | join _ left right => left.Printable ∧ right.Printable
  | not operand => operand.Printable
  | compare _ left right => Plain left.toList ∧ Plain right.toList
  | touching target => Plain target.toList ∧ target.toList ≠ [] ∧ Vocabulary.touchTarget target.toList = target
  | touchingColor color => Plain color.toList ∧ color.toList ≠ []
  | keyPressed key => Plain key.toList ∧ key.toList ≠ [] ∧ Vocabulary.keyName key.toList = key
  | mouseDown => True

instance (s : List Char) : Decidable (Plain s) :=
  decidable_of_iff (Text.trim s = s ∧ isFlat s = true ∧ ∀ mark ∈ Source.menuMarks, ¬ mark.toList.IsSuffix s)
    ⟨fun h => ⟨h.1, isFlat_iff.1 h.2.1, h.2.2⟩, fun h => ⟨h.trim_eq, isFlat_iff.2 h.no_bracket, h.no_mark⟩⟩

instance decidablePrintable : (condition : Condition) → Decidable condition.Printable
  | missing => inferInstanceAs (Decidable True)
  | join _ left right =>
    have := decidablePrintable left
    have := decidablePrintable right
    inferInstanceAs (Decidable (left.Printable ∧ right.Printable))
  | not operand => decidablePrintable operand
  | compare _ left right => inferInstanceAs (Decidable (Plain left.toList ∧ Plain right.toList))
  | touching target =>
    inferInstanceAs
      (Decidable (Plain target.toList ∧ target.toList ≠ [] ∧ Vocabulary.touchTarget target.toList = target))
  | touchingColor color => inferInstanceAs (Decidable (Plain color.toList ∧ color.toList ≠ []))
  | keyPressed key =>
    inferInstanceAs (Decidable (Plain key.toList ∧ key.toList ≠ [] ∧ Vocabulary.keyName key.toList = key))
  | mouseDown => inferInstanceAs (Decidable True)

namespace Plain

theorem flat (h : Plain s) : isFlat s = true :=
  isFlat_iff.2 h.no_bracket

theorem balanced (h : Plain s) : Balanced s :=
  balanced_of_no_bracket h.no_bracket

theorem dropMenuMark_eq (h : Plain s) : Source.dropMenuMark s = s :=
  Source.dropMenuMark_eq_self h.trim_eq h.no_mark

theorem not_mem_close (h : Plain s) : ']' ∉ s :=
  fun hmem => h.no_bracket ']' hmem (by decide)

end Plain

theorem enclose_append (opening closing : Char) (s rest : List Char) :
    enclose opening closing s ++ rest = opening :: (s ++ closing :: rest) := by
  simp [enclose]

/-! ## Words around an entry -/

/-- The words around an entry cannot be mistaken for anything else: they have no brackets or connectives, and the first
letter and the last are such that nothing is taken off. -/
structure EntryWords (word ending : String) : Prop where
  head : word.toList.head? = some 't' ∨ word.toList.head? = some 'k'
  quiet : isQuiet (some '[') word.toList = true
  quiet_ending : isQuiet none (ending.toList ++ ['?']) = true
  flat : isFlat word.toList = true
  flat_ending : isFlat ending.toList = true
  last : (ending.toList.getLast?.all fun c => !Text.isBlank c && c != '?') = true

theorem entryWords_touching : EntryWords "touching " "" := by
  constructor <;> decide

theorem entryWords_touchingColor : EntryWords "touching color " "" := by
  constructor <;> decide

theorem entryWords_key : EntryWords "key " " pressed" := by
  constructor <;> decide

/-! ## Balance -/

theorem balanced_question : Balanced ['?'] :=
  balanced_of_isFlat (by decide)

theorem balanced_entry {word ending : String} (hwords : EntryWords word ending) (hs : Balanced s) :
    Balanced (entry word s ending ++ ['?']) := by
  have hentry := (enclosable_square hs).balanced_enclose
  have hending := balanced_of_isFlat hwords.flat_ending
  exact ((balanced_of_isFlat hwords.flat).append (hentry.append hending)).append balanced_question

theorem balanced_sign (comparison : Comparison) : Balanced [' ', comparison.sign, ' '] := by
  constructor
  intro before depth after
  cases comparison <;> simp [Stays, depthStep, Comparison.sign]

theorem EntryWords.startsBare {word ending : String} (hwords : EntryWords word ending) (s : List Char) :
    Text.StartsBare (entry word s ending ++ rest) := by
  rw [entry, List.append_assoc]
  intro c more heq
  have hhead := congrArg List.head? heq
  rw [List.head?_append] at hhead
  rcases hwords.head with hfirst | hfirst
  · obtain rfl : 't' = c := by simpa [hfirst] using hhead
    decide
  · obtain rfl : 'k' = c := by simpa [hfirst] using hhead
    decide

theorem startsBare_body (condition : Condition) : Text.StartsBare condition.body := by
  cases condition with
  | missing => exact Text.startsBare_nil
  | join connective left right => exact Text.startsBare_cons (by decide) _
  | not operand =>
    rw [body, worded]
    exact Text.StartsBare.append (by decide) (by decide) _
  | compare comparison left right => exact Text.startsBare_cons (by decide) _
  | touching target => exact entryWords_touching.startsBare _
  | touchingColor color => exact entryWords_touchingColor.startsBare _
  | keyPressed key => exact entryWords_key.startsBare _
  | mouseDown =>
    rw [body, worded]
    exact Text.StartsBare.append (by decide) (by decide) _

theorem getLast?_append_enclose (start : List Char) (opening closing : Char) (s : List Char) :
    (start ++ enclose opening closing s).getLast? = some closing := by
  rw [enclose, ← List.cons_append, ← List.append_assoc, List.getLast?_concat]

theorem endsBare_enclose (start : List Char) {opening closing : Char} (h : Text.isBlank closing = false) :
    Text.EndsBare (start ++ enclose opening closing s) := by
  intro c hlast
  rw [getLast?_append_enclose, Option.some.injEq] at hlast
  rw [← hlast]
  exact h

theorem endsBare_body (condition : Condition) : Text.EndsBare condition.body := by
  cases condition with
  | missing => exact Text.endsBare_nil
  | join connective left right =>
    rw [body, ← List.append_assoc]
    exact endsBare_enclose _ (by decide)
  | not operand =>
    rw [body, worded]
    exact endsBare_enclose _ (by decide)
  | compare comparison left right =>
    rw [body, ← List.append_assoc]
    exact endsBare_enclose _ (by decide)
  | touching target =>
    rw [body]
    exact Text.endsBare_concat _ (by decide)
  | touchingColor color =>
    rw [body]
    exact Text.endsBare_concat _ (by decide)
  | keyPressed key =>
    rw [body]
    exact Text.endsBare_concat _ (by decide)
  | mouseDown =>
    rw [body, worded]
    exact Text.endsBare_concat _ (by decide)

/-- What is written can be put in pointed brackets. -/
theorem enclosable_body {condition : Condition} (h : condition.Printable) : Enclosable '<' '>' condition.body := by
  refine enclosable_pointed ?_ (startsBare_body condition) (endsBare_body condition)
  induction condition with
  | missing => exact balanced_nil
  | join connective left right ihleft ihright =>
    have hword : Balanced connective.word.toList := balanced_of_isFlat (by cases connective <;> decide)
    have hleft := enclosable_pointed (ihleft h.1) (startsBare_body left) (endsBare_body left)
    have hright := enclosable_pointed (ihright h.2) (startsBare_body right) (endsBare_body right)
    rw [body]
    exact hleft.balanced_enclose.append (hword.append hright.balanced_enclose)
  | not operand ih =>
    have hnot : Balanced "not ".toList := balanced_of_isFlat (by decide)
    have hoperand := enclosable_pointed (ih h) (startsBare_body operand) (endsBare_body operand)
    rw [body, worded]
    exact hnot.append hoperand.balanced_enclose
  | compare comparison left right =>
    have hleft := (enclosable_round h.1.balanced).balanced_enclose
    have hright := (enclosable_round h.2.balanced).balanced_enclose
    rw [body]
    exact hleft.append ((balanced_sign comparison).append hright)
  | touching target => exact balanced_entry entryWords_touching h.1.balanced
  | touchingColor color => exact balanced_entry entryWords_touchingColor h.1.balanced
  | keyPressed key => exact balanced_entry entryWords_key h.1.balanced
  | mouseDown =>
    have hword : Balanced "mouse down".toList := balanced_of_isFlat (by decide)
    rw [body, worded]
    exact hword.append balanced_question

theorem operand_print {condition : Condition} (h : condition.Printable) : Operand condition.print :=
  ⟨'<', '>', condition.body, rfl, enclosable_body h, rfl⟩

/-! ## Leaves -/

/-- A text without operands is read as a leaf. -/
theorem read_eq_readLeaf (hne : s ≠ []) (hstart : Text.StartsBare s) (hend : Text.EndsBare s)
    (henclosed : isEnclosed s = false) (hconnective : NoConnective 0 s) (hnegated : negated? s = none) :
    read s = readLeaf s := by
  have hbare := bare_eq_self hstart hend henclosed
  rw [← hbare] at hne hconnective hnegated
  rw [read_of_leaf hne (splitConnective?_eq_none hconnective) hnegated, hbare]

theorem negated?_eq_none {c : Char} (h : c.toLower ≠ 'n') (s : List Char) : negated? (c :: s) = none := by
  simp [negated?, negations, afterNegation?, Text.startsWithWord, h]

theorem dropQuestionMarks_append {marks : List Char} (hne : s ≠ []) (hstart : Text.StartsBare s)
    (hend : Text.EndsBare s) (hfirst : s.head? ≠ some '¿') (hlast : s.getLast? ≠ some '?')
    (hmarks : ∀ c ∈ marks, c = '?') : dropQuestionMarks (s ++ marks) = s := by
  have hendMarks : Text.EndsBare (s ++ marks) := by
    intro c hc
    rw [List.getLast?_append] at hc
    cases hmark : marks.getLast? with
    | none => exact hend c (by simpa [hmark] using hc)
    | some mark =>
      obtain rfl : mark = c := by simpa [hmark] using hc
      rw [hmarks mark (List.mem_of_getLast? hmark)]
      decide
  have hopened : (s ++ marks).dropWhile (· == '¿') = s ++ marks := by
    obtain ⟨c, rest, rfl⟩ := List.exists_cons_of_ne_nil hne
    have hc : (c == '¿') = false := by simpa using hfirst
    simp [hc]
  have hclosed : ((s ++ marks).reverse.dropWhile (· == '?')).reverse = s := by
    rw [List.reverse_append, List.dropWhile_append_of_pos (by simpa using hmarks)]
    obtain ⟨rest, c, rfl⟩ := (List.eq_nil_or_concat s).resolve_left hne
    have hc : (c == '?') = false := by simpa using hlast
    simp [hc]
  rw [dropQuestionMarks, Text.trim_eq_self (hstart.append hne _) hendMarks, hopened, hclosed,
    Text.trim_eq_self hstart hend]

/-! ## Comparisons -/

theorem bracketStep_eq_zero {c : Char} (h : c ∉ brackets) : bracketStep c = 0 := by
  simp only [brackets, List.mem_cons, List.not_mem_nil, or_false, not_or] at h
  simp [bracketStep, h]

theorem splitComparison?_append (hs : isFlat s = true)
    (h : depth ≠ 0 ∨ (s.all fun c => (comparison? c).isNone) = true) :
    splitComparison? before depth (s ++ rest) =
      (splitComparison? (s.getLast?.or before) depth rest).map fun (left, op, right) => (s ++ left, op, right) := by
  induction s generalizing before with
  | nil => simp
  | cons c s ih =>
    have hbracket : c ∉ brackets := isFlat_iff.1 hs c (by simp)
    have hs_rest : isFlat s = true := isFlat_iff.2 fun d hd => isFlat_iff.1 hs d (by simp [hd])
    rw [List.all_cons, Bool.and_eq_true] at h
    rw [List.cons_append, splitComparison?, bracketStep_eq_zero hbracket, Int.add_zero,
      ih hs_rest (h.imp_right And.right), getLast?_cons_or]
    cases hsign : comparison? c with
    | none => simp [Option.map_map, Function.comp_def]
    | some op =>
      have hdepth : depth ≠ 0 := h.resolve_right fun hall => by simp [hsign] at hall
      simp [hdepth, Option.map_map, Function.comp_def]

theorem bracketStep_of_comparison? {c : Char} {op : Comparison} (h : comparison? c = some op) : bracketStep c = 0 := by
  unfold comparison? at h
  split_ifs at h with hgreater hless hequal
  · rw [beq_iff_eq.1 hgreater]
    rfl
  · rw [beq_iff_eq.1 hless]
    rfl
  · rw [beq_iff_eq.1 hequal]
    rfl

theorem comparison?_eq_none {c : Char} (h : bracketStep c ≠ 0) : comparison? c = none := by
  rw [Option.eq_none_iff_forall_ne_some]
  intro op hop
  exact h (bracketStep_of_comparison? hop)

theorem splitComparison?_enclose {opening closing : Char} (hopening : bracketStep opening = 1)
    (hclosing : bracketStep closing = -1) (hs : isFlat s = true) :
    splitComparison? before 0 (enclose opening closing s ++ rest) =
      (splitComparison? (some closing) 0 rest).map fun (left, op, right) =>
        (enclose opening closing s ++ left, op, right) := by
  have hinside : splitComparison? (some opening) 1 (s ++ closing :: rest) = _ :=
    splitComparison?_append hs (.inl (by decide))
  rw [enclose_append, splitComparison?, comparison?_eq_none (by simp [hopening]), hopening]
  simp only [Int.zero_add]
  rw [hinside, splitComparison?, comparison?_eq_none (by simp [hclosing]), hclosing]
  simp [Option.map_map, Function.comp_def, enclose_append]

theorem trim_append_blank (hstart : Text.StartsBare s) (hend : Text.EndsBare s) (hne : s ≠ []) :
    Text.trim (s ++ [' ']) = s := by
  rw [Text.trim, Text.trimStart_eq_self (hstart.append hne _)]
  have hblank : Text.trimEnd (s ++ [' ']) = Text.trimEnd s := by
    simp [Text.trimEnd, Text.isBlank]
  rw [hblank, Text.trimEnd_eq_self hend]

theorem unwrapOperand_round (hs : Plain s) {text : List Char} (htrim : Text.trim text = enclose '(' ')' s) :
    Vocabulary.unwrapOperand text = s := by
  have hinside : Vocabulary.inside? '(' ')' (enclose '(' ')' s) = some s := by
    simp [Vocabulary.inside?, enclose, Text.dropMark?_append]
  rw [Vocabulary.unwrapOperand, htrim, hinside]
  exact hs.dropMenuMark_eq

theorem splitComparison?_compare (comparison : Comparison) (hs : Plain s) (t : List Char) :
    splitComparison? none 0 (enclose '(' ')' s ++ ([' ', comparison.sign, ' '] ++ t)) =
      some (enclose '(' ')' s ++ [' '], comparison, ' ' :: t) := by
  have hsign : splitComparison? (some ')') 0 ([' ', comparison.sign, ' '] ++ t) =
      some ([' '], comparison, ' ' :: t) := by
    cases comparison <;> rfl
  rw [splitComparison?_enclose rfl rfl hs.flat, hsign]
  rfl

theorem NoConnective.sign (comparison : Comparison) (h : NoConnective 0 rest) (hhead : rest.head? = some '(') :
    NoConnective 0 ([' ', comparison.sign, ' '] ++ rest) := by
  obtain ⟨more, rfl⟩ := List.head?_eq_some_iff.1 hhead
  have hblank : NoConnective 0 ([' '] ++ '(' :: more) := NoConnective.quiet rfl h
  -- `>` counts as no bracket for the blank before it, and `<` for the blank after it
  have hstep : depthStep (some ' ') comparison.sign (some ' ') = 0 := by cases comparison <;> rfl
  have hsign : splitAtLast? (some ' ') 0 (comparison.sign :: ([' '] ++ '(' :: more)) = none := by
    refine splitAtLast?_cons_of_none ?_ fun _ => connectiveAt?_eq_none (.inl ?_)
    · rw [List.singleton_append, List.head?_cons, hstep, Int.add_zero]
      exact hblank _
    · cases comparison <;> decide
  intro before
  refine splitAtLast?_cons_of_none ?_ fun _ => connectiveAt?_eq_none (.inr ?_)
  · rw [depthStep_eq_zero (by decide), Int.add_zero]
    exact hsign
  · rintro c ⟨⟩
    cases comparison <;> decide

theorem operand_round (h : Plain s) : Operand (enclose '(' ')' s) :=
  ⟨'(', ')', s, rfl, enclosable_round h.balanced, rfl⟩

theorem isOperand_round (s : List Char) : isOperand (enclose '(' ')' s) = true := by
  have hlast : (enclose '(' ')' s).getLast? = some ')' := getLast?_append_enclose [] '(' ')' s
  rw [isOperand, hlast]
  rfl

theorem readComparison?_body (comparison : Comparison) {left right : String} (hleft : Plain left.toList)
    (hright : Plain right.toList) :
    readComparison? (compare comparison left right).body = some (compare comparison left right) := by
  have hleftTrim : Text.trim (enclose '(' ')' left.toList ++ [' ']) = enclose '(' ')' left.toList :=
    trim_append_blank (operand_round hleft).startsBare (operand_round hleft).endsBare (operand_round hleft).ne_nil
  have hrightTrim : Text.trim (' ' :: enclose '(' ')' right.toList) = enclose '(' ')' right.toList :=
    (operand_round hright).trim_eq
  rw [body, readComparison?, splitComparison?_compare comparison hleft]
  simp only [hleftTrim, hrightTrim, isOperand_round, Bool.and_self, if_true, unwrapOperand_round hleft hleftTrim,
    unwrapOperand_round hright hrightTrim, String.ofList_toList]

theorem read_compare (comparison : Comparison) {left right : String} (hleft : Plain left.toList)
    (hright : Plain right.toList) : read (compare comparison left right).body = compare comparison left right := by
  have hbody : (compare comparison left right).body =
      enclose '(' ')' left.toList ++ ([' ', comparison.sign, ' '] ++ enclose '(' ')' right.toList) := rfl
  have hstart := startsBare_body (compare comparison left right)
  have hend := endsBare_body (compare comparison left right)
  have hne : (compare comparison left right).body ≠ [] := by simp [hbody, enclose]
  have hleaf : read (compare comparison left right).body = readLeaf (compare comparison left right).body := by
    refine read_eq_readLeaf hne hstart hend ?_ ?_ ?_
    · rw [hbody]
      exact (operand_round hleft).isEnclosed_append (by simp)
    · rw [hbody]
      have hright := NoConnective.sign comparison (operand_round hright).noConnective rfl
      exact .enclose (enclosable_round hleft.balanced) (by decide) hright
    · rw [hbody]
      exact negated?_eq_none (by decide) _
  have hlast : (compare comparison left right).body.getLast? = some ')' := by
    rw [hbody, ← List.append_assoc]
    exact getLast?_append_enclose _ _ _ _
  have hasked : dropQuestionMarks ((compare comparison left right).body ++ []) = (compare comparison left right).body :=
    dropQuestionMarks_append hne hstart hend (by simp [hbody, enclose]) (by simp [hlast]) (by simp)
  rw [List.append_nil] at hasked
  rw [hleaf, readLeaf, hasked, readComparison?_body comparison hleft hright]
  rfl

theorem isPrefix_of_splitComparison? {left right : List Char} {op : Comparison}
    (h : splitComparison? before depth s = some (left, op, right)) : left <+: s := by
  induction s generalizing before depth left with
  | nil => simp [splitComparison?] at h
  | cons c s ih =>
    rw [splitComparison?] at h
    split at h
    · split at h
      · obtain rfl : [] = left := congrArg Prod.fst (Option.some.inj h)
        exact List.nil_prefix
      · simp only [Option.map_eq_some_iff, Prod.exists, Prod.mk.injEq] at h
        obtain ⟨front, _, _, hsplit, rfl, rfl, rfl⟩ := h
        exact List.cons_prefix_cons.2 ⟨rfl, ih hsplit⟩
    · simp only [Option.map_eq_some_iff, Prod.exists, Prod.mk.injEq] at h
      obtain ⟨front, _, _, hsplit, rfl, rfl, rfl⟩ := h
      exact List.cons_prefix_cons.2 ⟨rfl, ih hsplit⟩

theorem readComparison?_eq_none {c : Char} (hblank : Text.isBlank c = false) (hround : c ≠ '(') (hsquare : c ≠ '[')
    (s : List Char) : readComparison? (c :: s) = none := by
  rw [readComparison?]
  split
  · rfl
  · rename_i left op right hsplit
    have hoperand : isOperand (Text.trim left) = false := by
      cases left with
      | nil => rfl
      | cons d left =>
        obtain rfl : d = c := (List.cons_prefix_cons.1 (isPrefix_of_splitComparison? hsplit)).1
        have hstart : Text.trimStart (d :: left) = d :: left :=
          Text.trimStart_eq_self (Text.startsBare_cons hblank left)
        obtain ⟨rest, hrest⟩ : Text.trim (d :: left) <+: d :: left := by
          rw [Text.trim, hstart]
          exact List.rdropWhile_prefix Text.isBlank _
        cases htrim : Text.trim (d :: left) with
        | nil => rfl
        | cons e more =>
          rw [htrim] at hrest
          obtain rfl : e = d := (List.cons.inj hrest).1
          simp [isOperand, hround, hsquare]
    simp [hoperand]

/-! ## Wordings -/

theorem read_question {c : Char} (hc : c ∈ ['t', 'k', 'm']) (hhead : s.head? = some c) (hend : Text.EndsBare s)
    (hlast : s.getLast? ≠ some '?') (hconnective : NoConnective 0 (s ++ ['?'])) :
    read (s ++ ['?']) = (readWording? s).getD .missing := by
  obtain ⟨rest, rfl⟩ := List.head?_eq_some_iff.1 hhead
  have hfirst : Text.isBlank c = false ∧ closing? c = none ∧ c.toLower ≠ 'n' ∧ c ≠ '¿' ∧ c ≠ '(' ∧ c ≠ '[' := by
    simp only [List.mem_cons, List.not_mem_nil, or_false] at hc
    rcases hc with rfl | rfl | rfl <;> decide
  obtain ⟨hblank, hclosing, hnot, hopening, hround, hsquare⟩ := hfirst
  have hleaf : read (c :: rest ++ ['?']) = readLeaf (c :: rest ++ ['?']) := by
    refine read_eq_readLeaf (by simp) (Text.startsBare_cons hblank _) (Text.endsBare_concat _ (by decide)) ?_
      hconnective ?_
    · simp [isEnclosed, hclosing]
    · exact negated?_eq_none hnot _
  have hasked : dropQuestionMarks (c :: rest ++ ['?']) = c :: rest :=
    dropQuestionMarks_append (by simp) (Text.startsBare_cons hblank _) hend (by simpa using hopening) hlast (by simp)
  rw [hleaf, readLeaf, hasked, readComparison?_eq_none hblank hround hsquare]
  rfl

theorem getLast?_entry (word : String) (s : List Char) (ending : String) :
    (entry word s ending).getLast? = ending.toList.getLast?.or (some ']') := by
  have hlast : (enclose '[' ']' s).getLast? = some ']' := getLast?_append_enclose [] '[' ']' s
  rw [entry, List.getLast?_append, List.getLast?_append, hlast]
  cases ending.toList.getLast? <;> rfl

section

variable {word ending : String} (hwords : EntryWords word ending)

include hwords

theorem noConnective_entry (hs : Balanced s) : NoConnective 0 (entry word s ending ++ ['?']) := by
  have htail : NoConnective 0 (ending.toList ++ ['?'] ++ []) :=
    NoConnective.quiet hwords.quiet_ending (noConnective_nil 0)
  have hentry := NoConnective.enclose (enclosable_square hs) (by decide) htail
  rw [entry, List.append_assoc, List.append_assoc, ← List.append_nil (ending.toList ++ ['?'])]
  exact NoConnective.quiet hwords.quiet hentry

theorem read_entry_of_noConnective (hconnective : NoConnective 0 (entry word s ending ++ ['?'])) :
    read (entry word s ending ++ ['?']) = (readWording? (entry word s ending)).getD .missing := by
  obtain ⟨c, hc, hhead⟩ : ∃ c ∈ ['t', 'k', 'm'], (entry word s ending).head? = some c := by
    rcases hwords.head with hfirst | hfirst
    · exact ⟨'t', by decide, by simp [entry, hfirst]⟩
    · exact ⟨'k', by decide, by simp [entry, hfirst]⟩
  have hlast : ∀ d, (entry word s ending).getLast? = some d → Text.isBlank d = false ∧ d ≠ '?' := by
    intro d hd
    rw [getLast?_entry] at hd
    cases hending : ending.toList.getLast? with
    | none =>
      obtain rfl : ']' = d := by simpa [hending] using hd
      decide
    | some e =>
      obtain rfl : e = d := by simpa [hending] using hd
      simpa [hending] using hwords.last
  refine read_question hc hhead (fun d hd => (hlast d hd).1) ?_ hconnective
  intro hquestion
  exact (hlast '?' hquestion).2 rfl

theorem read_entry (hs : Plain s) :
    read (entry word s ending ++ ['?']) = (readWording? (entry word s ending)).getD .missing :=
  read_entry_of_noConnective hwords (noConnective_entry hwords hs.balanced)

end

/-! ### The four wordings -/

theorem readWording?_eq_drop {opening : Opening} (hbegins : opening.begins s = true) (n : Nat)
    (hclash : ((wordings.take n).all fun wording => wording.1.all fun form => form.openings.all opening.clash) = true) :
    readWording? s = (wordings.drop n).findSome? fun (forms, condition) =>
      (forms.findSome? fun form => form.read? s).map fun holes => condition (Source.dropMenuMark (holes.headD [])) := by
  have hnone : ((wordings.take n).findSome? fun (forms, condition) =>
      (forms.findSome? fun form => form.read? s).map fun holes =>
        condition (Source.dropMenuMark (holes.headD []))) = none := by
    rw [List.findSome?_eq_none_iff]
    rintro ⟨forms, condition⟩ hwording
    have hforms : (forms.findSome? fun form => form.read? s) = none := by
      rw [List.findSome?_eq_none_iff]
      intro form hform
      exact Form.read?_eq_none (List.all_eq_true.1 (List.all_eq_true.1 hclash _ hwording) form hform) hbegins
    simp only [hforms, Option.map_none]
  rw [readWording?]
  conv_lhs => rw [← List.take_append_drop n wordings]
  rw [List.findSome?_append, hnone, Option.none_or]

theorem begins_entry (word ending : String) (s : List Char) :
    (Opening.spelled (word.toList ++ ['[']) .hole).begins (entry word s ending) = true := by
  have htext : entry word s ending = word.toList ++ ['['] ++ (s ++ ']' :: ending.toList) := by
    simp [entry, enclose]
  rw [htext, Form.begins_append]

section

variable (hne : s ≠ []) (hclosed : ']' ∉ s)

include hne hclosed

theorem readWording?_touchingEntry :
    readWording? (entry "touching " s "") =
      some (.touching (Vocabulary.touchTarget (Source.dropMenuMark s))) := by
  have htouching : Form.read? (Form.oneOf ["touching ", "tocando "] ++ Form.square ++ Form.lineEnd)
      (entry "touching " s "") = some [s] := by
    rw [entry, enclose_append]
    exact Form.read?_word "touching " ["tocando "] (Form.read?_square hne hclosed Form.read?_lineEnd)
  rw [readWording?_eq_drop (begins_entry "touching " "" s) 1 (by decide +kernel)]
  simp only [wordings, List.drop_succ_cons, List.drop_zero, List.findSome?_cons, htouching, Option.map_some,
    List.headD_cons]

theorem readWording?_keyEntry :
    readWording? (entry "key " s " pressed") =
      some (.keyPressed (Vocabulary.keyName (Source.dropMenuMark s))) := by
  have hkey : Form.read? (Form.oneOf ["key ", "tecla "] ++ Form.square ++ Form.oneOf [" pressed", " presionada"] ++
      Form.lineEnd) (entry "key " s " pressed") = some [s] := by
    have hpressed := Form.read?_word " pressed" [" presionada"] Form.read?_lineEnd
    rw [List.append_nil] at hpressed
    rw [entry, enclose_append]
    exact Form.read?_word "key " ["tecla "] (Form.read?_square hne hclosed hpressed)
  rw [readWording?_eq_drop (begins_entry "key " " pressed" s) 2 (by decide +kernel)]
  simp only [wordings, List.drop_succ_cons, List.drop_zero, List.findSome?_cons, hkey, Option.map_some,
    List.headD_cons]

end

section

variable (hs : Plain s) (hne : s ≠ [])

include hs hne

theorem readWording?_touchingColor :
    readWording? (entry "touching color " s "") = some (.touchingColor (String.ofList s)) := by
  have hcolor : Form.read? (Form.text "touching colo" ++ Form.maybe ["u"] ++ Form.text "r " ++ Form.square ++
      Form.lineEnd) (entry "touching color " s "") = some [s] := by
    have htext : entry "touching color " s "" =
        "touching colo".toList ++ ("".toList ++ ("r ".toList ++ ('[' :: (s ++ [']'])))) := by
      simp [entry, enclose]
    have hentry := Form.read?_word "r " [] (Form.read?_square hne hs.not_mem_close Form.read?_lineEnd)
    -- the optional letter is not there: its spelling does not fit, and the empty one does
    have hmaybe := Form.read?_word "" [] hentry
    rw [← Form.read?_word_skip "u" [""] rfl] at hmaybe
    rw [htext]
    exact Form.read?_word "touching colo" [] hmaybe
  simp only [readWording?, wordings, List.findSome?_cons, hcolor, Option.map_some, List.headD_cons, hs.dropMenuMark_eq]

theorem readWording?_touching :
    readWording? (entry "touching " s "") = some (.touching (Vocabulary.touchTarget s)) := by
  rw [readWording?_touchingEntry hne hs.not_mem_close, hs.dropMenuMark_eq]

theorem readWording?_keyPressed :
    readWording? (entry "key " s " pressed") = some (.keyPressed (Vocabulary.keyName s)) := by
  rw [readWording?_keyEntry hne hs.not_mem_close, hs.dropMenuMark_eq]

end

theorem read_mouseDown : read mouseDown.body = .mouseDown := by
  have hword : readWording? "mouse down".toList = some .mouseDown := by decide +kernel
  have hquiet : isQuiet none ("mouse down".toList ++ ['?']) = true := by decide
  have hconnective : NoConnective 0 ("mouse down".toList ++ ['?'] ++ []) :=
    NoConnective.quiet hquiet (noConnective_nil 0)
  rw [List.append_nil] at hconnective
  have hread := read_question (c := 'm') (by decide) (by decide) (by decide) (by decide) hconnective
  rw [body, worded, hread, hword]
  rfl

/-! ## Reading what is written -/

theorem read_nil : read [] = .missing := by
  have hbare : bare [] = [] := bare_eq_self Text.startsBare_nil Text.endsBare_nil rfl
  rw [read, hbare]
  rfl

/-- Reading gives back what was written. -/
theorem read_print {condition : Condition} (h : condition.Printable) : read condition.print = condition := by
  induction condition with
  | missing => rw [print, read_enclose (enclosable_body h) rfl, body, read_nil]
  | join connective left right ihleft ihright =>
    rw [print, read_enclose (enclosable_body h) rfl, body]
    have hjoin := read_join (operand_print h.1) (operand_print h.2) connective
    rw [ihleft h.1, ihright h.2] at hjoin
    exact hjoin
  | not operand ih =>
    rw [print, read_enclose (enclosable_body h) rfl, body, worded]
    have hoperand : Operand operand.print := operand_print h
    have hnot := read_not hoperand
    rw [ih h] at hnot
    exact hnot
  | compare comparison left right =>
    rw [print, read_enclose (enclosable_body h) rfl, read_compare comparison h.1 h.2]
  | touching target =>
    rw [print, read_enclose (enclosable_body h) rfl, body, read_entry entryWords_touching h.1,
      readWording?_touching h.1 h.2.1, h.2.2]
    rfl
  | touchingColor color =>
    rw [print, read_enclose (enclosable_body h) rfl, body, read_entry entryWords_touchingColor h.1,
      readWording?_touchingColor h.1 h.2, String.ofList_toList]
    rfl
  | keyPressed key =>
    rw [print, read_enclose (enclosable_body h) rfl, body, read_entry entryWords_key h.1,
      readWording?_keyPressed h.1 h.2.1, h.2.2]
    rfl
  | mouseDown => rw [print, read_enclose (enclosable_body h) rfl, read_mouseDown]

theorem read_print_nested :
    (join .or (not (keyPressed "space")) (join .and missing (compare .less "a or b" ""))).Printable ∧
      read "<<not <key [space] pressed?>> or <<> and <(a or b) < ()>>>".toList =
        join .or (not (keyPressed "space")) (join .and missing (compare .less "a or b" "")) := by
  have hprintable :
      (join .or (not (keyPressed "space")) (join .and missing (compare .less "a or b" ""))).Printable := by
    decide +kernel
  have hprint : (join .or (not (keyPressed "space")) (join .and missing (compare .less "a or b" ""))).print =
      "<<not <key [space] pressed?>> or <<> and <(a or b) < ()>>>".toList := by
    decide +kernel
  refine ⟨hprintable, ?_⟩
  rw [← hprint]
  exact read_print hprintable

end Condition

end ScratchScript
