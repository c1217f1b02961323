import ScratchScript.Proofs.Casing
import ScratchScript.Proofs.Keywords
import ScratchScript.Proofs.Messages

/-!
# Entries in square brackets

What becomes of an entry in the question of a condition. Depth is counted through the entry as through any other text,
so that brackets and connectives in it count too. `read_touching_iff` says for which entries that does no harm: those
that the square bracket holds (`isHeld`). The brackets around the question are taken off exactly if the depth comes back
(`isEnclosed_touching_iff`), and the question is then taken apart exactly if a connective lies outside all brackets
(`read_question_of_split`).

An entry of a menu has a mark, which is dropped. The question about a key drops marks twice, the hat of a script once,
and `key_paths_agree_iff` says when the two name the same key: an entry that loses a second mark gets shorter, and no
name of a key ends like a mark.
-/

namespace ScratchScript

theorem Text.trim_ne_nil {s : List Char} {c : Char} (hmem : c ∈ s) (h : isBlank c = false) : trim s ≠ [] := by
  intro htrim
  have hblank : ∀ d ∈ trimStart s, isBlank d = true := List.rdropWhile_eq_nil_iff.1 htrim
  have hnil : trimStart s = [] := by
    cases hstart : trimStart s with
    | nil => rfl
    | cons d rest =>
      have hbare := startsBare_trimStart s d rest hstart
      rw [hblank d (hstart ▸ List.mem_cons_self)] at hbare
      exact absurd hbare (by decide)
  have hc := List.dropWhile_eq_nil_iff.1 hnil c hmem
  rw [h] at hc
  exact absurd hc (by decide)

namespace Condition

variable {floor depth final : Int} {before : Option Char} {c : Char} {s t rest : List Char}

/-! ## Connectives in a text -/

theorem splitAtLast?_cons_eq_none_iff :
    splitAtLast? before depth (c :: rest) = none ↔
      splitAtLast? (some c) (depth + depthStep before c rest.head?) rest = none ∧
        (depth = 0 → connectiveAt? (c :: rest) = none) := by
  rw [splitAtLast?]
  cases splitAtLast? (some c) (depth + depthStep before c rest.head?) rest with
  | some found => simp
  | none => by_cases hdepth : depth = 0 <;> simp [hdepth]

theorem splitAtLast?_eq_none_iff :
    splitAtLast? before depth s = none ↔
      ∀ place ∈ (depthsFrom before depth s).zip s.tails, place.1 = 0 → connectiveAt? place.2 = none := by
  induction s generalizing before depth with
  | nil =>
    have hnil : connectiveAt? [] = none := by decide
    simp [splitAtLast?, depthsFrom, hnil]
  | cons c s ih =>
    rw [splitAtLast?_cons_eq_none_iff, ih, depthsFrom, List.tails, List.zip_cons_cons, List.forall_mem_cons, and_comm]

theorem startsWithWord_iff {word text : List Char} :
    Text.startsWithWord word text = true ↔ word <+: text.map Char.toLower := by
  rw [Text.startsWithWord, beq_iff_eq, List.map_take, List.prefix_iff_eq_take, eq_comm]

theorem connectiveAt?_close_eq_none_iff : connectiveAt? (s ++ ']' :: rest) = none ↔ connectiveAt? s = none := by
  have hword : ∀ word : List Char, ']' ∉ word →
      (Text.startsWithWord word (s ++ ']' :: rest) = true ↔ Text.startsWithWord word s = true) := by
    intro word hword
    have hlower : (s ++ ']' :: rest).map Char.toLower = s.map Char.toLower ++ [']'] ++ rest.map Char.toLower := by
      simp
    rw [startsWithWord_iff, startsWithWord_iff, hlower]
    constructor
    · intro hstarts
      rcases List.prefix_or_prefix_of_prefix hstarts (List.prefix_append _ _) with hshort | hlong
      · rcases List.prefix_concat_iff.1 hshort with heq | hs
        · exact absurd (heq ▸ List.mem_concat_self) hword
        · exact hs
      · exact absurd (hlong.subset List.mem_concat_self) hword
    · intro hstarts
      exact (hstarts.trans (List.prefix_append _ _)).trans (List.prefix_append _ _)
  have hconnectives : ∀ entry ∈ connectives, ']' ∉ entry.1.toList := by decide
  simp only [connectiveAt?, Option.map_eq_none_iff, List.find?_eq_none]
  refine forall₂_congr fun entry hentry => ?_
  rw [hword entry.1.toList (hconnectives entry hentry)]

theorem depthStep_or_close (before : Option Char) (c : Char) (after : Option Char) :
    depthStep before c (after.or (some ']')) = depthStep before c after := by
  cases after <;> simp [depthStep]

theorem Stays.splitAtLast?_close_eq_none_iff (h : Stays floor before depth s (some ']') final) :
    splitAtLast? before depth (s ++ ']' :: rest) = none ↔
      splitAtLast? before depth s = none ∧ splitAtLast? (s.getLast?.or before) final (']' :: rest) = none := by
  induction s generalizing before depth with
  | nil =>
    obtain ⟨-, rfl⟩ := h
    simp [splitAtLast?]
  | cons c s ih =>
    have hrest := h.2
    rw [depthStep_or_close] at hrest
    rw [List.cons_append, splitAtLast?_cons_eq_none_iff, splitAtLast?_cons_eq_none_iff, List.head?_append,
      List.head?_cons, depthStep_or_close, ih hrest, getLast?_cons_or, ← List.cons_append,
      connectiveAt?_close_eq_none_iff, and_right_comm]

/-! ## Depth in a text -/

theorem neg_one_le_depthStep (before : Option Char) (c : Char) (after : Option Char) :
    -1 ≤ depthStep before c after := by
  unfold depthStep
  split_ifs <;> decide

theorem depthsFrom_add (amount : Int) :
    depthsFrom before (depth + amount) s = (depthsFrom before depth s).map (· + amount) := by
  induction s generalizing before depth with
  | nil => rfl
  | cons c s ih => rw [depthsFrom, depthsFrom, List.map_cons, Int.add_right_comm, ih]

/-- Before a square bracket, a question mark and a pointed bracket, the depth must be 2 and not have been 0. -/
theorem endsAtLast_close_iff (hdepth : 0 ≤ depth) :
    endsAtLast (depthsFrom before depth (s ++ "]?>".toList)) = true ↔
      (∀ d ∈ depthsFrom before depth s, 1 ≤ d) ∧ (depthsFrom before depth s).getLast? = some 2 := by
  induction s generalizing before depth with
  | nil =>
    have hclosing : depthsFrom before depth ([] ++ "]?>".toList) = [depth, depth - 1, depth - 1, depth - 2] := by
      simp [depthsFrom, depthStep]
      omega
    rw [hclosing]
    simp [endsAtLast, depthsFrom]
    omega
  | cons c s ih =>
    have hhead : (s ++ "]?>".toList).head? = s.head?.or (some ']') := List.head?_append
    rw [List.cons_append, depthsFrom, depthsFrom, endsAtLast_cons (depthsFrom_ne_nil _ _ _), List.forall_mem_cons,
      List.getLast?_cons_of_ne_nil (depthsFrom_ne_nil _ _ _), hhead, depthStep_or_close, Bool.and_eq_true, bne_iff_ne]
    -- a step goes down by one at most, so the depth cannot become negative without being 0 first
    by_cases hpositive : 1 ≤ depth
    · have hstep := neg_one_le_depthStep before c s.head?
      have hne : depth ≠ 0 := by omega
      rw [ih (by omega)]
      simp [hpositive, hne]
    · have hzero : depth = 0 := by omega
      simp [hzero]

/-! ## Held texts -/

/-- Whether the square bracket before the text holds it: counted from the bracket on, the depth is nowhere negative and
is 1 at the end, and no connective begins where it is 0. -/
def isHeld (text : List Char) : Bool :=
  let depths := depthsFrom (some '[') 1 text
  (depths.all fun depth => decide (0 ≤ depth)) && depths.getLast? == some 1 &&
    (depths.zip text.tails).all fun place => place.1 != 0 || (connectiveAt? place.2).isNone

theorem isHeld_iff :
    isHeld t = true ↔
      ((∀ d ∈ depthsFrom (some '[') 1 t, 0 ≤ d) ∧ (depthsFrom (some '[') 1 t).getLast? = some 1) ∧
        splitAtLast? (some '[') 1 t = none := by
  rw [splitAtLast?_eq_none_iff]
  simp only [isHeld, Bool.and_eq_true, List.all_eq_true, decide_eq_true_eq, beq_iff_eq, Bool.or_eq_true, bne_iff_ne,
    Option.isNone_iff_eq_none, ne_eq, imp_iff_not_or]

theorem isEnclosed_touching_iff :
    isEnclosed ("<touching [".toList ++ t ++ "]?>".toList) = true ↔
      (∀ d ∈ depthsFrom (some '[') 1 t, 0 ≤ d) ∧ (depthsFrom (some '[') 1 t).getLast? = some 1 := by
  have hword : Stays 1 (some '<') 1 "touching [".toList (t ++ "]?>".toList).head? (1 + 1) := by
    simp [Stays, depthStep]
  have hends : endsAtLast (depthsFrom (some '<') 1 ("touching [".toList ++ (t ++ "]?>".toList))) =
      endsAtLast (depthsFrom (some '[') (1 + 1) (t ++ "]?>".toList)) := hword.endsAtLast_depthsFrom
  have hlast : ('<' :: ("touching [".toList ++ (t ++ "]?>".toList))).getLast? = some '>' := by
    simp [List.getLast?_append, List.getLast?_cons]
  have htext : "<touching [".toList ++ t ++ "]?>".toList = '<' :: ("touching [".toList ++ (t ++ "]?>".toList)) := by
    simp
  have hopened : isEnclosed ('<' :: ("touching [".toList ++ (t ++ "]?>".toList))) =
      endsAtLast (depthsFrom (some '<') 1 ("touching [".toList ++ (t ++ "]?>".toList))) := by
    simp only [isEnclosed, closing?, hlast]
    simp [depthStep]
  rw [htext, hopened, hends, endsAtLast_close_iff (by decide), depthsFrom_add, List.forall_mem_map,
    List.getLast?_map]
  refine and_congr (forall₂_congr fun d _ => by omega) ?_
  cases (depthsFrom (some '[') 1 t).getLast? with
  | none => simp
  | some d =>
    simp only [Option.map_some, Option.some.injEq]
    omega

theorem read_eq_read_inner (hstart : Text.StartsBare s) (hend : Text.EndsBare s) (h : isEnclosed s = true) :
    read s = read (inner s) := by
  apply read_eq_of_bare
  rw [bare, Text.trim_eq_self hstart hend, unenclose, if_pos h, bare]

theorem Stays.before_close (h : Stays floor before depth s none final) :
    Stays floor before depth s (some ']') final := by
  induction s generalizing before depth with
  | nil => exact h
  | cons c s ih =>
    obtain ⟨hle, hrest⟩ := h
    refine ⟨hle, ?_⟩
    rw [Option.or_none] at hrest
    rw [depthStep_or_close]
    exact ih hrest

theorem question_eq (t : List Char) :
    entry "touching " t "" ++ ['?'] = "touching [".toList ++ (t ++ ']' :: ['?']) := by
  simp [entry, enclose]

theorem noConnective_question (h : splitAtLast? (some '[') 1 (t ++ ']' :: ['?']) = none) :
    NoConnective 0 (entry "touching " t "" ++ ['?']) := by
  have hbracket : NoConnective 0 ('[' :: (t ++ ']' :: ['?'])) :=
    fun _ => splitAtLast?_cons_of_none h fun _ => connectiveAt?_eq_none (.inl (by decide))
  have hquiet : isQuiet ('[' :: (t ++ ']' :: ['?'])).head? "touching ".toList = true := rfl
  have hword := NoConnective.quiet hquiet hbracket
  rw [question_eq]
  exact hword

theorem splitAtLast?_question_eq_none_iff (h : Stays 0 (some '[') 1 t (some ']') 1) :
    splitAtLast? (some '[') 1 (t ++ ']' :: ['?']) = none ↔ splitAtLast? (some '[') 1 t = none := by
  have hclosing : ∀ before, splitAtLast? before 1 (']' :: ['?']) = none := by
    intro before
    have hquestion : connectiveAt? ['?'] = none := by decide
    simp [splitAtLast?, depthStep, hquestion]
  rw [h.splitAtLast?_close_eq_none_iff, hclosing]
  simp

theorem exists_blank_of_connectiveAt? {right : List Char} {connective : Connective}
    (h : connectiveAt? s = some (connective, right)) :
    ∃ front blank, s = front ++ blank :: right ∧ blank.toLower = ' ' := by
  simp only [connectiveAt?, Option.map_eq_some_iff, Prod.exists, Prod.mk.injEq] at h
  obtain ⟨word, _, hfind, rfl, rfl⟩ := h
  have hlast : ∀ entry ∈ connectives, entry.1.toList.getLast? = some ' ' := by decide
  obtain ⟨letters, hletters⟩ := List.getLast?_eq_some_iff.1 (hlast _ (List.mem_of_find?_eq_some hfind))
  have hstarts := List.find?_some hfind
  have hword : (s.take word.length).map Char.toLower = letters ++ [' '] := by
    rw [← hletters, ← String.length_toList]
    exact beq_iff_eq.1 hstarts
  obtain ⟨front, back, htake, -, hback⟩ := List.map_eq_append_iff.1 hword
  obtain ⟨blank, more, rfl, hblank, hmore⟩ := List.map_eq_cons_iff.1 hback
  obtain rfl := List.map_eq_nil_iff.1 hmore
  refine ⟨front, blank, ?_, hblank⟩
  conv_lhs => rw [← List.take_append_drop word.length s, htake]
  simp

theorem exists_blank_of_splitAtLast? {left right : List Char} {connective : Connective}
    (h : splitAtLast? before depth s = some (left, connective, right)) :
    ∃ front blank, s = front ++ blank :: right ∧ blank.toLower = ' ' := by
  induction s generalizing before depth left connective right with
  | nil => simp [splitAtLast?] at h
  | cons c s ih =>
    rw [splitAtLast?] at h
    split at h
    · rename_i hrest
      simp only [Option.some.injEq, Prod.mk.injEq] at h
      obtain ⟨rfl, rfl, rfl⟩ := h
      obtain ⟨front, blank, rfl, hblank⟩ := ih hrest
      exact ⟨c :: front, blank, rfl, hblank⟩
    · split at h
      · simp only [Option.map_eq_some_iff, Prod.exists, Prod.mk.injEq] at h
        obtain ⟨_, _, hat, rfl, rfl, rfl⟩ := h
        exact exists_blank_of_connectiveAt? hat
      · simp at h

/-- A connective outside all brackets takes the question apart, since there is something on both sides of it. -/
theorem read_question_of_split {left right : List Char} {connective : Connective}
    (h : splitAtLast? (some '[') 1 (t ++ ']' :: ['?']) = some (left, connective, right)) :
    read (entry "touching " t "" ++ ['?']) =
      .join connective (read (Text.trim ("touching [".toList ++ left))) (read (Text.trim right)) := by
  have hstays : Stays 0 none 0 "touching [".toList (t ++ ']' :: ['?']).head? 1 := by simp [Stays, depthStep]
  have hleft : Text.trim ("touching [".toList ++ left) ≠ [] :=
    Text.trim_ne_nil (List.mem_append_left _ List.mem_cons_self) (by decide)
  have hright : Text.trim right ≠ [] := by
    -- the question mark is after the blank that ends the connective
    obtain ⟨front, blank, hfront, hblank⟩ := exists_blank_of_splitAtLast? h
    have hlast : (t ++ ']' :: ['?']).getLast? = some '?' := by simp [List.getLast?_append]
    rw [hfront, List.getLast?_append_of_ne_nil _ (by simp), List.getLast?_cons] at hlast
    cases hend : right.getLast? with
    | none =>
      obtain rfl : blank = '?' := by simpa [hend] using hlast
      exact absurd hblank (by decide)
    | some c =>
      obtain rfl : c = '?' := by simpa [hend] using hlast
      exact Text.trim_ne_nil (List.mem_of_getLast? hend) (by decide)
  have hbare : bare (entry "touching " t "" ++ ['?']) = entry "touching " t "" ++ ['?'] := by
    refine bare_eq_self (entryWords_touching.startsBare t) (Text.endsBare_concat _ (by decide)) ?_
    simp [entry, isEnclosed, closing?]
  refine read_of_split (by simp [hbare]) ?_
  rw [hbare, question_eq, splitConnective?, hstays.splitAtLast?_eq_some h]
  simp only [List.isEmpty_eq_false_iff.2 hleft, List.isEmpty_eq_false_iff.2 hright, Bool.or_self, Bool.false_eq_true,
    if_false]

theorem read_ne_touching (hhead : s.head? = some '<') (hlast : s.getLast? = some '>') (h : isEnclosed s = false)
    (target : String) : read s ≠ .touching target := by
  obtain ⟨rest, rfl⟩ := List.head?_eq_some_iff.1 hhead
  have hstart : Text.StartsBare ('<' :: rest) := Text.startsBare_cons (by decide) rest
  have hend : Text.EndsBare ('<' :: rest) := by
    intro c hc
    rw [hlast, Option.some.injEq] at hc
    rw [← hc]
    decide
  have hbare := bare_eq_self hstart hend h
  cases hsplit : splitConnective? ('<' :: rest) with
  | some found =>
    obtain ⟨left, connective, right⟩ := found
    rw [read_of_split (by simp [hbare]) (by rw [hbare, hsplit])]
    simp
  | none =>
    have hasked : dropQuestionMarks ('<' :: rest ++ []) = '<' :: rest :=
      dropQuestionMarks_append (by simp) hstart hend (by simp) (by simp [hlast]) (by simp)
    have hbegins : (Opening.spelled ['<'] .hole).begins ('<' :: rest) = true := Form.begins_append ['<'] rest
    have hwording : readWording? ('<' :: rest) = none := readWording?_eq_drop hbegins 4 (by decide +kernel)
    rw [List.append_nil] at hasked
    have hleaf : read ('<' :: rest) = (readComparison? ('<' :: rest)).getD .missing := by
      rw [read_of_leaf (by simp [hbare]) (by rw [hbare, hsplit]) (by rw [hbare, negated?_eq_none (by decide)]), hbare,
        readLeaf, hasked, hwording, Option.or_none]
    rw [hleaf, readComparison?_eq_none (by decide) (by decide) (by decide)]
    simp

/-- The entry of a question is taken as it is exactly if the square bracket holds it. -/
theorem read_touching_iff (hne : t ≠ []) (hclosed : ']' ∉ t) :
    read ("<touching [".toList ++ t ++ "]?>".toList) =
        .touching (Vocabulary.touchTarget (Source.dropMenuMark t)) ↔ isHeld t = true := by
  have htext : "<touching [".toList ++ t ++ "]?>".toList = enclose '<' '>' (entry "touching " t "" ++ ['?']) := by
    simp [enclose, entry]
  have hlast : (enclose '<' '>' (entry "touching " t "" ++ ['?'])).getLast? = some '>' :=
    getLast?_append_enclose [] _ _ _
  rw [isHeld_iff, ← isEnclosed_touching_iff, htext]
  cases henclosed : isEnclosed (enclose '<' '>' (entry "touching " t "" ++ ['?'])) with
  | false => simpa using read_ne_touching rfl hlast henclosed _
  | true =>
    -- the entry may leave the square bracket for a while, so it is not balanced and only its depth at the ends is known
    obtain ⟨hfloor, hfinal⟩ := isEnclosed_touching_iff.1 (htext ▸ henclosed)
    have hstays : Stays 0 (some '[') 1 t (some ']') 1 := (stays_of_depthsFrom hfloor hfinal).before_close
    have hstart : Text.StartsBare (enclose '<' '>' (entry "touching " t "" ++ ['?'])) :=
      Text.startsBare_cons (by decide) _
    have hend : Text.EndsBare (enclose '<' '>' (entry "touching " t "" ++ ['?'])) := endsBare_enclose [] (by decide)
    rw [read_eq_read_inner hstart hend henclosed, inner_enclose]
    cases hsplit : splitAtLast? (some '[') 1 (t ++ ']' :: ['?']) with
    | some found =>
      obtain ⟨left, connective, right⟩ := found
      rw [read_question_of_split hsplit, ← splitAtLast?_question_eq_none_iff hstays, hsplit]
      simp
    | none =>
      -- nothing splits the question, and it begins with a word: it is a leaf
      rw [read_entry_of_noConnective entryWords_touching (noConnective_question hsplit),
        readWording?_touchingEntry hne hclosed, ← splitAtLast?_question_eq_none_iff hstays, hsplit]
      simp

/-- Where the text is out of the bracket, there is no connective. -/
theorem read_touching_iff_dipping :
    "one) nor (two".toList ≠ [] ∧ ']' ∉ "one) nor (two".toList ∧
      read "<touching [one) nor (two]?>".toList = .touching "one) nor (two" := by
  have hne : "one) nor (two".toList ≠ [] := by decide
  have hclosed : ']' ∉ "one) nor (two".toList := by decide
  exact ⟨hne, hclosed, (read_touching_iff hne hclosed).2 (by decide)⟩

/-- A bracket in an entry can hide the question, or take it apart. -/
theorem entry_taken_apart :
    read "<touching [Ghost :)]?>".toList = .missing ∧
      read "<touching [) and (]?>".toList = .join .and .missing .missing := by
  decide +kernel

end Condition

/-! ## Marks after marks -/

namespace Text

theorem length_lowercaseAfter_le (before s rest : List Char) :
    (lowercaseAfter before s).length ≤ (lowercaseAfter before (s ++ rest)).length := by
  induction s generalizing before with
  | nil => exact Nat.zero_le _
  | cons c s ih =>
    have hrest := ih (c :: before)
    rw [List.cons_append, lowercaseAfter, lowercaseAfter, List.length_append, List.length_append]
    split
    · simpa using hrest
    · omega

theorem trim_trimEnd {s : List Char} (h : StartsBare s) : trim (trimEnd s) = trimEnd s := by
  rw [trim, trimStart_eq_self h.trimEnd, trimEnd_trimEnd]

theorem StartsBare.take {s : List Char} (h : StartsBare s) (n : Nat) : StartsBare (s.take n) := by
  intro c rest heq
  obtain ⟨tail, htail⟩ := List.take_prefix n s
  rw [heq, List.cons_append] at htail
  exact h c _ htail.symm

end Text

namespace Source

theorem trim_dropMenuMark (text : List Char) : Text.trim (dropMenuMark text) = dropMenuMark text := by
  rw [dropMenuMark_eq_ite]
  split
  · exact Text.trim_trimEnd ((Text.startsBare_trim text).take _)
  · exact Text.trim_trim text

def markLetters : List Char := ['v', 'V', '▾', '▼']

theorem lowercase_markLetter {letter : Char} (h : letter ∈ markLetters) :
    ∃ lower ∈ markLetters, Text.lowercase [letter] = [lower] := by
  simp only [markLetters, List.mem_cons, List.not_mem_nil, or_false] at h
  rcases h with rfl | rfl | rfl | rfl
  · exact ⟨'v', by decide, by decide⟩
  · exact ⟨'v', by decide, by decide⟩
  · exact ⟨'▾', by decide, by decide⟩
  · exact ⟨'▼', by decide, by decide⟩

theorem exists_mark_of_dropMenuMark_ne {entry : List Char} (htrim : Text.trim entry = entry)
    (h : dropMenuMark entry ≠ entry) :
    ∃ front, ∃ letter ∈ markLetters, entry = front ++ [' ', letter] ∧ dropMenuMark entry = Text.trimEnd front := by
  rw [dropMenuMark_eq_ite, htrim] at h ⊢
  split at h
  · rename_i hmark
    rw [if_pos hmark]
    obtain ⟨letter, hletter, hend⟩ := isMenuMark_iff.1 (Bool.and_eq_true_iff.1 hmark).1
    refine ⟨_, letter, by simpa [markLetters, or_assoc] using hletter, ?_, rfl⟩
    rw [← hend, List.take_append_drop]
  · exact absurd rfl h

end Source

namespace Vocabulary

theorem keys_unmarked : ∀ entry ∈ keys, ∀ name ∈ entry.2 :: entry.1, ∀ letter ∈ Source.markLetters,
    name.toList.getLast? ≠ some letter := by
  simp only [Source.markLetters, List.forall_mem_cons, List.not_mem_nil, false_implies, implies_true, and_true]
  decide

theorem mem_of_stored? {menu : Menu} {spelling name : String} (h : menu.stored? spelling = some name) :
    ∃ entry ∈ menu, entry.2 = name ∧ spelling ∈ entry.1 := by
  obtain ⟨entry, hfind, hname⟩ := Option.map_eq_some_iff.1 h
  exact ⟨entry, List.mem_of_find?_eq_some hfind, hname, by simpa using List.find?_some hfind⟩

/-- Once a mark is taken off, taking another one off makes no difference to a key exactly if there is none. -/
theorem keyName_dropMenuMark_iff (text : List Char) :
    keyName text = keyName (Source.dropMenuMark text) ↔
      Source.dropMenuMark (Source.dropMenuMark text) = Source.dropMenuMark text := by
  refine ⟨?_, fun h => by rw [keyName, keyName, h]⟩
  contrapose
  intro h heq
  obtain ⟨front, letter, hletter, hentry, hdrop⟩ :=
    Source.exists_mark_of_dropMenuMark_ne (Source.trim_dropMenuMark text) h
  obtain ⟨lower, hlower, hsmall⟩ := Source.lowercase_markLetter hletter
  have hkey : Text.lowercase (front ++ [' ', letter]) = Text.lowercase front ++ [' ', lower] := by
    rw [Text.lowercase_append (by decide), hsmall]
  have hunnamed : ∀ {name : String}, keys.stored? (lowered (front ++ [' ', letter])) ≠ some name := by
    intro name hstored
    obtain ⟨entry, hmem, -, hspelled⟩ := mem_of_stored? hstored
    have hlast := keys_unmarked entry hmem _ (List.mem_cons_of_mem _ hspelled) lower hlower
    simp [lowered, hkey] at hlast
  have hname : keyName text = lowered (front ++ [' ', letter]) := by
    rw [keyName, hentry, Option.eq_none_iff_forall_ne_some.2 fun name => hunnamed]
    rfl
  rw [hname, keyName, hdrop] at heq
  cases hstored : keys.stored? (lowered (Text.trimEnd front)) with
  | some name =>
    rw [hstored, Option.getD_some] at heq
    obtain ⟨entry, hmem, hentry, -⟩ := mem_of_stored? hstored
    have hlast := keys_unmarked entry hmem name (hentry ▸ List.mem_cons_self) lower hlower
    simp [← heq, lowered, hkey] at hlast
  | none =>
    -- what is left is shorter, by the mark at least
    rw [hstored, Option.getD_none, lowered, lowered, String.ofList_inj, hkey] at heq
    obtain ⟨blanks, hblanks⟩ : Text.trimEnd front <+: front := List.rdropWhile_prefix Text.isBlank front
    have hshorter := Text.length_lowercaseAfter_le [] (Text.trimEnd front) blanks
    rw [hblanks] at hshorter
    have hlength := congrArg List.length heq
    simp only [List.length_append, List.length_cons, Text.lowercase] at hlength
    omega

end Vocabulary

/-! ## Two ways to name a key -/

theorem Vocabulary.exists_key_rule : ∃ rule ∈ rules,
    rule.Serves (.spelled "when [".toList .hole) (Form.text "when " ++ (Form.square ++ Form.text " key pressed")) ∧
      rule.opcode = .whenKeyPressed ∧ rule.literals = [] ∧ rule.fields = [⟨"KEY_OPTION", .plain, 0, .key⟩] ∧
      ∀ earlier ∈ rules, (earlier.name, rule.name) ∉ overlaps := by
  decide +kernel

section

variable {key : List Char} (hne : key ≠ [])
include hne

open Vocabulary in
theorem Statement.ofLine?_keyHat (hclosed : ']' ∉ key) :
    ofLine? ("when [".toList ++ key ++ "] key pressed".toList) =
      some { opcode := .whenKeyPressed, fields := [("KEY_OPTION", .plain (keyName key))] } := by
  obtain ⟨rule, hrule, hserves, hopcode, hliterals, hfields, hfirst⟩ := exists_key_rule
  have hline : "when [".toList ++ key ++ "] key pressed".toList =
      "when ".toList ++ '[' :: (key ++ ']' :: " key pressed".toList) := by simp
  have htrim : Text.trim ("when ".toList ++ '[' :: (key ++ ']' :: " key pressed".toList)) =
      "when ".toList ++ '[' :: (key ++ ']' :: " key pressed".toList) := by
    rw [← hline]
    exact Text.trim_eq_self (Text.startsBare_cons (by decide) _) (Text.EndsBare.append (by decide) (by decide) _)
  have hbegins : (Opening.spelled "when [".toList .hole).begins
      ("when ".toList ++ '[' :: (key ++ ']' :: " key pressed".toList)) = true :=
    Form.begins_append "when [".toList (key ++ ']' :: " key pressed".toList)
  have hform : Form.read? (Form.text "when " ++ (Form.square ++ Form.text " key pressed"))
      ("when ".toList ++ '[' :: (key ++ ']' :: " key pressed".toList)) = some [key] := by
    have hending : Form.read? [] [] = some [] := rfl
    have hpressed := Form.read?_word " key pressed" [] hending
    rw [List.append_nil] at hpressed
    exact Form.read?_word "when " [] (Form.read?_square hne hclosed hpressed)
  have hread := hserves.read?_eq hbegins
    (Text.lowercase ("when ".toList ++ '[' :: (key ++ ']' :: " key pressed".toList)))
  rw [hform, Option.map_some, hserves.statement_eq, hopcode, hliterals, hfields] at hread
  have hbracket : '[' ∈ operandBrackets := by decide
  rw [hline, ofLine?_of_bracket htrim hbracket (by simp),
    findSome?_rules hrule hread fun earlier hmem hoverlap => absurd hoverlap (hfirst earlier hmem)]
  simp [Rule.holeText, Entry.value, FieldStyle.field, keyName, Source.dropMenuMark_trim]

theorem Condition.read_keyPressed (hbracket : ∀ c ∈ key, c ∉ brackets) :
    read ("<key [".toList ++ key ++ "] pressed?>".toList) =
      .keyPressed (Vocabulary.keyName (Source.dropMenuMark key)) := by
  have hclosed : ']' ∉ key := fun hmem => hbracket ']' hmem (by decide)
  have hbalanced : Balanced key := balanced_of_no_bracket hbracket
  have htext : "<key [".toList ++ key ++ "] pressed?>".toList =
      enclose '<' '>' (entry "key " key " pressed" ++ ['?']) := by
    simp [enclose, entry]
  have henclosable : Enclosable '<' '>' (entry "key " key " pressed" ++ ['?']) :=
    enclosable_pointed (balanced_entry entryWords_key hbalanced) (entryWords_key.startsBare key)
      (Text.endsBare_concat _ (by decide))
  rw [htext, read_enclose henclosable rfl,
    read_entry_of_noConnective entryWords_key (noConnective_entry entryWords_key hbalanced),
    readWording?_keyEntry hne hclosed]
  rfl

end

open Vocabulary in
/-- A hat and a question about one key name the same key exactly if there is no mark left after the first. -/
theorem key_paths_agree_iff {key : List Char} (hne : key ≠ []) (hbracket : ∀ c ∈ key, c ∉ Condition.brackets) :
    Statement.ofLine? ("when [".toList ++ key ++ "] key pressed".toList) =
        some { opcode := .whenKeyPressed, fields := [("KEY_OPTION", .plain (keyName key))] } ∧
      Condition.read ("<key [".toList ++ key ++ "] pressed?>".toList) =
        .keyPressed (keyName (Source.dropMenuMark key)) ∧
      (keyName key = keyName (Source.dropMenuMark key) ↔
        Source.dropMenuMark (Source.dropMenuMark key) = Source.dropMenuMark key) :=
  ⟨Statement.ofLine?_keyHat hne fun hmem => hbracket ']' hmem (by decide), Condition.read_keyPressed hne hbracket,
    keyName_dropMenuMark_iff key⟩

theorem key_paths_agree_iff_arrow :
    (∀ c ∈ "Flecha Arriba ▾".toList, c ∉ Condition.brackets) ∧
      Statement.ofLine? "when [Flecha Arriba ▾] key pressed".toList =
        some { opcode := .whenKeyPressed, fields := [("KEY_OPTION", .plain "up arrow")] } ∧
      Condition.read "<key [Flecha Arriba ▾] pressed?>".toList = .keyPressed "up arrow" := by
  have hbracket : ∀ c ∈ "Flecha Arriba ▾".toList, c ∉ Condition.brackets := Condition.isFlat_iff.1 (by decide)
  have hname : Vocabulary.keyName "Flecha Arriba ▾".toList = "up arrow" := by decide +kernel
  have hline : "when [".toList ++ "Flecha Arriba ▾".toList ++ "] key pressed".toList =
      "when [Flecha Arriba ▾] key pressed".toList := by decide +kernel
  have htext : "<key [".toList ++ "Flecha Arriba ▾".toList ++ "] pressed?>".toList =
      "<key [Flecha Arriba ▾] pressed?>".toList := by decide +kernel
  obtain ⟨hhat, hquestion, hagree⟩ := key_paths_agree_iff (by decide) hbracket
  rw [hline, hname] at hhat
  rw [htext, ← hagree.2 (by decide +kernel), hname] at hquestion
  exact ⟨hbracket, hhat, hquestion⟩

/-- A second mark stays on the key of a hat and comes off the key of a question. -/
theorem key_paths_differ :
    Statement.ofLine? "when [a v v] key pressed".toList =
        some { opcode := .whenKeyPressed, fields := [("KEY_OPTION", .plain "a v")] } ∧
      Condition.read "<key [a v v] pressed?>".toList = .keyPressed "a" := by
  decide +kernel

end ScratchScript
