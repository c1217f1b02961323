import ScratchScript.Proofs.Brackets

/-!
# How connectives group

A chain of operands with words such as `and` between them is read from the right: the last word outside all brackets
joins the last operand to everything before it. So the condition is the one that groups to the left
(`read_chain_eq_foldl`), whatever stands in the operands.

* A text that is balanced on its own is balanced wherever it stands (`balanced_of_isLevel`), because the only characters
  whose effect depends on their neighbours are pointed brackets, and at the ends of such a text these would leave the
  depth wrong.
* A `Joint` is a word between two operands. It is found right before the last operand, since no connective begins in the
  word itself or in the operand (`splitAtLast?_spaced`).
* A `Phrase` is what can stand before a joint. Its first bracket closes before the end of a longer text, so that nothing
  is taken off a chain before it is split (`Phrase.read_append`).

A single operand, in brackets or in many pairs of them, is read like the text inside (`read_encloseAll`).
-/

namespace ScratchScript

/-- The word between two conditions, with the blanks around it. -/
def Connective.word : Connective → String
  | and => " and "
  | or => " or "

namespace Condition

variable {floor depth final : Int} {before after : Option Char} {s t rest : List Char}

/-! ## Texts that are balanced on their own -/

/-- Whether the depth is nowhere negative in the text alone, and 0 at its end. -/
def isLevel (text : List Char) : Bool :=
  ((depths text).all fun depth => decide (0 ≤ depth)) && (depths text).getLast? == some 0

theorem stays_of_depthsFrom (hfloor : ∀ d ∈ depthsFrom before depth s, floor ≤ d)
    (hfinal : (depthsFrom before depth s).getLast? = some final) : Stays floor before depth s none final := by
  induction s generalizing before depth with
  | nil => exact ⟨hfloor depth (by simp [depthsFrom]), by simpa [depthsFrom] using hfinal⟩
  | cons c s ih =>
    rw [depthsFrom] at hfloor hfinal
    rw [List.getLast?_cons_of_ne_nil (depthsFrom_ne_nil _ _ _)] at hfinal
    refine ⟨hfloor depth List.mem_cons_self, ?_⟩
    rw [Option.or_none]
    exact ih (fun d hd => hfloor d (List.mem_cons_of_mem _ hd)) hfinal

theorem Stays.shift (h : Stays floor before depth s after final) (amount : Int) :
    Stays (floor + amount) before (depth + amount) s after (final + amount) := by
  induction s generalizing before depth with
  | nil =>
    obtain ⟨hle, rfl⟩ := h
    exact ⟨by omega, rfl⟩
  | cons c s ih =>
    obtain ⟨hle, hrest⟩ := h
    refine ⟨by omega, ?_⟩
    rw [Int.add_right_comm]
    exact ih hrest

theorem Stays.floor_le (h : Stays floor before depth s after final) : floor ≤ depth := by
  cases s with
  | nil => exact h.1
  | cons c s => exact h.1

/-- What stands before a text matters for `>` only, and with `>` at its start the text would sink below its floor. -/
theorem Stays.of_before_none (h : Stays floor none floor s after final) (before : Option Char) :
    Stays floor before floor s after final := by
  cases s with
  | nil => exact h
  | cons c s =>
    refine ⟨Int.le_refl _, ?_⟩
    have hne : c ≠ '>' := by
      rintro rfl
      have hsinks := h.2.floor_le
      rw [depthStep_greater (by simp)] at hsinks
      omega
    have hstep : ∀ next, depthStep before c next = depthStep none c next := by
      intro next
      simp [depthStep, hne]
    rw [hstep]
    exact h.2

/-- What stands after a text matters for `<` only, and with `<` at its end the text would come from below its floor. -/
theorem Stays.of_after_none (h : Stays floor before depth s none floor) (after : Option Char) :
    Stays floor before depth s after floor := by
  induction s generalizing before depth with
  | nil => exact h
  | cons c s ih =>
    obtain ⟨hle, hrest⟩ := h
    refine ⟨hle, ?_⟩
    cases s with
    | cons d s => exact ih hrest
    | nil =>
      have hfinal : depth + depthStep before c none = floor := hrest.2
      have hne : c ≠ '<' := by
        rintro rfl
        rw [depthStep_less (by simp)] at hfinal
        omega
      have hstep : depthStep before c after = depthStep before c none := by
        simp [depthStep, hne]
      rw [List.head?_nil, Option.none_or, hstep]
      exact hrest

/-- A text that is balanced on its own is so wherever it stands. -/
theorem balanced_of_isLevel (h : isLevel s = true) : Balanced s := by
  simp only [isLevel, Bool.and_eq_true, List.all_eq_true, decide_eq_true_eq, beq_iff_eq] at h
  have halone : Stays 0 none 0 s none 0 := stays_of_depthsFrom h.1 h.2
  constructor
  intro before depth after
  have hthere := ((halone.of_before_none before).of_after_none after).shift depth
  rwa [Int.zero_add] at hthere

/-! ## Joints -/

def joiningWords : List (String × Connective) :=
  [("and", .and), ("or", .or), ("y", .and), ("o", .or)]

/-- A word between two conditions, in whatever case, and the connective it stands for. -/
structure Joint where
  word : List Char
  connective : Connective
  spelled : (String.ofList (word.map Char.toLower), connective) ∈ joiningWords

def Joint.ofConnective : Connective → Joint
  | .and => ⟨"and".toList, .and, by decide⟩
  | .or => ⟨"or".toList, .or, by decide⟩

namespace Joint

def spaced (joint : Joint) : List Char :=
  ' ' :: (joint.word ++ [' '])

theorem exists_lower (joint : Joint) :
    ∃ word, (word, joint.connective) ∈ joiningWords ∧ joint.word.map Char.toLower = word.toList :=
  ⟨_, joint.spelled, String.toList_ofList.symm⟩

theorem not_mem_brackets {c : Char} (h : c.toLower ∉ brackets) : c ∉ brackets := by
  intro hmem
  simp only [brackets, List.mem_cons, List.not_mem_nil, or_false] at hmem
  rcases hmem with rfl | rfl | rfl | rfl | rfl | rfl <;> exact h (by decide)

theorem of_mem_word {joint : Joint} {c : Char} (h : c ∈ joint.word) : c.toLower ≠ ' ' ∧ c ∉ brackets := by
  have hletters : (joiningWords.all fun entry => entry.1.toList.all fun c => c ≠ ' ' ∧ c ∉ brackets) = true := by decide
  obtain ⟨word, hmem, hlower⟩ := joint.exists_lower
  have hc : c.toLower ∈ word.toList := hlower ▸ List.mem_map_of_mem h
  obtain ⟨hblank, hbracket⟩ := of_decide_eq_true (List.all_eq_true.1 (List.all_eq_true.1 hletters _ hmem) _ hc)
  exact ⟨hblank, not_mem_brackets hbracket⟩

theorem balanced_spaced (joint : Joint) : Balanced joint.spaced := by
  apply balanced_of_no_bracket
  intro c hmem
  simp only [spaced, List.mem_cons, List.mem_append, List.not_mem_nil, or_false] at hmem
  rcases hmem with rfl | hword | rfl
  · decide
  · exact (of_mem_word hword).2
  · decide

theorem isQuiet_word (joint : Joint) (h : rest.head? = some '<' ∨ rest.head? = some '(') :
    isQuiet rest.head? (joint.word ++ [' ']) = true := by
  have hletters : ∀ c ∈ joint.word, c.toLower ≠ ' ' ∧ c ∉ brackets := fun c => of_mem_word
  revert hletters
  generalize joint.word = word
  intro hletters
  induction word with
  | nil => rcases h with hhead | hhead <;> rw [hhead] <;> decide
  | cons c word ih =>
    obtain ⟨hblank, hbracket⟩ := hletters c List.mem_cons_self
    have hword := ih fun d hd => hletters d (List.mem_cons_of_mem _ hd)
    simp [isQuiet, hblank, hbracket, hword]

theorem connectiveAt?_eq (text : List Char) :
    connectiveAt? text = (connectives.find? fun (word, _) =>
      (text.map Char.toLower).take word.toList.length == word.toList).map fun (word, connective) =>
        (connective, text.drop word.length) := by
  simp only [connectiveAt?, Text.startsWithWord, List.map_take]

theorem connectiveAt?_spaced (joint : Joint) (rest : List Char) :
    connectiveAt? (joint.spaced ++ rest) = some (joint.connective, rest) := by
  obtain ⟨word, hmem, hlower⟩ := joint.exists_lower
  have hlength : joint.word.length = word.length := by
    rw [← String.length_toList, ← hlower, List.length_map]
  have htext : (joint.spaced ++ rest).map Char.toLower =
      ' ' :: (word.toList ++ ' ' :: rest.map Char.toLower) := by
    simp [spaced, ← hlower]
  have hdrop : (joint.spaced ++ rest).drop (word.length + 2) = rest := by
    simp [spaced, ← hlength]
  rw [connectiveAt?_eq, htext]
  simp only [joiningWords, List.mem_cons, Prod.mk.injEq, List.not_mem_nil, or_false] at hmem
  rcases hmem with ⟨rfl, hconnective⟩ | ⟨rfl, hconnective⟩ | ⟨rfl, hconnective⟩ | ⟨rfl, hconnective⟩ <;>
    exact hconnective ▸ congrArg (fun right => some (_, right)) hdrop

end Joint

/-! ## Phrases -/

/-- The text begins with an operand and ends with one, with joints or nothing in between. -/
structure Phrase (text : List Char) : Prop where
  balanced : Balanced text
  ne_nil : text ≠ []
  startsBare : Text.StartsBare text
  endsBare : Text.EndsBare text
  isEnclosed_append : ∀ rest, rest ≠ [] → isEnclosed (text ++ rest) = false

theorem Operand.phrase (h : Operand s) : Phrase s :=
  ⟨h.balanced, h.ne_nil, h.startsBare, h.endsBare, fun _ => h.isEnclosed_append⟩

/-- The connective right before an operand is the last one. -/
theorem splitAtLast?_spaced {right : List Char} (h : Operand right) (before : Option Char) (joint : Joint) :
    splitAtLast? before 0 (joint.spaced ++ right) = some ([], joint.connective, right) := by
  have htail : NoConnective 0 (joint.word ++ [' '] ++ right) :=
    NoConnective.quiet (joint.isQuiet_word h.head?_eq) h.noConnective
  have hhere := joint.connectiveAt?_spaced right
  rw [Joint.spaced, List.cons_append] at hhere ⊢
  rw [splitAtLast?, depthStep_eq_zero (by decide), Int.add_zero, htail (some ' ')]
  simpa using hhere

namespace Phrase

variable {left right : List Char}

theorem append (hleft : Phrase left) (joint : Joint) (hright : Operand right) :
    Phrase (left ++ (joint.spaced ++ right)) := by
  have hrest : joint.spaced ++ right ≠ [] := by simp [hright.ne_nil]
  refine ⟨hleft.balanced.append (joint.balanced_spaced.append hright.balanced), by simp [hleft.ne_nil],
    hleft.startsBare.append hleft.ne_nil _, ?_, fun rest _ => ?_⟩
  · exact (hright.endsBare.append hright.ne_nil _).append hrest _
  · rw [List.append_assoc]
    exact hleft.isEnclosed_append _ (by simp [hright.ne_nil])

/-- The last operand of a phrase is joined to all before it. -/
theorem read_append (hleft : Phrase left) (joint : Joint) (hright : Operand right) :
    read (left ++ (joint.spaced ++ right)) = .join joint.connective (read left) (read right) := by
  have hphrase := hleft.append joint hright
  have hbare : bare (left ++ (joint.spaced ++ right)) = left ++ (joint.spaced ++ right) :=
    bare_eq_self hphrase.startsBare hphrase.endsBare (hleft.isEnclosed_append _ (by simp [hright.ne_nil]))
  have hsplit : splitAtLast? none 0 (left ++ (joint.spaced ++ right)) = some (left, joint.connective, right) := by
    have hword := splitAtLast?_spaced hright (left.getLast?.or none) joint
    simpa using (hleft.balanced.stays none 0 _).splitAtLast?_eq_some hword
  have htrim : Text.trim left = left := Text.trim_eq_self hleft.startsBare hleft.endsBare
  refine read_of_split ?_ ?_
  · rw [hbare]
    exact hphrase.ne_nil
  · rw [hbare, splitConnective?, hsplit]
    simp [htrim, hright.trim_eq, hleft.ne_nil, hright.ne_nil]

end Phrase

theorem read_join {left right : List Char} (hleft : Operand left) (hright : Operand right) (connective : Connective) :
    read (left ++ (connective.word.toList ++ right)) = .join connective (read left) (read right) := by
  cases connective with
  | and => exact hleft.phrase.read_append (.ofConnective .and) hright
  | or => exact hleft.phrase.read_append (.ofConnective .or) hright

/-! ## Chains -/

/-- An operand in brackets: a text that is balanced on its own, in round brackets or in pointed ones that hug it. -/
inductive Bracketed : List Char → Prop
  | pointed {t : List Char} (hlevel : isLevel t = true) (hstart : Text.StartsBare t) (hend : Text.EndsBare t) :
    Bracketed (enclose '<' '>' t)
  | round {t : List Char} (hlevel : isLevel t = true) : Bracketed (enclose '(' ')' t)

theorem inner_enclose (opening closing : Char) (t : List Char) : inner (enclose opening closing t) = t := by
  simp [inner, enclose]

instance (s : List Char) : Decidable (Bracketed s) :=
  decidable_of_iff
    (isLevel (inner s) = true ∧ (s = enclose '(' ')' (inner s) ∨
      s = enclose '<' '>' (inner s) ∧ Text.StartsBare (inner s) ∧ Text.EndsBare (inner s))) <| by
    constructor
    · rintro ⟨hlevel, hround | ⟨hpointed, hstart, hend⟩⟩
      · exact hround ▸ .round hlevel
      · exact hpointed ▸ .pointed hlevel hstart hend
    · rintro (⟨hlevel, hstart, hend⟩ | hlevel)
      · exact ⟨by rwa [inner_enclose], .inr ⟨by rw [inner_enclose], by rwa [inner_enclose], by rwa [inner_enclose]⟩⟩
      · exact ⟨by rwa [inner_enclose], .inl (by rw [inner_enclose])⟩

theorem Bracketed.operand (h : Bracketed s) : Operand s := by
  cases h with
  | pointed hlevel hstart hend =>
    exact ⟨'<', '>', _, rfl, enclosable_pointed (balanced_of_isLevel hlevel) hstart hend, rfl⟩
  | round hlevel => exact ⟨'(', ')', _, rfl, enclosable_round (balanced_of_isLevel hlevel), rfl⟩

/-- Operands with a word between any two of them, and single blanks around the words. -/
def chain (first : List Char) (rest : List (Joint × List Char)) : List Char :=
  first ++ rest.flatMap fun (joint, operand) => joint.spaced ++ operand

theorem chain_concat (first : List Char) (rest : List (Joint × List Char)) (joint : Joint) (operand : List Char) :
    chain first (rest ++ [(joint, operand)]) = chain first rest ++ (joint.spaced ++ operand) := by
  simp [chain]

theorem phrase_chain {first : List Char} {rest : List (Joint × List Char)} (hfirst : Operand first)
    (hrest : ∀ link ∈ rest, Operand link.2) : Phrase (chain first rest) := by
  induction rest using List.reverseRecOn with
  | nil => simpa [chain] using hfirst.phrase
  | append_singleton rest link ih =>
    obtain ⟨joint, operand⟩ := link
    rw [chain_concat]
    exact (ih fun link hmem => hrest link (by simp [hmem])).append joint (hrest (joint, operand) (by simp))

/-- Connectives group to the left: each one joins the operand after it to all that stands before. -/
theorem read_chain_eq_foldl {first : List Char} {rest : List (Joint × List Char)} (hfirst : Bracketed first)
    (hrest : ∀ link ∈ rest, Bracketed link.2) :
    read (chain first rest) =
      rest.foldl (fun left (joint, operand) => .join joint.connective left (read operand)) (read first) := by
  -- the word that is found is the last one, so the chain is taken apart from its end
  induction rest using List.reverseRecOn with
  | nil => simp [chain]
  | append_singleton rest link ih =>
    obtain ⟨joint, operand⟩ := link
    have hbefore : ∀ link ∈ rest, Bracketed link.2 := fun link hmem => hrest link (by simp [hmem])
    have hphrase : Phrase (chain first rest) := phrase_chain hfirst.operand fun link hmem => (hbefore link hmem).operand
    have hlast : Operand operand := (hrest (joint, operand) (by simp)).operand
    rw [chain_concat, hphrase.read_append joint hlast, ih hbefore, List.foldl_concat]

/-- Words and brackets inside an operand, a missing one among them, do not disturb the grouping. -/
theorem read_chain_eq_foldl_mixed :
    let first := "<dance party?>".toList
    let rest : List (Joint × List Char) :=
      [(⟨"AND".toList, .and, by decide⟩, "(<mouse down?> or <>)".toList),
       (⟨"o".toList, .or, by decide⟩, "<(a) < (b and c)>".toList)]
    (Bracketed first ∧ ∀ link ∈ rest, Bracketed link.2) ∧
      chain first rest = "<dance party?> AND (<mouse down?> or <>) o <(a) < (b and c)>".toList ∧
      read "<dance party?> AND (<mouse down?> or <>) o <(a) < (b and c)>".toList =
        .join .or (.join .and .missing (.join .or .mouseDown .missing)) (.compare .less "a" "b and c") := by
  intro first rest
  have hfirst : Bracketed first := by decide
  have hrest : ∀ link ∈ rest, Bracketed link.2 := by decide
  have hchain : chain first rest = "<dance party?> AND (<mouse down?> or <>) o <(a) < (b and c)>".toList := by decide
  have hread := read_chain_eq_foldl hfirst hrest
  have hparty : read first = .missing := by decide +kernel
  have hround : read "(<mouse down?> or <>)".toList = .join .or .mouseDown .missing := by decide +kernel
  have hcompare : read "<(a) < (b and c)>".toList = .compare .less "a" "b and c" := by decide +kernel
  refine ⟨⟨hfirst, hrest⟩, hchain, ?_⟩
  rw [hchain, hparty] at hread
  simp only [rest, List.foldl_cons, List.foldl_nil, hround, hcompare] at hread
  exact hread

/-! ## Pairs of brackets around a text -/

inductive Pair
  | round
  | pointed
  deriving DecidableEq, Repr

namespace Pair

def opening : Pair → Char
  | round => '('
  | pointed => '<'

def closing : Pair → Char
  | round => ')'
  | pointed => '>'

theorem closing?_opening (pair : Pair) : closing? pair.opening = some pair.closing := by
  cases pair <;> rfl

theorem enclosable (pair : Pair) (h : Balanced s) (hbare : pair = .pointed → Text.StartsBare s ∧ Text.EndsBare s) :
    Enclosable pair.opening pair.closing s := by
  cases pair with
  | round => exact enclosable_round h
  | pointed => exact enclosable_pointed h (hbare rfl).1 (hbare rfl).2

end Pair

/-- The text in pairs of brackets, the innermost pair last. -/
def encloseAll (pairs : List Pair) (text : List Char) : List Char :=
  pairs.foldr (fun pair inside => enclose pair.opening pair.closing inside) text

/-- Whatever pair comes last decides whether white space may stand at the ends of the text; the other pairs enclose
brackets. -/
theorem enclosable_encloseAll (hlevel : isLevel t = true) (pair : Pair) (pairs : List Pair)
    (hbare : (pair :: pairs).getLast? = some .pointed → Text.StartsBare t ∧ Text.EndsBare t) :
    Enclosable pair.opening pair.closing (encloseAll pairs t) := by
  induction pairs generalizing pair with
  | nil =>
    refine pair.enclosable (balanced_of_isLevel hlevel) ?_
    rintro rfl
    exact hbare rfl
  | cons inner pairs ih =>
    have hoperand : Operand (encloseAll (inner :: pairs) t) :=
      ⟨_, _, _, rfl, ih inner (by simpa using hbare), inner.closing?_opening⟩
    exact pair.enclosable hoperand.balanced fun _ => ⟨hoperand.startsBare, hoperand.endsBare⟩

/-- Brackets around a text that is balanced on its own say nothing, however many pairs there are. -/
theorem read_encloseAll (hlevel : isLevel t = true) :
    read (enclose '(' ')' t) = read t ∧
      (Text.StartsBare t → Text.EndsBare t → read (enclose '<' '>' t) = read t) ∧
      ∀ pairs : List Pair, (pairs.getLast? = some .pointed → Text.StartsBare t ∧ Text.EndsBare t) →
        read (encloseAll pairs t) = read t := by
  have hall : ∀ pairs : List Pair, (pairs.getLast? = some .pointed → Text.StartsBare t ∧ Text.EndsBare t) →
      read (encloseAll pairs t) = read t := by
    intro pairs hbare
    induction pairs with
    | nil => rfl
    | cons pair pairs ih =>
      have hinner : read (encloseAll pairs t) = read t := by
        apply ih
        intro hlast
        apply hbare
        rw [List.getLast?_cons, hlast]
        rfl
      rw [← hinner]
      exact read_enclose (enclosable_encloseAll hlevel pair pairs hbare) pair.closing?_opening
  refine ⟨hall [.round] (by simp), ?_, hall⟩
  intro hstart hend
  exact hall [.pointed] fun _ => ⟨hstart, hend⟩

/-- The text begins and ends with pointed brackets of its own and has an operator that is none. -/
theorem read_encloseAll_pointed :
    let text := "<mouse down?> or <(a) < (b)>".toList
    let pairs : List Pair := [.round, .pointed, .pointed]
    (isLevel text = true ∧ Text.StartsBare text ∧ Text.EndsBare text) ∧
      encloseAll pairs text = "(<<<mouse down?> or <(a) < (b)>>>)".toList ∧
      read "(<<<mouse down?> or <(a) < (b)>>>)".toList = .join .or .mouseDown (.compare .less "a" "b") := by
  intro text pairs
  have hlevel : isLevel text = true := by decide
  have hbare : Text.StartsBare text ∧ Text.EndsBare text := by decide
  have hpairs : encloseAll pairs text = "(<<<mouse down?> or <(a) < (b)>>>)".toList := by decide
  have hread := (read_encloseAll hlevel).2.2 pairs fun _ => hbare
  have hinside : read text = .join .or .mouseDown (.compare .less "a" "b") := by decide +kernel
  rw [hpairs, hinside] at hread
  exact ⟨⟨hlevel, hbare⟩, hpairs, hread⟩

end Condition

end ScratchScript
