import ScratchScript.Condition.Leaf

/-!
# Reading conditions

`Condition.read` reads the text of a condition. Brackets around the whole text are taken off, the text is split at the
last connective outside all brackets, and a word of negation before a bracketed text negates it; what remains is a
leaf. Reading never fails: what is not understood is `Condition.missing`.

`depths` says how deep each place of a text lies inside brackets. Round and square brackets always count. Pointed ones
count when they hug what they enclose: `<` unless a blank follows it, `>` unless a blank precedes it, so that the
operators of `(a) < (b)` and `(a) > (b)` are no brackets.
-/

namespace ScratchScript.Condition

/-! ## Bracket depth -/

/-- How much deeper the text is after the character than before it. -/
def depthStep (before : Option Char) (c : Char) (after : Option Char) : Int :=
  if c == '(' || c == '[' then 1
  else if c == ')' || c == ']' then -1
  else if c == '<' && after != some ' ' then 1
  else if c == '>' && before != some ' ' then -1
  else 0

/-- The depth before each character and at the end, for a text after the character `before` at the given depth. -/
def depthsFrom (before : Option Char) (depth : Int) : List Char → List Int
  | [] => [depth]
  | c :: rest => depth :: depthsFrom (some c) (depth + depthStep before c rest.head?) rest

/-- The depth before each character of the text and at its end. -/
def depths (text : List Char) : List Int :=
  depthsFrom none 0 text

/-! ## Enclosing brackets -/

/-- The bracket that closes one that can enclose a condition. -/
def closing? (c : Char) : Option Char :=
  if c == '<' then some '>'
  else if c == '(' then some ')'
  else none

/-- Whether the depth comes down to 0 at the end and not before. -/
def endsAtLast : List Int → Bool
  | [] => false
  | [depth] => depth == 0
  | depth :: rest => depth != 0 && endsAtLast rest

/-- Whether a pair of pointed or round brackets encloses the whole text. -/
def isEnclosed (text : List Char) : Bool :=
  match text with
  | [] => false
  | c :: rest =>
    match closing? c with
    | some close =>
      text.getLast? == some close && endsAtLast (depthsFrom (some c) (depthStep none c rest.head?) rest)
    | none => false

/-- The text without its first and last character. -/
def inner (text : List Char) : List Char :=
  (text.drop 1).dropLast

theorem length_inner_lt {text : List Char} (h : isEnclosed text = true) :
    (inner text).length < text.length := by
  cases text with
  | nil => simp [isEnclosed] at h
  | cons c rest => simp only [inner, List.drop_succ_cons, List.drop_zero, List.length_dropLast, List.length_cons]; omega

/-- The text without the brackets that enclose all of it. -/
def unenclose (text : List Char) : List Char :=
  if isEnclosed text then unenclose (Text.trim (inner text)) else text
termination_by text.length
decreasing_by
  rename_i h
  exact Nat.lt_of_le_of_lt (Text.length_trim_le _) (length_inner_lt h)

theorem length_unenclose_le (text : List Char) : (unenclose text).length ≤ text.length := by
  fun_induction unenclose text with
  | case1 text h ih =>
    have := Text.length_trim_le (inner text)
    have := length_inner_lt h
    omega
  | case2 text h => exact Nat.le_refl _

/-! ## Connectives -/

def connectives : List (String × Connective) :=
  [(" and ", .and), (" or ", .or), (" y ", .and), (" o ", .or)]

/-- The connective at the beginning of the text, and the text after it. -/
def connectiveAt? (text : List Char) : Option (Connective × List Char) :=
  (connectives.find? fun (word, _) => Text.startsWithWord word.toList text).map fun (word, connective) =>
    (connective, text.drop word.length)

/-- The text before and after the last connective outside all brackets, for a text after the character `before` at the
given depth. -/
def splitAtLast? (before : Option Char) (depth : Int) :
    List Char → Option (List Char × Connective × List Char)
  | [] => none
  | c :: rest =>
    match splitAtLast? (some c) (depth + depthStep before c rest.head?) rest with
    | some (left, connective, right) => some (c :: left, connective, right)
    | none =>
      if depth == 0 then (connectiveAt? (c :: rest)).map fun (connective, right) => ([], connective, right) else none

/-- The two operands of the last connective outside all brackets. -/
def splitConnective? (text : List Char) : Option (List Char × Connective × List Char) :=
  match splitAtLast? none 0 text with
  | some (left, connective, right) =>
    if (Text.trim left).isEmpty || (Text.trim right).isEmpty then none
    else some (Text.trim left, connective, Text.trim right)
  | none => none

theorem length_connectiveAt?_lt {text right : List Char} {connective : Connective}
    (h : connectiveAt? text = some (connective, right)) : right.length < text.length := by
  simp only [connectiveAt?, Option.map_eq_some_iff, Prod.exists, Prod.mk.injEq] at h
  obtain ⟨word, _, hfind, rfl, rfl⟩ := h
  have hword := List.find?_some hfind
  have hmem := List.mem_of_find?_eq_some hfind
  have hpos : 0 < word.length := by
    simp only [connectives, List.mem_cons, Prod.mk.injEq, List.not_mem_nil, or_false] at hmem
    obtain ⟨rfl, _⟩ | ⟨rfl, _⟩ | ⟨rfl, _⟩ | ⟨rfl, _⟩ := hmem <;> decide
  have hne : text ≠ [] := by
    rintro rfl
    have : [] = word.toList := by simpa [Text.startsWithWord] using hword
    simp [← String.length_toList, ← this] at hpos
  have := List.length_pos_iff.2 hne
  rw [List.length_drop]
  omega

theorem length_splitAtLast?_lt {before : Option Char} {depth : Int} {text left right : List Char}
    {connective : Connective} (h : splitAtLast? before depth text = some (left, connective, right)) :
    left.length + right.length < text.length := by
  induction text generalizing before depth left right connective with
  | nil => simp [splitAtLast?] at h
  | cons c rest ih =>
    rw [splitAtLast?] at h
    split at h
    · rename_i hrest
      simp only [Option.some.injEq, Prod.mk.injEq] at h
      obtain ⟨rfl, rfl, rfl⟩ := h
      have := ih hrest
      simp only [List.length_cons]
      omega
    · split at h
      · simp only [Option.map_eq_some_iff, Prod.exists, Prod.mk.injEq] at h
        obtain ⟨_, _, hat, rfl, rfl, rfl⟩ := h
        simpa using length_connectiveAt?_lt hat
      · simp at h

theorem length_splitConnective?_lt {text left right : List Char} {connective : Connective}
    (h : splitConnective? text = some (left, connective, right)) :
    left.length < text.length ∧ right.length < text.length := by
  rw [splitConnective?] at h
  split at h
  · rename_i l _ r hsplit
    split at h
    · simp at h
    · simp only [Option.some.injEq, Prod.mk.injEq] at h
      obtain ⟨rfl, _, rfl⟩ := h
      have := length_splitAtLast?_lt hsplit
      have := Text.length_trim_le l
      have := Text.length_trim_le r
      omega
  · simp at h

/-! ## Negation -/

def negations : List String := ["not ", "no "]

def startsEnclosed (text : List Char) : Bool :=
  text.head? == some '<' || text.head? == some '('

/-- The text after the word of negation, if it is bracketed. -/
def afterNegation? (word : String) (text : List Char) : Option (List Char) :=
  if Text.startsWithWord word.toList text && startsEnclosed (Text.trimStart (text.drop word.length)) then
    some (Text.trimStart (text.drop word.length))
  else none

/-- The bracketed text after a word of negation. -/
def negated? (text : List Char) : Option (List Char) :=
  negations.findSome? fun word => afterNegation? word text

theorem length_negated?_lt {text rest : List Char} (h : negated? text = some rest) : rest.length < text.length := by
  rw [negated?, List.findSome?_eq_some_iff] at h
  obtain ⟨_, word, _, hword, h, _⟩ := h
  rw [afterNegation?] at h
  split at h
  · rename_i hrest
    simp only [Option.some.injEq] at h
    subst h
    have hpos : 0 < word.length := by
      have hmem : word ∈ negations := by simp [hword]
      simp only [negations, List.mem_cons, List.not_mem_nil, or_false] at hmem
      obtain rfl | rfl := hmem <;> decide
    have hne : text ≠ [] := by
      rintro rfl
      simp [Text.trimStart, startsEnclosed] at hrest
    have := List.length_pos_iff.2 hne
    have := Text.length_trimStart_le (text.drop word.length)
    rw [List.length_drop] at this
    omega
  · simp at h

/-! ## Reading -/

/-- The text without white space at its ends and without the brackets that enclose all of it. -/
def bare (text : List Char) : List Char :=
  unenclose (Text.trim text)

theorem length_bare_le (text : List Char) : (bare text).length ≤ text.length :=
  Nat.le_trans (length_unenclose_le _) (Text.length_trim_le text)

/-- The condition that the text expresses. -/
def read (text : List Char) : Condition :=
  if (bare text).isEmpty then .missing else
    match _h : splitConnective? (bare text) with
    | some (left, connective, right) => .join connective (read left) (read right)
    | none =>
      match _h : negated? (bare text) with
      | some rest => .not (read rest)
      | none => readLeaf (bare text)
termination_by text.length
decreasing_by
  · exact Nat.lt_of_lt_of_le (length_splitConnective?_lt _h).1 (length_bare_le text)
  · exact Nat.lt_of_lt_of_le (length_splitConnective?_lt _h).2 (length_bare_le text)
  · exact Nat.lt_of_lt_of_le (length_negated?_lt _h) (length_bare_le text)

end ScratchScript.Condition
