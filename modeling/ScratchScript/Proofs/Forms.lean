import Mathlib.Data.Option.Basic
import ScratchScript.Form

/-!
# How forms begin

Two forms cannot read the same text if their wordings part ways before the first hole. `Opening` is a wording up to that
point, `Form.openings` lists the openings of a form, one for each choice of spellings, and `Opening.clash` compares two
of them letter by letter. An opening that is a beginning of the other clashes with it only if it must end there: `clear`
has to be the whole line, and `si` a whole word.

The other direction, that a form does read a text, goes piece by piece (`Form.read?_word`, `Form.read?_square`).
-/

namespace ScratchScript

/-! ## Letters -/

namespace Text

theorem sameLetter_of_common {a b c : Char} (ha : sameLetter a c = true) (hb : sameLetter b c = true) :
    sameLetter a b = true := by
  simp only [sameLetter, beq_iff_eq] at ha hb ⊢
  rw [ha, hb]

theorem isLower_iff {c : Char} : c.isLower = true ↔ 97 ≤ c.toNat ∧ c.toNat ≤ 122 := by
  have hlower : c.isLower = (decide (97 ≤ c.val) && decide (c.val ≤ 122)) := rfl
  simp [hlower, UInt32.le_iff_toNat_le]

theorem toNat_ofNat_of_le {n : Nat} (h : 128 ≤ n) : (Char.ofNat n).toNat = 0 ∨ 128 ≤ (Char.ofNat n).toNat := by
  by_cases hvalid : n.isValidChar
  · have htoNat : (Char.ofNat n).toNat = n := congrArg Char.toNat (dif_pos hvalid)
    omega
  · exact .inl (congrArg Char.toNat (dif_neg hvalid))

theorem isAlphanum_of_isLower_toLower {c : Char} (hascii : c.toNat < 128) (h : c.toLower.isLower = true) :
    c.isAlphanum = true := by
  have hall : ∀ n < 128, (Char.ofNat n).toLower.isLower = true → (Char.ofNat n).isAlphanum = true := by decide
  simpa [h] using hall c.toNat hascii

/-- The Kelvin sign is the only capital letter outside ASCII whose lowercase letter is in ASCII. -/
theorem capitalRuns_ascii :
    ∀ run ∈ capitalRuns, 128 ≤ (run.first : Int) + run.offset ∨ run.first = 0x212A ∧ run.last = 0x212A := by
  decide +kernel

theorem eq_or_of_foldCase_ascii {c : Char} (hne : (foldCase c).toNat ≠ 0) (h : (foldCase c).toNat < 128) :
    c.toNat < 128 ∧ foldCase c = c.toLower ∨ c = 'ſ' ∨ c = Char.ofNat 0x212A := by
  by_cases hlong : c = 'ſ'
  · exact .inr (.inl hlong)
  by_cases hascii : c.toNat < 128
  · exact .inl ⟨hascii, by simp [foldCase, hlong, lowerChar, hascii]⟩
  -- outside ASCII, a character that folds to itself does not fold into ASCII
  by_cases hdot : c.toNat = 0x130
  · simp [foldCase, hlong, lowerChar, hdot] at h
  cases hfind : capitalRuns.find? fun run => run.covers c.toNat with
  | none =>
    simp [foldCase, hlong, lowerChar, hascii, hdot, hfind] at h
  | some run =>
    have hcovers := List.find?_some hfind
    simp only [CapitalRun.covers, Bool.and_eq_true, decide_eq_true_eq, beq_iff_eq] at hcovers
    rcases capitalRuns_ascii run (List.mem_of_find?_eq_some hfind) with hout | ⟨hfirst, hlast⟩
    · have hle : 128 ≤ (c.toNat + run.offset).toNat := by omega
      have hfold : foldCase c = Char.ofNat (c.toNat + run.offset).toNat := by
        simp [foldCase, hlong, lowerChar, hascii, hdot, hfind]
      rw [hfold] at hne h
      have := toNat_ofNat_of_le hle
      omega
    · rw [← Char.ofNat_toNat c, show c.toNat = 0x212A by omega]
      exact .inr (.inr rfl)

theorem isWordChar_of_isLower_foldCase {c : Char} (h : (foldCase c).isLower = true) : isWordChar c = true := by
  have hrange := isLower_iff.1 h
  rcases eq_or_of_foldCase_ascii (c := c) (by omega) (by omega) with ⟨hascii, hfold⟩ | rfl | rfl
  · rw [hfold] at h
    simp [isWordChar, hascii, isAlphanum_of_isLower_toLower hascii h]
  · decide
  · decide +kernel

theorem isWordChar_of_sameLetter {letter c : Char} (hletter : (foldCase letter).isLower = true)
    (h : sameLetter letter c = true) : isWordChar c = true := by
  apply isWordChar_of_isLower_foldCase
  rw [← beq_iff_eq.1 h]
  exact hletter

end Text

/-! ## Openings -/

/-- A wording up to its first hole, or to the end of a word or of the line. -/
inductive Opening
  | hole
  | wordEnd
  | lineEnd
  | letter (c : Char) (rest : Opening)

namespace Opening

/-- The opening with a spelling before it. -/
def spelled (spelling : List Char) (opening : Opening) : Opening :=
  spelling.foldr letter opening

def begins : Opening → List Char → Bool
  | hole, _ => true
  | wordEnd, text => !text.head?.any Text.isWordChar
  | lineEnd, text => text.isEmpty
  | letter _ _, [] => false
  | letter a rest, c :: text => Text.sameLetter a c && begins rest text

/-- Whether no text with the letter at its start begins with the opening. -/
def bars : Opening → Char → Bool
  | hole, _ => false
  | wordEnd, a => (Text.foldCase a).isLower
  | lineEnd, _ => true
  | letter b _, a => !Text.sameLetter a b

/-- Whether the openings differ before either of them is over. -/
def clash : Opening → Opening → Bool
  | letter a first, letter b second => !Text.sameLetter a b || clash first second
  | letter a _, second => second.bars a
  | first, letter b _ => first.bars b
  | _, _ => false

theorem begins_spelled (spelling : List Char) (opening : Opening) (text : List Char) :
    (opening.spelled spelling).begins text =
      (Text.startsWith spelling text && opening.begins (text.drop spelling.length)) := by
  induction spelling generalizing text with
  | nil => simp [spelled, Text.startsWith]
  | cons a spelling ih =>
    cases text with
    | nil => simp [spelled, begins, Text.startsWith]
    | cons c text =>
      rw [spelled] at ih
      simp [spelled, begins, Text.startsWith, ih, Bool.and_assoc]

theorem begins_eq_false_of_bars {opening : Opening} {a c : Char} (hbars : opening.bars a = true)
    (hsame : Text.sameLetter a c = true) (text : List Char) : opening.begins (c :: text) = false := by
  cases opening with
  | hole => simp [bars] at hbars
  | wordEnd => simp [begins, Text.isWordChar_of_sameLetter hbars hsame]
  | lineEnd => rfl
  | letter b rest =>
    have hne : Text.sameLetter b c = false := by
      by_contra hb
      rw [Bool.not_eq_false] at hb
      simp [bars, Text.sameLetter_of_common hsame hb] at hbars
    simp [begins, hne]

theorem begins_eq_false_of_clash {first second : Opening} (hclash : first.clash second = true) {text : List Char}
    (hfirst : first.begins text = true) : second.begins text = false := by
  -- both openings are followed along the text; where one is over, it must keep the next letter of the other away
  induction first generalizing second text with
  | letter a first ih =>
    cases text with
    | nil => simp [begins] at hfirst
    | cons c text =>
      simp only [begins, Bool.and_eq_true] at hfirst
      obtain ⟨hsame, hrest⟩ := hfirst
      cases second with
      | letter b second =>
        cases hb : Text.sameLetter b c with
        | false => simp [begins, hb]
        | true =>
          have hab := Text.sameLetter_of_common hsame hb
          have hrest_clash : first.clash second = true := by simpa [clash, hab] using hclash
          simp [begins, ih hrest_clash hrest]
      | _ => exact begins_eq_false_of_bars hclash hsame text
  | _ =>
    cases second with
    | letter b second =>
      cases text with
      | nil => rfl
      | cons c text =>
        cases hb : Text.sameLetter b c with
        | false => simp [begins, hb]
        | true => simp [begins_eq_false_of_bars hclash hb text] at hfirst
    | _ => simp [clash] at hclash

end Opening

/-- The openings of the form, one for each choice of spellings. -/
def Form.openings : Form → List Opening
  | .word spellings :: form => spellings.flatMap fun spelling => (openings form).map (Opening.spelled spelling.toList)
  | .wordEnd :: _ => [.wordEnd]
  | .lineEnd :: _ => [.lineEnd]
  | _ => [.hole]

theorem Form.exists_opening {form : Form} {text : List Char} {holes : List (List Char)}
    (h : form.read? text = some holes) : ∃ opening ∈ form.openings, opening.begins text = true := by
  induction form generalizing text holes with
  | nil => exact ⟨.hole, by simp [openings], rfl⟩
  | cons piece form ih =>
    obtain ⟨n, hn, hrest⟩ := List.exists_of_findSome?_eq_some h
    obtain ⟨rest, hread, -⟩ := Option.map_eq_some_iff.1 hrest
    cases piece with
    | word spellings =>
      obtain ⟨spelling, hspelling, rfl⟩ := List.mem_map.1 hn
      obtain ⟨hmem, hstarts⟩ := List.mem_filter.1 hspelling
      obtain ⟨opening, hopening, hbegins⟩ := ih hread
      refine ⟨opening.spelled spelling.toList, ?_, ?_⟩
      · exact List.mem_flatMap.2 ⟨spelling, hmem, List.mem_map_of_mem hopening⟩
      · rw [Opening.begins_spelled, hstarts, String.length_toList, hbegins]
        rfl
    | gap => exact ⟨.hole, by simp [openings], rfl⟩
    | hole => exact ⟨.hole, by simp [openings], rfl⟩
    | wordEnd =>
      refine ⟨.wordEnd, by simp [openings], ?_⟩
      cases hword : text.head?.any Text.isWordChar with
      | true => simp [Piece.lengths, hword] at hn
      | false => simp [Opening.begins, hword]
    | lineEnd =>
      refine ⟨.lineEnd, by simp [openings], ?_⟩
      cases hempty : text.isEmpty with
      | true => simp [Opening.begins, hempty]
      | false => simp [Piece.lengths, hempty] at hn

/-! ## Reading a wording -/

namespace Form

variable {form : Form} {s rest : List Char} {holes : List (List Char)}

theorem startsWith_append (s rest : List Char) : Text.startsWith s (s ++ rest) = true := by
  induction s with
  | nil => rfl
  | cons c s ih => simp [Text.startsWith, Text.sameLetter, ih]

theorem begins_append (s rest : List Char) : (Opening.spelled s .hole).begins (s ++ rest) = true := by
  rw [Opening.begins_spelled, startsWith_append]
  rfl

/-- The first spelling of a word is tried first. -/
theorem read?_word (spelling : String) (spellings : List String) (h : read? form rest = some holes) :
    read? (.word (spelling :: spellings) :: form) (spelling.toList ++ rest) = some holes := by
  have hdrop : (spelling.toList ++ rest).drop spelling.length = rest := by
    rw [← String.length_toList, List.drop_left]
  simp [read?, Piece.lengths, startsWith_append, Piece.kept, hdrop, h]

theorem read?_word_skip (spelling : String) (spellings : List String)
    (h : Text.startsWith spelling.toList s = false) :
    read? (.word (spelling :: spellings) :: form) s = read? (.word spellings :: form) s := by
  simp [read?, Piece.lengths, Piece.kept, h]

/-- A hole that reaches as far as it can stops at the closing bracket. -/
theorem read?_square (hne : s ≠ []) (hclosed : ']' ∉ s) (h : read? form rest = some holes) :
    read? (square ++ form) ('[' :: (s ++ ']' :: rest)) = some (s :: holes) := by
  have htake : (s ++ ']' :: rest).takeWhile Filling.unclosed.admits = s := by
    rw [List.takeWhile_append_of_pos]
    · simp [Filling.admits]
    · intro c hc
      have : c ≠ ']' := fun heq => hclosed (heq ▸ hc)
      simpa [Filling.admits] using this
  obtain ⟨n, hn⟩ : ∃ n, s.length = n + 1 := Nat.exists_eq_succ_of_ne_zero (by simpa using hne)
  have hclosing : read? (.word ["]"] :: form) (']' :: rest) = some holes := read?_word "]" [] h
  have hhole : read? (.hole .unclosed 1 .longest :: .word ["]"] :: form) (s ++ ']' :: rest) = some (s :: holes) := by
    have htries : Piece.lengths (.hole .unclosed 1 .longest) (s ++ ']' :: rest) =
        s.length :: (List.range' 1 n).reverse := by
      simp [Piece.lengths, Piece.tries, htake, hn, List.range'_1_concat, Nat.add_comm]
    rw [read?, htries]
    simp [hclosing, Piece.kept]
  exact read?_word "[" [] hhole

theorem read?_lineEnd : read? lineEnd [] = some [] :=
  rfl

theorem read?_eq_none {opening : Opening} (hclash : form.openings.all opening.clash = true)
    (hbegins : opening.begins s = true) : read? form s = none := by
  by_contra hread
  obtain ⟨holes, hholes⟩ := Option.ne_none_iff_exists'.1 hread
  obtain ⟨other, hother, hotherBegins⟩ := exists_opening hholes
  have hfalse := Opening.begins_eq_false_of_clash (List.all_eq_true.1 hclash other hother) hbegins
  simp [hfalse] at hotherBegins

end Form

end ScratchScript
