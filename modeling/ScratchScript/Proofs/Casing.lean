import ScratchScript.Compiled

/-!
# The case of ASCII letters

Nothing that is done with a text on its way into a block depends on the case of its ASCII letters. There are three ways
to say so, by what comes out:

* a test or a length is the same for the text in lowercase (`isEnclosed_lowerAscii`, `lengths_lowerAscii`);
* a part of the text is the same part of the text in lowercase (`trim_lowerAscii`, `read?_lowerAscii`);
* a text that is stored is the same in lowercase (`value_lowerAscii`, `touchTarget_lowerAscii`).

All of it comes down to tests of single characters, and those are the same for the 26 capital letters and their small
ones (`apply_toLower`).
-/

namespace ScratchScript

namespace Text

def lowerAscii (text : List Char) : List Char :=
  text.map Char.toLower

/-! ## Characters -/

theorem toLower_of_not_capital {c : Char} (h : ¬ (65 ≤ c.toNat ∧ c.toNat ≤ 90)) : c.toLower = c := by
  unfold Char.toLower
  apply dif_neg
  rintro ⟨hfirst, hlast⟩
  apply h
  rw [ge_iff_le, UInt32.le_iff_toNat_le] at hfirst
  rw [UInt32.le_iff_toNat_le] at hlast
  exact ⟨hfirst, hlast⟩

/-- What is the same for the capital letters of ASCII and their small ones does not depend on case. -/
theorem apply_toLower {α : Type} {p : Char → α}
    (h : ∀ n < 26, p (Char.ofNat (65 + n)).toLower = p (Char.ofNat (65 + n))) (c : Char) : p c.toLower = p c := by
  by_cases hcapital : 65 ≤ c.toNat ∧ c.toNat ≤ 90
  · have hc : c = Char.ofNat (65 + (c.toNat - 65)) := by
      rw [Nat.add_sub_cancel' hcapital.1, Char.ofNat_toNat]
    rw [hc]
    exact h _ (by omega)
  · rw [toLower_of_not_capital hcapital]

@[simp] theorem isBlank_toLower (c : Char) : isBlank c.toLower = isBlank c :=
  apply_toLower (by decide) c

@[simp] theorem lowerChar_toLower (c : Char) : lowerChar c.toLower = lowerChar c :=
  apply_toLower (by decide) c

@[simp] theorem foldCase_toLower (c : Char) : foldCase c.toLower = foldCase c :=
  apply_toLower (by decide) c

@[simp] theorem isCased_toLower (c : Char) : isCased c.toLower = isCased c :=
  apply_toLower (by decide) c

@[simp] theorem isCaseIgnorable_toLower (c : Char) : isCaseIgnorable c.toLower = isCaseIgnorable c :=
  apply_toLower (by decide) c

@[simp] theorem isWordChar_toLower (c : Char) : isWordChar c.toLower = isWordChar c :=
  apply_toLower (by decide) c

theorem toLower_beq (mark : Char) (hmark : mark.isAlpha = false) (c : Char) : (c.toLower == mark) = (c == mark) := by
  have hletters : ∀ n < 26, (Char.ofNat (65 + n)).isAlpha = true ∧ (Char.ofNat (65 + n)).toLower.isAlpha = true := by
    decide
  apply apply_toLower (p := (· == mark))
  intro n hn
  obtain ⟨hcapital, hsmall⟩ := hletters n hn
  have hne : ∀ c : Char, c.isAlpha = true → (c == mark) = false := by
    intro c hc
    rw [beq_eq_false_iff_ne]
    rintro rfl
    rw [hc] at hmark
    simp at hmark
  rw [hne _ hcapital, hne _ hsmall]

theorem toLower_eq_iff {mark : Char} (hmark : mark.isAlpha = false) (c : Char) : c.toLower = mark ↔ c = mark := by
  rw [← beq_iff_eq, toLower_beq mark hmark, beq_iff_eq]

theorem map_toLower_beq (mark : Char) (hmark : mark.isAlpha = false) (c : Option Char) :
    (c.map Char.toLower == some mark) = (c == some mark) := by
  cases c with
  | none => rfl
  | some c => simpa using toLower_beq mark hmark c

/-! ## Texts -/

@[simp] theorem lowerAscii_nil : lowerAscii [] = [] := rfl

@[simp] theorem lowerAscii_cons (c : Char) (text : List Char) : lowerAscii (c :: text) = c.toLower :: lowerAscii text :=
  rfl

@[simp] theorem isEmpty_lowerAscii (text : List Char) : (lowerAscii text).isEmpty = text.isEmpty := by
  cases text <;> rfl

@[simp] theorem length_lowerAscii (text : List Char) : (lowerAscii text).length = text.length :=
  List.length_map _

theorem head?_lowerAscii (text : List Char) : (lowerAscii text).head? = text.head?.map Char.toLower := by
  cases text <;> rfl

theorem getLast?_lowerAscii (text : List Char) : (lowerAscii text).getLast? = text.getLast?.map Char.toLower := by
  rw [lowerAscii, List.getLast?_map]

@[simp] theorem lowerAscii_lowerAscii (text : List Char) : lowerAscii (lowerAscii text) = lowerAscii text := by
  rw [lowerAscii, lowerAscii, List.map_map]
  exact List.map_congr_left fun c _ => apply_toLower (p := Char.toLower) (by decide) c

theorem toList_toLower (text : String) : text.toLower.toList = lowerAscii text.toList :=
  String.toList_map

theorem toLower_ofList (text : List Char) : (String.ofList text).toLower = String.ofList (lowerAscii text) := by
  apply String.toList_injective
  rw [toList_toLower, String.toList_ofList, String.toList_ofList]

@[simp] theorem toLower_ofList_lowerAscii (text : List Char) :
    (String.ofList (lowerAscii text)).toLower = (String.ofList text).toLower := by
  rw [toLower_ofList, toLower_ofList, lowerAscii_lowerAscii]

theorem dropWhile_lowerAscii {p : Char → Bool} (hp : ∀ c : Char, p c.toLower = p c) (text : List Char) :
    (lowerAscii text).dropWhile p = lowerAscii (text.dropWhile p) := by
  rw [lowerAscii, List.dropWhile_map, show p ∘ Char.toLower = p from funext hp]
  rfl

theorem length_takeWhile_lowerAscii {p : Char → Bool} (hp : ∀ c : Char, p c.toLower = p c) (text : List Char) :
    ((lowerAscii text).takeWhile p).length = (text.takeWhile p).length := by
  rw [lowerAscii, List.takeWhile_map, show p ∘ Char.toLower = p from funext hp, List.length_map]

theorem trimStart_lowerAscii (text : List Char) : trimStart (lowerAscii text) = lowerAscii (trimStart text) :=
  dropWhile_lowerAscii isBlank_toLower text

theorem reverse_lowerAscii (text : List Char) : (lowerAscii text).reverse = lowerAscii text.reverse :=
  List.map_reverse.symm

theorem trimEnd_lowerAscii (text : List Char) : trimEnd (lowerAscii text) = lowerAscii (trimEnd text) := by
  rw [trimEnd, reverse_lowerAscii, dropWhile_lowerAscii isBlank_toLower, reverse_lowerAscii, trimEnd]

@[simp] theorem trim_lowerAscii (text : List Char) : trim (lowerAscii text) = lowerAscii (trim text) := by
  rw [trim, trimStart_lowerAscii, trimEnd_lowerAscii, trim]

theorem take_lowerAscii (n : Nat) (text : List Char) : (lowerAscii text).take n = lowerAscii (text.take n) :=
  List.map_take.symm

theorem drop_lowerAscii (n : Nat) (text : List Char) : (lowerAscii text).drop n = lowerAscii (text.drop n) :=
  List.map_drop.symm

theorem startsWith_lowerAscii (wording text : List Char) :
    startsWith wording (lowerAscii text) = startsWith wording text := by
  induction wording generalizing text with
  | nil => simp [startsWith]
  | cons a wording ih =>
    cases text with
    | nil => rfl
    | cons c text => simp [startsWith, sameLetter, ih]

theorem startsWithWord_lowerAscii (word text : List Char) :
    startsWithWord word (lowerAscii text) = startsWithWord word text := by
  have htake : ((lowerAscii text).take word.length).map Char.toLower = (text.take word.length).map Char.toLower := by
    rw [take_lowerAscii]
    exact lowerAscii_lowerAscii _
  rw [startsWithWord, startsWithWord, htake]

theorem lowerAscii_eq_iff {mark : List Char} (hmark : ∀ c ∈ mark, c.isAlpha = false) (text : List Char) :
    lowerAscii text = mark ↔ text = mark := by
  induction mark generalizing text with
  | nil => cases text <;> simp
  | cons a mark ih =>
    obtain ⟨ha, hrest⟩ := List.forall_mem_cons.1 hmark
    cases text with
    | nil => simp
    | cons c text => rw [lowerAscii_cons, List.cons.injEq, List.cons.injEq, toLower_eq_iff ha, ih hrest]

theorem isSuffixOf_iff_drop (mark text : List Char) :
    mark.isSuffixOf text = true ↔ text.drop (text.length - mark.length) = mark := by
  rw [List.isSuffixOf_iff_suffix, List.suffix_iff_eq_drop, eq_comm]

theorem dropMark?_lowerAscii {mark : List Char} (hmark : ∀ c ∈ mark, c.isAlpha = false) (text : List Char) :
    dropMark? mark (lowerAscii text) = (dropMark? mark text).map lowerAscii := by
  have hends : mark.isSuffixOf (lowerAscii text) = mark.isSuffixOf text := by
    rw [Bool.eq_iff_iff, isSuffixOf_iff_drop, isSuffixOf_iff_drop, drop_lowerAscii, lowerAscii_eq_iff hmark,
      length_lowerAscii]
  rw [dropMark?, dropMark?, hends, take_lowerAscii, length_lowerAscii]
  split <;> rfl

/-! ## Lowercase -/

theorem startsCased_lowerAscii (text : List Char) : startsCased (lowerAscii text) = startsCased text := by
  rw [startsCased, startsCased, dropWhile_lowerAscii isCaseIgnorable_toLower]
  cases text.dropWhile isCaseIgnorable with
  | nil => rfl
  | cons c rest => exact isCased_toLower c

theorem lowercaseAfter_lowerAscii (before text : List Char) :
    lowercaseAfter (lowerAscii before) (lowerAscii text) = lowercaseAfter before text := by
  induction text generalizing before with
  | nil => rfl
  | cons c text ih =>
    have hrest := ih (c :: before)
    rw [lowerAscii_cons] at hrest
    -- sigma is no ASCII letter, and of its neighbours it only matters whether they have a case at all
    rw [lowerAscii_cons, lowercaseAfter, lowercaseAfter, hrest, toLower_beq 'Σ' (by decide), lowerSigma, lowerSigma,
      startsCased_lowerAscii, startsCased_lowerAscii, lowerChar_toLower]

@[simp] theorem lowercase_lowerAscii (text : List Char) : lowercase (lowerAscii text) = lowercase text :=
  lowercaseAfter_lowerAscii [] text

end Text

open Text

/-! ## Lines -/

namespace Source

theorem isFormatMark_toLower (c : Char) : isFormatMark c.toLower = isFormatMark c :=
  apply_toLower (by decide) c

theorem clean_lowerAscii (line : List Char) : clean (lowerAscii line) = lowerAscii (clean line) := by
  have hfilter : (lowerAscii line).filter (fun c => !isFormatMark c) =
      lowerAscii (line.filter fun c => !isFormatMark c) := by
    rw [lowerAscii, List.filter_map]
    simp [Function.comp_def, isFormatMark_toLower, lowerAscii]
  rw [clean, hfilter, trim_lowerAscii, clean]

theorem isFence_lowerAscii (line : List Char) : isFence (lowerAscii line) = isFence line := by
  have hmark : ∀ c ∈ "```".toList, c.isAlpha = false := by simp
  have hticks : "```".toList.isPrefixOf (lowerAscii line) = "```".toList.isPrefixOf line := by
    rw [Bool.eq_iff_iff, List.isPrefixOf_iff_prefix, List.isPrefixOf_iff_prefix, List.prefix_iff_eq_take,
      List.prefix_iff_eq_take, take_lowerAscii, eq_comm, lowerAscii_eq_iff hmark, eq_comm]
  have hname : ∀ c : Char, (c.toLower.isAlphanum || c.toLower == '-' || c.toLower == '_') =
      (c.isAlphanum || c == '-' || c == '_') :=
    apply_toLower (p := fun c => c.isAlphanum || c == '-' || c == '_') (by decide)
  rw [isFence, isFence, hticks, drop_lowerAscii, lowerAscii, List.all_map]
  simp only [Function.comp_def, hname]

theorem splitLines_lowerAscii (source : List Char) :
    splitLines (lowerAscii source) = (splitLines source).map lowerAscii := by
  induction source with
  | nil => rfl
  | cons c source ih =>
    have hlines : splitLines (c :: source) = joinLine c (splitLines source) := rfl
    have hlowered : splitLines (lowerAscii (c :: source)) = joinLine c.toLower (splitLines (lowerAscii source)) := rfl
    rw [hlines, hlowered, ih]
    unfold joinLine
    rw [toLower_beq '\n' (by decide)]
    split
    · rfl
    · cases splitLines source <;> rfl

theorem Marker.ofLine?_lowerAscii (line : List Char) : Marker.ofLine? (lowerAscii line) = Marker.ofLine? line := by
  simp only [ofLine?, trim_lowerAscii, lowercase_lowerAscii]

/-! ## Menus -/

def isMenuMark (text : List Char) : Bool :=
  menuMarks.any fun mark => mark.toList == text

theorem isMenuMark_iff {text : List Char} :
    isMenuMark text = true ↔ ∃ c, (c == 'v' || c == 'V' || c == '▾' || c == '▼') = true ∧ text = [' ', c] := by
  have hmarks : menuMarks.map String.toList = [[' ', 'v'], [' ', 'V'], [' ', '▾'], [' ', '▼']] := by decide
  have hmem : isMenuMark text = true ↔ text ∈ menuMarks.map String.toList := by simp [isMenuMark]
  rw [hmem, hmarks]
  constructor
  · intro h
    simp only [List.mem_cons, List.not_mem_nil, or_false] at h
    rcases h with rfl | rfl | rfl | rfl <;> exact ⟨_, by decide, rfl⟩
  · rintro ⟨c, hc, rfl⟩
    simp only [Bool.or_eq_true, beq_iff_eq] at hc
    rcases hc with ((rfl | rfl) | rfl) | rfl <;> decide

theorem isMenuMark_lowerAscii (text : List Char) : isMenuMark (lowerAscii text) = isMenuMark text := by
  have hsecond : ∀ c : Char, (c.toLower == 'v' || c.toLower == 'V' || c.toLower == '▾' || c.toLower == '▼') =
      (c == 'v' || c == 'V' || c == '▾' || c == '▼') :=
    apply_toLower (p := fun c => c == 'v' || c == 'V' || c == '▾' || c == '▼') (by decide)
  have hfirst : ∀ c : Char, c.toLower = ' ' ↔ c = ' ' := toLower_eq_iff rfl
  rw [Bool.eq_iff_iff, isMenuMark_iff, isMenuMark_iff]
  constructor
  · rintro ⟨c, hc, htext⟩
    obtain ⟨a, tail, rfl, ha, htail⟩ := List.map_eq_cons_iff.1 htext
    obtain ⟨b, rest, rfl, rfl, hrest⟩ := List.map_eq_cons_iff.1 htail
    obtain rfl := List.map_eq_nil_iff.1 hrest
    exact ⟨b, by rwa [← hsecond], by rw [(hfirst a).1 ha]⟩
  · rintro ⟨c, hc, rfl⟩
    exact ⟨c.toLower, by rwa [hsecond], by rw [lowerAscii_cons, lowerAscii_cons, (hfirst ' ').2 rfl, lowerAscii_nil]⟩

theorem entryBefore?_eq {mark : List Char} (hmark : mark.length = 2) (text : List Char) :
    entryBefore? mark text =
      if mark == text.drop (text.length - 2) && !(trimEnd (text.take (text.length - 2))).isEmpty then
        some (trimEnd (text.take (text.length - 2))) else none := by
  have hends : mark.isSuffixOf text = (mark == text.drop (text.length - 2)) := by
    rw [Bool.eq_iff_iff, isSuffixOf_iff_drop, hmark, beq_iff_eq, eq_comm]
  rw [entryBefore?, dropMark?, hends, hmark]
  cases mark == text.drop (text.length - 2) with
  | false => rfl
  | true => cases hempty : (trimEnd (text.take (text.length - 2))).isEmpty <;> simp [hempty]

/-- The marks are of one length, so it does not matter which of them stands at the end. -/
theorem dropMenuMark_eq_ite (text : List Char) :
    dropMenuMark text =
      if isMenuMark ((trim text).drop ((trim text).length - 2)) &&
        !(trimEnd ((trim text).take ((trim text).length - 2))).isEmpty then
        trimEnd ((trim text).take ((trim text).length - 2)) else trim text := by
  have hlength : ∀ mark ∈ menuMarks, mark.toList.length = 2 := by decide
  rw [dropMenuMark]
  generalize trim text = entry
  have hfind : ∀ marks : List String, (∀ mark ∈ marks, mark.toList.length = 2) →
      marks.findSome? (fun mark => entryBefore? mark.toList entry) =
        if (marks.any fun mark => mark.toList == entry.drop (entry.length - 2)) &&
          !(trimEnd (entry.take (entry.length - 2))).isEmpty then
          some (trimEnd (entry.take (entry.length - 2))) else none := by
    intro marks
    induction marks with
    | nil => exact fun _ => rfl
    | cons mark marks ih =>
      intro hmarks
      obtain ⟨hmark, hrest⟩ := List.forall_mem_cons.1 hmarks
      rw [List.findSome?_cons, entryBefore?_eq hmark, ih hrest, List.any_cons]
      cases mark.toList == entry.drop (entry.length - 2) <;>
        cases (trimEnd (entry.take (entry.length - 2))).isEmpty <;> simp
  rw [hfind menuMarks hlength, isMenuMark]
  split <;> rfl

@[simp] theorem dropMenuMark_lowerAscii (text : List Char) :
    dropMenuMark (lowerAscii text) = lowerAscii (dropMenuMark text) := by
  rw [dropMenuMark_eq_ite, dropMenuMark_eq_ite, trim_lowerAscii, length_lowerAscii, take_lowerAscii, drop_lowerAscii,
    trimEnd_lowerAscii, isMenuMark_lowerAscii, isEmpty_lowerAscii]
  split <;> rfl

end Source

namespace Vocabulary

theorem inside?_lowerAscii {opening closing : Char} (hopening : opening.isAlpha = false)
    (hclosing : closing.isAlpha = false) (text : List Char) :
    inside? opening closing (lowerAscii text) = (inside? opening closing text).map lowerAscii := by
  cases text with
  | nil => rfl
  | cons c rest =>
    have hmark : ∀ c ∈ [closing], c.isAlpha = false := by simpa using hclosing
    rw [lowerAscii_cons, inside?, inside?, toLower_beq opening hopening, dropMark?_lowerAscii hmark]
    split <;> rfl

theorem unwrapOperand_lowerAscii (text : List Char) :
    unwrapOperand (lowerAscii text) = lowerAscii (unwrapOperand text) := by
  rw [unwrapOperand, unwrapOperand, trim_lowerAscii, inside?_lowerAscii (by decide) (by decide),
    inside?_lowerAscii (by decide) (by decide)]
  cases inside? '(' ')' (trim text) with
  | some inner => exact Source.dropMenuMark_lowerAscii inner
  | none =>
    cases inside? '[' ']' (trim text) with
    | some inner => exact Source.dropMenuMark_lowerAscii inner
    | none => rfl

theorem lowered_lowerAscii (text : List Char) : lowered (lowerAscii text) = lowered text := by
  rw [lowered, lowercase_lowerAscii, lowered]

/-- An entry that stands for itself is stored as written, and any other one in a form that does not depend on case. -/
theorem toLower_getD_lowerAscii (stored : Option String) (text : List Char) :
    (stored.getD (String.ofList (lowerAscii text))).toLower = (stored.getD (String.ofList text)).toLower := by
  cases stored with
  | some name => rfl
  | none => exact toLower_ofList_lowerAscii text

theorem keyName_lowerAscii (text : List Char) : keyName (lowerAscii text) = keyName text := by
  rw [keyName, Source.dropMenuMark_lowerAscii, lowered_lowerAscii, keyName]

theorem touchTarget_lowerAscii (text : List Char) :
    (touchTarget (lowerAscii text)).toLower = (touchTarget text).toLower := by
  rw [touchTarget, lowered_lowerAscii, toLower_getD_lowerAscii, touchTarget]

theorem value_lowerAscii (entry : Entry) (text : List Char) :
    (entry.value (lowerAscii text)).toLower = (entry.value text).toLower := by
  cases entry with
  | verbatim => exact toLower_ofList_lowerAscii text
  | menu => rw [Entry.value, Source.dropMenuMark_lowerAscii, toLower_ofList_lowerAscii, Entry.value]
  | key => rw [Entry.value, keyName_lowerAscii, Entry.value]
  | sprite =>
    rw [Entry.value, Source.dropMenuMark_lowerAscii, spriteName, lowered_lowerAscii, toLower_getD_lowerAscii]
    rfl
  | stopOption =>
    rw [Entry.value, Source.dropMenuMark_lowerAscii, stopOption, lowered_lowerAscii, toLower_getD_lowerAscii]
    rfl
  | layer => rw [Entry.value, Source.dropMenuMark_lowerAscii, layerName, lowered_lowerAscii, Entry.value, layerName]
  | operand => rw [Entry.value, unwrapOperand_lowerAscii, toLower_ofList_lowerAscii, Entry.value]

end Vocabulary

/-! ## Forms -/

theorem Piece.lengths_lowerAscii (piece : Piece) (text : List Char) :
    piece.lengths (lowerAscii text) = piece.lengths text := by
  cases piece with
  | word spellings => simp only [lengths, startsWith_lowerAscii]
  | gap => rw [lengths, length_takeWhile_lowerAscii isBlank_toLower, lengths]
  | hole filling least reach =>
    have hadmits : ∀ c : Char, filling.admits c.toLower = filling.admits c := by
      cases filling <;> exact apply_toLower (by decide)
    rw [lengths, length_takeWhile_lowerAscii hadmits, lengths]
  | wordEnd =>
    cases text with
    | nil => rfl
    | cons c rest =>
      rw [lowerAscii_cons, lengths, lengths, List.head?_cons, List.head?_cons, Option.any_some, Option.any_some,
        isWordChar_toLower]
  | lineEnd => simp only [lengths, isEmpty_lowerAscii]

theorem Piece.kept_lowerAscii (piece : Piece) (taken : List Char) :
    piece.kept (lowerAscii taken) = (piece.kept taken).map lowerAscii := by
  cases piece <;> rfl

theorem Form.read?_lowerAscii (form : Form) (text : List Char) :
    form.read? (lowerAscii text) = (form.read? text).map (List.map lowerAscii) := by
  induction form generalizing text with
  | nil => rfl
  | cons piece form ih =>
    rw [read?, read?, Piece.lengths_lowerAscii, List.map_findSome?]
    congr 1
    funext n
    rw [Function.comp_apply, drop_lowerAscii, take_lowerAscii, ih, Piece.kept_lowerAscii, Option.map_map,
      Option.map_map]
    congr 1
    funext holes
    simp

theorem Form.findSome?_read?_lowerAscii (forms : List Form) (text : List Char) :
    (forms.findSome? fun form => form.read? (lowerAscii text)) =
      (forms.findSome? fun form => form.read? text).map (List.map lowerAscii) := by
  rw [List.map_findSome?]
  congr 1
  funext form
  exact form.read?_lowerAscii text

/-! ## Conditions -/

namespace Condition

theorem depthStep_toLower (before : Option Char) (c : Char) (after : Option Char) :
    depthStep (before.map Char.toLower) c.toLower (after.map Char.toLower) = depthStep before c after := by
  simp only [depthStep, bne, toLower_beq '(' rfl, toLower_beq '[' rfl, toLower_beq ')' rfl, toLower_beq ']' rfl,
    toLower_beq '<' rfl, toLower_beq '>' rfl, map_toLower_beq ' ' rfl]

theorem depthsFrom_lowerAscii (before : Option Char) (depth : Int) (text : List Char) :
    depthsFrom (before.map Char.toLower) depth (lowerAscii text) = depthsFrom before depth text := by
  induction text generalizing before depth with
  | nil => rfl
  | cons c rest ih =>
    rw [lowerAscii_cons, depthsFrom, depthsFrom, head?_lowerAscii, depthStep_toLower]
    exact congrArg (depth :: ·) (ih (some c) _)

theorem isAlpha_closing {c close : Char} (h : closing? c = some close) : close.isAlpha = false := by
  unfold closing? at h
  split at h
  · cases h
    rfl
  · split at h
    · cases h
      rfl
    · cases h

theorem isEnclosed_lowerAscii (text : List Char) : isEnclosed (lowerAscii text) = isEnclosed text := by
  cases text with
  | nil => rfl
  | cons c rest =>
    have hclosing : closing? c.toLower = closing? c := apply_toLower (by decide) c
    have hlast := getLast?_lowerAscii (c :: rest)
    have hdepth : depthStep none c.toLower (rest.head?.map Char.toLower) = depthStep none c rest.head? :=
      depthStep_toLower none c rest.head?
    have hdepths : ∀ depth, depthsFrom (some c.toLower) depth (lowerAscii rest) = depthsFrom (some c) depth rest :=
      fun depth => depthsFrom_lowerAscii (some c) depth rest
    rw [lowerAscii_cons] at hlast ⊢
    rw [isEnclosed, isEnclosed, hclosing, hlast, head?_lowerAscii, hdepth, hdepths]
    cases hclose : closing? c with
    | none => rfl
    | some close => simp only [map_toLower_beq close (isAlpha_closing hclose)]

theorem inner_lowerAscii (text : List Char) : inner (lowerAscii text) = lowerAscii (inner text) := by
  rw [inner, drop_lowerAscii, inner, lowerAscii, ← List.map_dropLast]
  rfl

theorem unenclose_lowerAscii (text : List Char) : unenclose (lowerAscii text) = lowerAscii (unenclose text) := by
  fun_induction unenclose text with
  | case1 text h ih =>
    rw [unenclose, isEnclosed_lowerAscii, if_pos h, inner_lowerAscii, trim_lowerAscii, ih]
  | case2 text h => rw [unenclose, isEnclosed_lowerAscii, if_neg h]

theorem bare_lowerAscii (text : List Char) : bare (lowerAscii text) = lowerAscii (bare text) := by
  rw [bare, trim_lowerAscii, unenclose_lowerAscii, bare]

/-! ### Connectives -/

def lowerParts {α : Type} (parts : List Char × α × List Char) : List Char × α × List Char :=
  (lowerAscii parts.1, parts.2.1, lowerAscii parts.2.2)

theorem connectiveAt?_lowerAscii (text : List Char) :
    connectiveAt? (lowerAscii text) =
      (connectiveAt? text).map fun (connective, right) => (connective, lowerAscii right) := by
  simp only [connectiveAt?, startsWithWord_lowerAscii, drop_lowerAscii, Option.map_map]
  rfl

theorem splitAtLast?_lowerAscii (before : Option Char) (depth : Int) (text : List Char) :
    splitAtLast? (before.map Char.toLower) depth (lowerAscii text) =
      (splitAtLast? before depth text).map lowerParts := by
  induction text generalizing before depth with
  | nil => rfl
  | cons c rest ih =>
    have hrest := ih (some c) (depth + depthStep before c rest.head?)
    have hconnective := connectiveAt?_lowerAscii (c :: rest)
    rw [Option.map_some] at hrest
    rw [lowerAscii_cons] at hconnective ⊢
    rw [splitAtLast?, splitAtLast?, head?_lowerAscii, depthStep_toLower, hrest, hconnective]
    cases splitAtLast? (some c) (depth + depthStep before c rest.head?) rest with
    | some parts => rfl
    | none =>
      simp only [Option.map_none]
      split
      · rw [Option.map_map, Option.map_map]
        rfl
      · rfl

theorem splitConnective?_lowerAscii (text : List Char) :
    splitConnective? (lowerAscii text) = (splitConnective? text).map lowerParts := by
  have hsplit := splitAtLast?_lowerAscii none 0 text
  rw [Option.map_none] at hsplit
  rw [splitConnective?, splitConnective?, hsplit]
  cases splitAtLast? none 0 text with
  | none => rfl
  | some parts =>
    obtain ⟨left, connective, right⟩ := parts
    simp only [Option.map_some, lowerParts, trim_lowerAscii, isEmpty_lowerAscii]
    split <;> rfl

/-! ### Negation -/

theorem startsEnclosed_lowerAscii (text : List Char) : startsEnclosed (lowerAscii text) = startsEnclosed text := by
  rw [startsEnclosed, head?_lowerAscii, map_toLower_beq '<' rfl, map_toLower_beq '(' rfl, startsEnclosed]

theorem afterNegation?_lowerAscii (word : String) (text : List Char) :
    afterNegation? word (lowerAscii text) = (afterNegation? word text).map lowerAscii := by
  rw [afterNegation?, afterNegation?, startsWithWord_lowerAscii, drop_lowerAscii, trimStart_lowerAscii,
    startsEnclosed_lowerAscii]
  split <;> rfl

theorem negated?_lowerAscii (text : List Char) : negated? (lowerAscii text) = (negated? text).map lowerAscii := by
  rw [negated?, negated?, List.map_findSome?]
  congr 1
  funext word
  exact afterNegation?_lowerAscii word text

/-! ### Leaves -/

theorem splitComparison?_lowerAscii (before : Option Char) (depth : Int) (text : List Char) :
    splitComparison? (before.map Char.toLower) depth (lowerAscii text) =
      (splitComparison? before depth text).map lowerParts := by
  induction text generalizing before depth with
  | nil => rfl
  | cons c rest ih =>
    have hcomparison : comparison? c.toLower = comparison? c := apply_toLower (by decide) c
    have hstep : bracketStep c.toLower = bracketStep c := apply_toLower (by decide) c
    have hrest := ih (some c)
    simp only [Option.map_some] at hrest
    rw [lowerAscii_cons, splitComparison?, splitComparison?, hcomparison, head?_lowerAscii, map_toLower_beq ' ' rfl,
      map_toLower_beq ' ' rfl, hstep, hrest, hrest]
    cases comparison? c with
    | none =>
      simp only [Option.map_map]
      rfl
    | some op =>
      dsimp only
      split
      · rfl
      · rw [Option.map_map, Option.map_map]
        rfl

theorem isOperand_lowerAscii (text : List Char) : isOperand (lowerAscii text) = isOperand text := by
  simp only [isOperand, head?_lowerAscii, getLast?_lowerAscii, map_toLower_beq '(' rfl, map_toLower_beq ')' rfl,
    map_toLower_beq '[' rfl, map_toLower_beq ']' rfl]

theorem dropQuestionMarks_lowerAscii (text : List Char) :
    dropQuestionMarks (lowerAscii text) = lowerAscii (dropQuestionMarks text) := by
  have hopening : ∀ text, (lowerAscii text).dropWhile (· == '¿') = lowerAscii (text.dropWhile (· == '¿')) :=
    dropWhile_lowerAscii (toLower_beq '¿' rfl)
  have hclosing : ∀ text, (lowerAscii text).dropWhile (· == '?') = lowerAscii (text.dropWhile (· == '?')) :=
    dropWhile_lowerAscii (toLower_beq '?' rfl)
  simp only [dropQuestionMarks, trim_lowerAscii, hopening, reverse_lowerAscii, hclosing]

end Condition

end ScratchScript
