import Mathlib.Logic.Relation
import ScratchScript.Proofs.Accounting

/-!
# Clean-up of a source

What is cleaned off the lines of a source has no influence on what the source becomes. `Source.Edit` lists the changes:
a format mark anywhere, white space at the start or at the end of a line, a carriage return before a line feed, blank
lines at the end. Any number of them, made or undone, leaves the compiled notation as it is (`compile_edited`), line
numbers included.

The argument follows the order of the clean-up. A text is cut into lines before anything else, so a change inside of a
line must not be seen wherever the line begins; `Unseen` says this, and is kept when more text is put in front
(`Unseen.append`). White space at the start of a line is not unseen behind other text, but it is behind a line feed.
-/

namespace ScratchScript

namespace Text

theorem trim_cons_blank {c : Char} (h : isBlank c = true) (s : List Char) : trim (c :: s) = trim s := by
  simp [trim, trimStart, h]

theorem trimEnd_concat_blank {c : Char} (h : isBlank c = true) (s : List Char) : trimEnd (s ++ [c]) = trimEnd s := by
  simp [trimEnd, h]

theorem trim_concat_blank {c : Char} (h : isBlank c = true) (s : List Char) : trim (s ++ [c]) = trim s := by
  induction s with
  | nil => rw [List.nil_append, trim_cons_blank h]
  | cons d s ih =>
    by_cases hd : isBlank d = true
    · rw [List.cons_append, trim_cons_blank hd, trim_cons_blank hd, ih]
    · have hstart : ∀ s, StartsBare (d :: s) := startsBare_cons (by simpa using hd)
      rw [List.cons_append, trim, trim, trimStart_eq_self (hstart _), trimStart_eq_self (hstart _),
        ← List.cons_append, trimEnd_concat_blank h]

theorem mem_of_mem_trim {c : Char} {s : List Char} (h : c ∈ trim s) : c ∈ s := by
  have hend : trimEnd (trimStart s) <+: trimStart s := List.rdropWhile_prefix isBlank _
  exact (List.dropWhile_sublist isBlank).subset (hend.subset h)

end Text

namespace Source

/-! ## Clean lines -/

theorem clean_append_mark {c : Char} (h : isFormatMark c = true) (front line : List Char) :
    clean (front ++ c :: line) = clean (front ++ line) := by
  simp [clean, h]

theorem clean_cons_blank {c : Char} (h : Text.isBlank c = true) (line : List Char) :
    clean (c :: line) = clean line := by
  unfold clean
  rw [List.filter_cons]
  split
  · exact Text.trim_cons_blank h _
  · rfl

theorem clean_concat_blank {c : Char} (h : Text.isBlank c = true) (line : List Char) :
    clean (line ++ [c]) = clean line := by
  unfold clean
  rw [List.filter_append, List.filter_cons]
  split
  · exact Text.trim_concat_blank h _
  · rw [List.filter_nil, List.append_nil]

theorem of_mem_clean {c : Char} {line : List Char} (h : c ∈ clean line) : c ∈ line ∧ isFormatMark c = false := by
  have hmem := Text.mem_of_mem_trim h
  rw [List.mem_filter] at hmem
  exact ⟨hmem.1, by simpa using hmem.2⟩

theorem clean_clean (line : List Char) : clean (clean line) = clean line := by
  have hkept : (clean line).filter (fun c => !isFormatMark c) = clean line := by
    rw [List.filter_eq_self]
    intro c hmem
    simp [(of_mem_clean hmem).2]
  rw [clean, hkept]
  exact Text.trim_trim _

/-! ## Edits -/

/-- One change to a source that is cleaned off. -/
inductive Edit : List Char → List Char → Prop
  /-- A byte order mark, a zero-width space or joiner, or a word joiner, anywhere. -/
  | mark (before after : List Char) {c : Char} (hmark : c.toNat ∈ [0xFEFF, 0x200B, 0x200C, 0x200D, 0x2060]) :
    Edit (before ++ after) (before ++ c :: after)
  /-- White space at the start of a line. -/
  | indent (before after : List Char) {c : Char} (hblank : Text.isBlank c = true) (hfeed : c ≠ '\n')
    (hstart : before = [] ∨ before.getLast? = some '\n') : Edit (before ++ after) (before ++ c :: after)
  /-- White space at the end of a line. -/
  | trail (before after : List Char) {c : Char} (hblank : Text.isBlank c = true) (hfeed : c ≠ '\n')
    (hend : after = [] ∨ after.head? = some '\n') : Edit (before ++ after) (before ++ c :: after)
  /-- A carriage return before a line feed. -/
  | carriageReturn (before after : List Char) : Edit (before ++ '\n' :: after) (before ++ '\r' :: '\n' :: after)
  /-- Blank lines at the end. -/
  | blankLines (source blank : List Char) (hblank : ∀ c ∈ blank, Text.isBlank c = true) :
    Edit source (source ++ '\n' :: blank)

def cleanPieces (text : List Char) : List (List Char) :=
  (text.splitOn '\n').map clean

/-- Behind any beginning of a line, the two texts have the same lines. -/
def Unseen (text other : List Char) : Prop :=
  ∀ front : List Char, ((text.splitOn '\n').modifyHead (front ++ ·)).map clean =
    ((other.splitOn '\n').modifyHead (front ++ ·)).map clean

theorem exists_splitOn_eq_cons (text : List Char) : ∃ first rest, text.splitOn '\n' = first :: rest :=
  List.exists_cons_of_ne_nil (List.splitOnP_ne_nil _ _)

theorem cleanPieces_feed (text : List Char) : cleanPieces ('\n' :: text) = [] :: cleanPieces text := by
  rw [cleanPieces, splitOn_cons, if_pos rfl]
  rfl

theorem Unseen.cleanPieces_eq {text other : List Char} (h : Unseen text other) :
    cleanPieces text = cleanPieces other := by
  obtain ⟨first, rest, hsplit⟩ := exists_splitOn_eq_cons text
  obtain ⟨second, more, hother⟩ := exists_splitOn_eq_cons other
  have hempty := h []
  rw [hsplit, hother] at hempty
  rw [cleanPieces, cleanPieces, hsplit, hother]
  exact hempty

theorem unseen_feed {text other : List Char} (h : cleanPieces text = cleanPieces other) :
    Unseen ('\n' :: text) ('\n' :: other) := by
  intro front
  rw [splitOn_cons, if_pos rfl, splitOn_cons, if_pos rfl, List.modifyHead_cons, List.modifyHead_cons, List.map_cons,
    List.map_cons]
  exact congrArg _ h

theorem Unseen.cons {text other : List Char} (h : Unseen text other) (c : Char) : Unseen (c :: text) (c :: other) := by
  by_cases hc : c = '\n'
  · subst hc
    exact unseen_feed h.cleanPieces_eq
  · intro front
    have hlonger := h (front ++ [c])
    obtain ⟨first, rest, hsplit⟩ := exists_splitOn_eq_cons text
    obtain ⟨second, more, hother⟩ := exists_splitOn_eq_cons other
    rw [splitOn_cons, if_neg hc, splitOn_cons, if_neg hc]
    rw [hsplit, hother] at hlonger ⊢
    simpa using hlonger

theorem Unseen.append {text other : List Char} (h : Unseen text other) (before : List Char) :
    Unseen (before ++ text) (before ++ other) := by
  induction before with
  | nil => exact h
  | cons c before ih => exact ih.cons c

theorem unseen_mark {c : Char} (h : isFormatMark c = true) (after : List Char) : Unseen after (c :: after) := by
  intro front
  have hc : c ≠ '\n' := by
    rintro rfl
    exact absurd h (by decide)
  obtain ⟨first, rest, hsplit⟩ := exists_splitOn_eq_cons after
  rw [splitOn_cons, if_neg hc, hsplit]
  simp [clean_append_mark h]

theorem unseen_trail {c : Char} (hblank : Text.isBlank c = true) (hc : c ≠ '\n') {after : List Char}
    (h : after = [] ∨ after.head? = some '\n') : Unseen after (c :: after) := by
  intro front
  have hfirst : ∃ rest, after.splitOn '\n' = [] :: rest := by
    rcases h with rfl | hhead
    · exact ⟨[], rfl⟩
    · obtain ⟨rest, rfl⟩ := List.head?_eq_some_iff.1 hhead
      exact ⟨rest.splitOn '\n', by rw [splitOn_cons, if_pos rfl]⟩
  obtain ⟨rest, hsplit⟩ := hfirst
  rw [splitOn_cons, if_neg hc, hsplit]
  simp [clean_concat_blank hblank]

theorem cleanPieces_cons_blank {c : Char} (hblank : Text.isBlank c = true) (hc : c ≠ '\n') (text : List Char) :
    cleanPieces (c :: text) = cleanPieces text := by
  obtain ⟨first, rest, hsplit⟩ := exists_splitOn_eq_cons text
  rw [cleanPieces, cleanPieces, splitOn_cons, if_neg hc, hsplit, List.modifyHead_cons, List.map_cons, List.map_cons,
    clean_cons_blank hblank]

theorem exists_cleanPieces_blank {blank : List Char} (h : ∀ c ∈ blank, Text.isBlank c = true) :
    ∃ count, cleanPieces blank = List.replicate count [] := by
  induction blank with
  | nil => exact ⟨1, rfl⟩
  | cons c blank ih =>
    obtain ⟨count, hcount⟩ := ih fun d hd => h d (List.mem_cons_of_mem _ hd)
    by_cases hc : c = '\n'
    · subst hc
      exact ⟨count + 1, by rw [cleanPieces_feed, hcount]; rfl⟩
    · exact ⟨count, by rw [cleanPieces_cons_blank (h c List.mem_cons_self) hc, hcount]⟩

theorem cleanPieces_append_feed (text other : List Char) :
    cleanPieces (text ++ '\n' :: other) = cleanPieces text ++ cleanPieces other := by
  rw [cleanPieces, List.splitOn, List.splitOnP_append_cons _ _ (by simp), List.map_append]
  rfl

theorem Edit.exists_cleanPieces_eq {source other : List Char} (h : Edit source other) :
    ∃ count, cleanPieces other = cleanPieces source ++ List.replicate count [] := by
  have hsame : cleanPieces source = cleanPieces other →
      ∃ count, cleanPieces other = cleanPieces source ++ List.replicate count [] :=
    fun heq => ⟨0, by rw [heq, List.replicate_zero, List.append_nil]⟩
  cases h with
  | mark before after hmark =>
    have hformat := List.contains_iff_mem.2 hmark
    exact hsame ((unseen_mark hformat after).append before).cleanPieces_eq
  | indent before after hblank hfeed hstart =>
    apply hsame
    have hline := (cleanPieces_cons_blank hblank hfeed after).symm
    rcases hstart with rfl | hlast
    · exact hline
    · -- the line starts behind the last line feed of what stands before
      obtain ⟨front, rfl⟩ := List.getLast?_eq_some_iff.1 hlast
      rw [List.append_assoc, List.append_assoc]
      exact ((unseen_feed hline).append front).cleanPieces_eq
  | trail before after hblank hfeed hend => exact hsame ((unseen_trail hblank hfeed hend).append before).cleanPieces_eq
  | carriageReturn before after =>
    have hunseen : Unseen ('\n' :: after) ('\r' :: '\n' :: after) := unseen_trail (by decide) (by decide) (.inr rfl)
    exact hsame (hunseen.append before).cleanPieces_eq
  | blankLines _ blank hblank =>
    obtain ⟨count, hcount⟩ := exists_cleanPieces_blank hblank
    exact ⟨count, by rw [cleanPieces_append_feed, hcount]⟩

/-! ## Clean lines are lines -/

theorem splitLines_append_feed {line : List Char} (h : '\n' ∉ line) (rest : List Char) :
    splitLines (line ++ '\n' :: rest) = line :: splitLines rest := by
  induction line with
  | nil => rfl
  | cons c line ih =>
    rw [List.mem_cons, not_or] at h
    have hlines : splitLines (c :: (line ++ '\n' :: rest)) = joinLine c (splitLines (line ++ '\n' :: rest)) := rfl
    rw [List.cons_append, hlines, ih h.2, joinLine, if_neg (by simpa using Ne.symm h.1)]

theorem splitLines_flatMap {lines : List (List Char)} (h : ∀ line ∈ lines, '\n' ∉ line) :
    splitLines (lines.flatMap fun line => line ++ ['\n']) = lines := by
  induction lines with
  | nil => rfl
  | cons line lines ih =>
    rw [List.flatMap_cons, List.append_assoc, List.singleton_append,
      splitLines_append_feed (h line List.mem_cons_self), ih fun other hmem => h other (List.mem_cons_of_mem _ hmem)]

theorem feed_not_mem_of_mem_splitLines {source line : List Char} (h : line ∈ splitLines source) : '\n' ∉ line := by
  have hpiece : line ∈ source.splitOn '\n' := by
    rcases splitOn_eq_splitLines source with heq | heq <;> rw [heq]
    · exact h
    · exact List.mem_append_left _ h
  exact not_mem_of_mem_splitOn hpiece

theorem of_mem_lines {source : List Char} {line : SourceLine} (h : line ∈ lines source) :
    '\n' ∉ line.text.toList ∧ clean line.text.toList = line.text.toList ∧ isFence line.text.toList = false := by
  obtain ⟨⟨piece, number⟩, hpiece, hline⟩ := List.mem_filterMap.1 h
  rw [Option.ite_none_left_eq_some, Option.some.injEq] at hline
  obtain ⟨hfence, rfl⟩ := hline
  rw [String.toList_ofList]
  refine ⟨fun hmem => ?_, clean_clean piece, by simpa using hfence⟩
  exact feed_not_mem_of_mem_splitLines (List.fst_mem_of_mem_zipIdx hpiece) (of_mem_clean hmem).1

theorem texts_of_clean {texts : List (List Char)} (h : ∀ text ∈ texts, clean text = text ∧ isFence text = false)
    (first : Nat) :
    ((texts.zipIdx first).filterMap fun (line, number) =>
      if isFence (clean line) then none else some (⟨number, String.ofList (clean line)⟩ : SourceLine)).map
        (fun line => line.text.toList) = texts := by
  induction texts generalizing first with
  | nil => rfl
  | cons text texts ih =>
    obtain ⟨hclean, hfence⟩ := h text List.mem_cons_self
    have hrest := ih (fun other hmem => h other (List.mem_cons_of_mem _ hmem)) (first + 1)
    simp [hclean, hfence, hrest]

theorem lines_written (source : List Char) :
    (lines ((lines source).flatMap fun line => line.text.toList ++ ['\n'])).map SourceLine.text =
      (lines source).map SourceLine.text := by
  have hwritten : ((lines source).flatMap fun line => line.text.toList ++ ['\n']) =
      ((lines source).map fun line => line.text.toList).flatMap fun text => text ++ ['\n'] := by
    rw [List.flatMap_map]
  have hsplit : splitLines ((lines source).flatMap fun line => line.text.toList ++ ['\n']) =
      (lines source).map fun line => line.text.toList := by
    rw [hwritten]
    apply splitLines_flatMap
    intro text hmem
    obtain ⟨line, hline, rfl⟩ := List.mem_map.1 hmem
    exact (of_mem_lines hline).1
  have htexts : (lines ((lines source).flatMap fun line => line.text.toList ++ ['\n'])).map
      (fun line => line.text.toList) = (lines source).map fun line => line.text.toList := by
    rw [lines, hsplit]
    apply texts_of_clean
    intro text hmem
    obtain ⟨line, hline, rfl⟩ := List.mem_map.1 hmem
    exact (of_mem_lines hline).2
  have hinjective : Function.Injective String.toList := fun _ _ => String.toList_injective
  apply List.map_injective_iff.2 hinjective
  rw [List.map_map, List.map_map]
  exact htexts

end Source

/-! ## Compiled notation -/

theorem Assembly.feedAll_blank (layout : Layout) {lines : List SourceLine} (h : ∀ line ∈ lines, line.text = "")
    (assembly : Assembly) : feedAll layout assembly lines = assembly := by
  induction lines with
  | nil => rfl
  | cons line lines ih =>
    have hreading : line.reading = .blank := by simp [SourceLine.reading, h line List.mem_cons_self]
    rw [feedAll_cons, feed, hreading]
    exact ih fun other hmem => h other (List.mem_cons_of_mem _ hmem)

theorem Assembly.ofSource_eq_of_cleanPieces {source other : String} {count : Nat}
    (h : Source.cleanPieces other.toList = Source.cleanPieces source.toList ++ List.replicate count [])
    (layout : Layout) : ofSource layout other = ofSource layout source := by
  have hcleaned : Source.cleaned other = Source.cleaned source ++
      (List.replicate count []).zipIdx (1 + (Source.cleanPieces source.toList).length) := by
    rw [Source.cleaned, ← Source.cleanPieces, h, List.zipIdx_append]
    rfl
  rw [ofSource_eq_ofLines, ofSource_eq_ofLines, hcleaned, List.filterMap_append, ofLines, feedAll_append,
    feedAll_blank, ofLines]
  intro line hmem
  obtain ⟨⟨text, number⟩, hpiece, hline⟩ := List.mem_filterMap.1 hmem
  obtain rfl : text = [] := List.eq_of_mem_replicate (List.fst_mem_of_mem_zipIdx hpiece)
  obtain rfl : ⟨number, ""⟩ = line := Option.some.inj hline
  rfl

theorem compile_eq_of_edit {source other : List Char} (h : Source.Edit source other) (layout : Layout)
    (seed : UInt64) : compile layout seed (String.ofList other) = compile layout seed (String.ofList source) := by
  obtain ⟨count, hcount⟩ := h.exists_cleanPieces_eq
  rw [← String.toList_ofList (l := other), ← String.toList_ofList (l := source)] at hcount
  rw [compile, compilePlain, Assembly.ofSource_eq_of_cleanPieces hcount]
  rfl

/-- Clean-up hides what it removes: edits, made or undone in any number, change nothing in what a source becomes, and
cleaned lines are not changed by being cleaned again. -/
theorem compile_edited {source other : String} (h : Relation.EqvGen Source.Edit source.toList other.toList)
    (layout : Layout) (seed : UInt64) :
    compile layout seed other = compile layout seed source ∧
      (Source.lines ((Source.lines source.toList).flatMap fun line => line.text.toList ++ ['\n'])).map SourceLine.text =
        (Source.lines source.toList).map SourceLine.text := by
  have hsame : ∀ text edited : List Char, Relation.EqvGen Source.Edit text edited →
      compile layout seed (String.ofList edited) = compile layout seed (String.ofList text) := by
    intro text edited hedits
    induction hedits with
    | rel text edited hedit => exact compile_eq_of_edit hedit layout seed
    | refl text => rfl
    | symm text edited _ ih => exact ih.symm
    | trans text middle edited _ _ hfirst hsecond => exact hsecond.trans hfirst
  have hcompiled := hsame _ _ h
  rw [String.ofList_toList, String.ofList_toList] at hcompiled
  exact ⟨hcompiled, Source.lines_written source.toList⟩

/-- A mark inside of a word, an indent, a carriage return and a blank line at once. -/
theorem compile_edited_all :
    Relation.EqvGen Source.Edit "forever\nend".toList "  for\u200bever\r\nend\n\t".toList ∧
      compile {} 0 "  for\u200bever\r\nend\n\t" = compile {} 0 "forever\nend" := by
  have hmark : Source.Edit "forever\nend".toList "for\u200bever\nend".toList :=
    .mark "for".toList "ever\nend".toList (by decide)
  have hinner : Source.Edit "for\u200bever\nend".toList " for\u200bever\nend".toList :=
    .indent [] "for\u200bever\nend".toList (by decide) (by decide) (.inl rfl)
  have houter : Source.Edit " for\u200bever\nend".toList "  for\u200bever\nend".toList :=
    .indent [] " for\u200bever\nend".toList (by decide) (by decide) (.inl rfl)
  have hreturn : Source.Edit "  for\u200bever\nend".toList "  for\u200bever\r\nend".toList :=
    .carriageReturn "  for\u200bever".toList "end".toList
  have hblank : Source.Edit "  for\u200bever\r\nend".toList "  for\u200bever\r\nend\n\t".toList :=
    .blankLines "  for\u200bever\r\nend".toList "\t".toList (List.all_eq_true.1 (by decide))
  have hedits : Relation.EqvGen Source.Edit "forever\nend".toList "  for\u200bever\r\nend\n\t".toList :=
    .trans _ _ _ (.rel _ _ hmark) (.trans _ _ _ (.rel _ _ hinner) (.trans _ _ _ (.rel _ _ houter)
      (.trans _ _ _ (.rel _ _ hreturn) (.rel _ _ hblank))))
  exact ⟨hedits, (compile_edited hedits {} 0).1⟩

end ScratchScript
