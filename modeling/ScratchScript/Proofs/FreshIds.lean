import Mathlib.Data.List.GetD
import Mathlib.Data.List.Nodup
import Mathlib.Logic.Function.Iterate
import ScratchScript.BlockId.Issuer

/-!
# Fresh ids

The ids of a seed are pairwise different words of twenty letters and digits. `Letters.Proper` is what the loops keep of
a stream, and `Issuer.Proper` what giving out an id keeps of an issuer; `Issuer.proper_after` is the run.

Which id comes at a place does not depend on how many are asked for (`nth?_eq_getElem?`). Whether the loops end depends
on the stream; they do as soon as enough letters have been drawn (`Letters.take?_eq_some`, `Issuer.next?_eq_some`).
-/

namespace ScratchScript.BlockId

/-- A word of twenty letters and digits. -/
def IsId (word : String) : Prop :=
  word.length = 20 ∧
    ∀ c ∈ word.toList, c ∈ "ABCDEFGHIJKLMNOPQRSTUVWXYZabcdefghijklmnopqrstuvwxyz0123456789".toList

theorem letter_mem_alphabet (n : Nat) : letter n ∈ alphabet := by
  rw [letter, List.getD_eq_getElem?_getD]
  cases h : alphabet[n]? with
  | none => decide
  | some c => exact List.mem_of_getElem? h

theorem mem_alphabet_of_letterOf? {random : UInt64} {c : Char} (h : letterOf? random = some c) : c ∈ alphabet := by
  unfold letterOf? at h
  dsimp only at h
  split at h
  · obtain rfl := Option.some.inj h
    exact letter_mem_alphabet _
  · simp at h

/-! ## The stream -/

namespace Letters

/-- The letters that are drawn and not used yet are in the alphabet. -/
def Proper (letters : Letters) : Prop :=
  ∀ c ∈ letters.ready, c ∈ alphabet

theorem Proper.refill {letters : Letters} (h : letters.Proper) : letters.refill.Proper := by
  intro c hmem
  rcases List.mem_append.1 hmem with hmem | hmem
  · exact h c hmem
  · obtain ⟨random, -, hletter⟩ := List.mem_filterMap.1 hmem
    exact mem_alphabet_of_letterOf? hletter

theorem take?_spec {count : Nat} {letters : Letters} {taken : List Char × Letters}
    (h : letters.take? count = some taken) (hproper : letters.Proper) :
    taken.1.length = count ∧ (∀ c ∈ taken.1, c ∈ alphabet) ∧ taken.2.Proper := by
  refine take?.partial_correctness count
    (fun letters taken => letters.Proper → taken.1.length = count ∧ (∀ c ∈ taken.1, c ∈ alphabet) ∧ taken.2.Proper)
    ?_ letters taken h hproper
  intro loop ih letters taken hstep hproper
  split at hstep
  · rename_i hle
    obtain rfl := Option.some.inj hstep
    exact ⟨List.length_take_of_le hle, fun c hmem => hproper c (List.mem_of_mem_take hmem),
      fun c hmem => hproper c (List.mem_of_mem_drop hmem)⟩
  · exact ih _ _ hstep hproper.refill

theorem word?_spec {letters rest : Letters} {word : String} (h : letters.word? = some (word, rest))
    (hproper : letters.Proper) : IsId word ∧ rest.Proper := by
  obtain ⟨⟨text, _⟩, htake, heq⟩ := Option.map_eq_some_iff.1 h
  obtain ⟨rfl, rfl⟩ := Prod.mk.inj heq
  obtain ⟨hlength, hletters, hrest⟩ := take?_spec htake hproper
  exact ⟨⟨by rw [String.length_ofList]; exact hlength, by rw [String.toList_ofList]; exact hletters⟩, hrest⟩

theorem fresh?_spec {issued : List String} {letters : Letters} {drawn : String × Letters}
    (h : letters.fresh? issued = some drawn) (hproper : letters.Proper) :
    drawn.1 ∉ issued ∧ IsId drawn.1 ∧ drawn.2.Proper := by
  refine fresh?.partial_correctness issued
    (fun letters drawn => letters.Proper → drawn.1 ∉ issued ∧ IsId drawn.1 ∧ drawn.2.Proper) ?_ letters drawn h hproper
  intro loop ih letters drawn hstep hproper
  obtain ⟨⟨word, rest⟩, hword, hstep⟩ := Option.bind_eq_some_iff.1 hstep
  obtain ⟨hid, hrest⟩ := word?_spec hword hproper
  dsimp only at hstep
  split at hstep
  · exact ih _ _ hstep hrest
  · rename_i hfree
    obtain rfl := Option.some.inj hstep
    exact ⟨by simpa using hfree, hid, hrest⟩

/-- The loop draws as few blocks as have enough letters. -/
theorem take?_eq_some {count blocks : Nat} {letters : Letters}
    (hfew : ∀ fewer < blocks, (refill^[fewer] letters).ready.length < count)
    (henough : count ≤ (refill^[blocks] letters).ready.length) :
    letters.take? count =
      some ((refill^[blocks] letters).ready.take count, (refill^[blocks] letters).spend count) := by
  induction blocks generalizing letters with
  | zero =>
    rw [take?, if_pos (show count ≤ letters.ready.length from henough)]
    rfl
  | succ blocks ih =>
    have hnot : ¬ count ≤ letters.ready.length := Nat.not_le.2 (hfew 0 (Nat.zero_lt_succ blocks))
    rw [take?, if_neg hnot]
    exact ih (fun fewer hlt => hfew (fewer + 1) (Nat.succ_lt_succ hlt)) henough

end Letters

/-! ## The issuer -/

namespace Issuer

/-- The ids that are in use are pairwise different ids, and the stream has more of them. -/
structure Proper (issuer : Issuer) : Prop where
  nodup : issuer.issued.Nodup
  isId : ∀ word ∈ issuer.issued, IsId word
  letters : issuer.letters.Proper

theorem proper_ofSeed (seed : UInt64) : (ofSeed seed).Proper :=
  ⟨List.nodup_nil, fun _ hmem => absurd hmem List.not_mem_nil, fun _ hmem => absurd hmem List.not_mem_nil⟩

theorem issued_of_next? {issuer rest : Issuer} {word : String} (h : issuer.next? = some (word, rest)) :
    rest.issued = word :: issuer.issued := by
  obtain ⟨⟨drawn, letters⟩, -, heq⟩ := Option.map_eq_some_iff.1 h
  obtain ⟨rfl, rfl⟩ := Prod.mk.inj heq
  rfl

theorem Proper.next? {issuer rest : Issuer} {word : String} (hproper : issuer.Proper)
    (h : issuer.next? = some (word, rest)) : rest.Proper := by
  obtain ⟨⟨drawn, letters⟩, hfresh, heq⟩ := Option.map_eq_some_iff.1 h
  obtain ⟨rfl, rfl⟩ := Prod.mk.inj heq
  obtain ⟨hnot, hid, hletters⟩ := Letters.fresh?_spec hfresh hproper.letters
  exact ⟨List.nodup_cons.2 ⟨hnot, hproper.nodup⟩, List.forall_mem_cons.2 ⟨hid, hproper.isId⟩, hletters⟩

/-- The next id and the issuer after it, if the word is found in the first draw and takes so many more blocks. -/
def drawn (blocks : Nat) (issuer : Issuer) : String × Issuer :=
  let letters := Letters.refill^[blocks] issuer.letters
  let word := String.ofList (letters.ready.take idLength)
  (word, ⟨letters.spend idLength, word :: issuer.issued⟩)

/-- The next word takes exactly so many more blocks of the stream, and it is free. -/
def DrawsIn (blocks : Nat) (issuer : Issuer) : Prop :=
  (∀ fewer < blocks, (Letters.refill^[fewer] issuer.letters).ready.length < idLength) ∧
    idLength ≤ (Letters.refill^[blocks] issuer.letters).ready.length ∧ (issuer.drawn blocks).1 ∉ issuer.issued

instance (blocks : Nat) (issuer : Issuer) : Decidable (issuer.DrawsIn blocks) :=
  inferInstanceAs (Decidable (_ ∧ _))

theorem next?_eq_some {issuer : Issuer} {blocks : Nat} (h : issuer.DrawsIn blocks) :
    issuer.next? = some (issuer.drawn blocks) := by
  obtain ⟨hfew, henough, hfree⟩ := h
  have hword : issuer.letters.word? =
      some ((issuer.drawn blocks).1, (Letters.refill^[blocks] issuer.letters).spend idLength) := by
    rw [Letters.word?, Letters.take?_eq_some hfew henough]
    rfl
  rw [next?, Letters.fresh?, hword]
  simp only [Option.bind_eq_bind, Option.bind_some, List.contains_eq_mem, decide_eq_true_eq, if_neg hfree,
    Option.map_some]
  rfl

theorem after?_succ_eq_some {issuer last : Issuer} {count : Nat} (h : issuer.after? (count + 1) = some last) :
    ∃ before word, issuer.after? count = some before ∧ before.next? = some (word, last) := by
  obtain ⟨before, hbefore, h⟩ := Option.bind_eq_some_iff.1 h
  obtain ⟨⟨word, rest⟩, hnext, heq⟩ := Option.bind_eq_some_iff.1 h
  obtain rfl := Option.some.inj heq
  exact ⟨before, word, hbefore, hnext⟩

theorem after?_succ_of_next? {issuer before : Issuer} {count : Nat} {drawn : String × Issuer}
    (hbefore : issuer.after? count = some before) (hnext : before.next? = some drawn) :
    issuer.after? (count + 1) = some drawn.2 := by
  simp [after?, hbefore, hnext]

theorem proper_after {seed : UInt64} {count : Nat} {issuer : Issuer} (h : (ofSeed seed).after? count = some issuer) :
    issuer.Proper ∧ issuer.issued.length = count := by
  induction count generalizing issuer with
  | zero =>
    obtain rfl := Option.some.inj h
    exact ⟨proper_ofSeed seed, rfl⟩
  | succ count ih =>
    obtain ⟨before, word, hbefore, hnext⟩ := after?_succ_eq_some h
    obtain ⟨hproper, hlength⟩ := ih hbefore
    exact ⟨hproper.next? hnext, by rw [issued_of_next? hnext, List.length_cons, hlength]⟩

end Issuer

/-! ## The ids of a seed -/

theorem firstIds?_spec {seed : UInt64} {count : Nat} {ids : List String} (h : firstIds? seed count = some ids) :
    ids.length = count ∧ ids.Nodup ∧ ∀ id ∈ ids, IsId id := by
  obtain ⟨issuer, hissuer, rfl⟩ := Option.map_eq_some_iff.1 h
  obtain ⟨hproper, hlength⟩ := Issuer.proper_after hissuer
  exact ⟨by rw [List.length_reverse, hlength], List.nodup_reverse.2 hproper.nodup,
    fun id hmem => hproper.isId id (List.mem_reverse.1 hmem)⟩

theorem firstIds?_seven : firstIds? 7 2 = some ["BTIhQKPHsnBFX23jfnZX", "dwOQ43B5Zc7TiAkbRNpI"] := by
  let first := (Issuer.ofSeed 7).drawn 3
  let second := first.2.drawn 3
  have hdraws : (Issuer.ofSeed 7).DrawsIn 3 ∧ first.2.DrawsIn 3 ∧ first.1 = "BTIhQKPHsnBFX23jfnZX" ∧
      second.1 = "dwOQ43B5Zc7TiAkbRNpI" := by
    decide +kernel
  obtain ⟨hfirst, hsecond, hword, hother⟩ := hdraws
  have hafter : (Issuer.ofSeed 7).after? 2 = some second.2 :=
    Issuer.after?_succ_of_next? (Issuer.after?_succ_of_next? rfl (Issuer.next?_eq_some hfirst))
      (Issuer.next?_eq_some hsecond)
  rw [firstIds?, hafter, ← hword, ← hother]
  rfl

/-- The id that a fresh issuer gives out after `index` others. -/
def nth? (seed : UInt64) (index : Nat) : Option String := do
  let (word, _) ← (← (Issuer.ofSeed seed).after? index).next?
  some word

theorem nth?_eq_getElem? {seed : UInt64} {count index : Nat} {ids : List String} (h : firstIds? seed count = some ids)
    (hlt : index < count) : nth? seed index = ids[index]? := by
  induction count generalizing ids with
  | zero => omega
  | succ count ih =>
    obtain ⟨issuer, hissuer, rfl⟩ := Option.map_eq_some_iff.1 h
    obtain ⟨before, word, hbefore, hnext⟩ := Issuer.after?_succ_eq_some hissuer
    have hlength : before.issued.reverse.length = count := by
      rw [List.length_reverse, (Issuer.proper_after hbefore).2]
    rw [Issuer.issued_of_next? hnext, List.reverse_cons]
    rcases Nat.lt_succ_iff_lt_or_eq.1 hlt with hlt | rfl
    · rw [List.getElem?_append_left (by omega), ih (by rw [firstIds?, hbefore]; rfl) hlt]
    · rw [List.getElem?_append_right (by omega), hlength, Nat.sub_self, nth?, hbefore]
      show (before.next?.bind fun drawn => some drawn.1) = _
      rw [hnext]
      rfl

theorem firstIds_eq_of_some {seed : UInt64} {count : Nat} {ids : List String} (h : firstIds? seed count = some ids) :
    firstIds seed count = ids := by
  rw [firstIds, h, Option.getD_some]

end ScratchScript.BlockId
