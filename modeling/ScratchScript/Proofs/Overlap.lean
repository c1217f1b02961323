import Mathlib.Data.List.Perm.Basic
import ScratchScript.Proofs.Forms
import ScratchScript.Vocabulary.Classify

/-!
# Which wordings overlap

The rules of the vocabulary are tried in order, and for most of them the order does not matter: no line is read by both.
`overlaps` lists the pairs for which it does, seven in all, and `priority_only_for_overlaps` says that there are no
others and what follows: any other order in which each of the seven pairs stands as it does here reads every line alike.
-/

namespace ScratchScript

/-! ## Rules -/

namespace Vocabulary

def Rule.openings (rule : Rule) : List Opening :=
  rule.forms.flatMap Form.openings

/-- Whether each wording of one rule clashes with each of the other. -/
def Rule.isApart (rule other : Rule) : Bool :=
  rule.openings.all fun opening => other.openings.all opening.clash

theorem Rule.exists_opening {rule : Rule} {line lowered : List Char} {statement : Statement}
    (h : rule.read? line lowered = some statement) : ∃ opening ∈ rule.openings, opening.begins line = true := by
  unfold Rule.read? at h
  split at h
  · simp at h
  · obtain ⟨holes, hholes, -⟩ := Option.map_eq_some_iff.1 h
    obtain ⟨form, hform, hread⟩ := List.exists_of_findSome?_eq_some hholes
    obtain ⟨opening, hopening, hbegins⟩ := Form.exists_opening hread
    exact ⟨opening, List.mem_flatMap.2 ⟨form, hform, hopening⟩, hbegins⟩

theorem Rule.read?_eq_none_of_isApart {rule other : Rule} (hapart : rule.isApart other = true)
    {line lowered : List Char} {statement : Statement} (h : rule.read? line lowered = some statement) :
    other.read? line lowered = none := by
  by_contra hother
  obtain ⟨otherStatement, hother⟩ := Option.ne_none_iff_exists'.1 hother
  obtain ⟨opening, hopening, hbegins⟩ := Rule.exists_opening h
  obtain ⟨second, hsecond, hsecondBegins⟩ := Rule.exists_opening hother
  have hclash := List.all_eq_true.1 (List.all_eq_true.1 hapart opening hopening) second hsecond
  simp [Opening.begins_eq_false_of_clash hclash hbegins] at hsecondBegins

/-- The pairs of rules that can read the same line, the one that is tried earlier first. -/
def overlaps : List (String × String) := [
  ("when this sprite clicked", "when green flag clicked"),
  ("broadcast and wait", "broadcast"),
  ("if on edge, bounce", "if"),
  ("go to layer", "go to"),
  ("say for secs", "say"),
  ("think for secs", "think"),
  ("play sound until done", "start sound")]

theorem rules_apart :
    rules.Pairwise fun earlier later => earlier.isApart later = true ∨ (earlier.name, later.name) ∈ overlaps := by
  decide +kernel

theorem overlaps_irreversible : ∀ pair ∈ overlaps, ∀ other ∈ overlaps, pair.2 ≠ other.1 := by
  decide

/-- A rule that reads a line says what the line says, unless an earlier rule that overlaps with it reads the line
too. -/
theorem findSome?_rules {rule : Rule} (hrule : rule ∈ rules) {line lowered : List Char} {statement : Statement}
    (h : rule.read? line lowered = some statement)
    (hearlier : ∀ earlier ∈ rules, (earlier.name, rule.name) ∈ overlaps → earlier.read? line lowered = none) :
    (rules.findSome? fun rule => rule.read? line lowered) = some statement := by
  obtain ⟨front, back, hrules⟩ := List.append_of_mem hrule
  have hpairs := rules_apart
  rw [hrules, List.pairwise_append] at hpairs
  have hfront : (front.findSome? fun rule => rule.read? line lowered) = none := by
    rw [List.findSome?_eq_none_iff]
    intro earlier hmem
    rcases hpairs.2.2 earlier hmem rule List.mem_cons_self with hapart | hoverlap
    · by_contra hread
      obtain ⟨other, hother⟩ := Option.ne_none_iff_exists'.1 hread
      simp [Rule.read?_eq_none_of_isApart hapart hother] at h
    · exact hearlier earlier (hrules ▸ List.mem_append_left _ hmem) hoverlap
  rw [hrules, List.findSome?_append, hfront, Option.none_or, List.findSome?_cons, h]

/-! ## Orders of the rules -/

/-- All rules of the catalog that apply to the line, each with what the line says by it. -/
def matchesIn (catalog : List Rule) (line lowered : List Char) : List (Rule × Statement) :=
  catalog.filterMap fun rule => (rule.read? line lowered).map (rule, ·)

/-- What the line says if the rules are tried in the order of the catalog. -/
def classifyBy? (catalog : List Rule) (line : List Char) : Option (Rule × Statement) :=
  let line := Text.trim line
  if line.isEmpty || (Source.Marker.ofLine? line).isSome then none
  else catalog.findSome? fun rule => (rule.read? line (Text.lowercase line)).map (rule, ·)

/-- The catalog never has the later rule of an overlap before the earlier one. -/
def KeepsOverlaps (catalog : List Rule) : Prop :=
  catalog.Pairwise fun earlier later => (later.name, earlier.name) ∉ overlaps

/-- The first match and the second form an overlap. -/
def Overlap (first second : Rule × Statement) : Prop :=
  (first.1.name, second.1.name) ∈ overlaps

instance (catalog : List Rule) : Decidable (KeepsOverlaps catalog) :=
  inferInstanceAs (Decidable (List.Pairwise _ _))

theorem classifyBy?_rules : classifyBy? rules = classify? :=
  rfl

theorem classifyBy?_eq_of_matchesIn {catalog other : List Rule}
    (h : ∀ line lowered, matchesIn catalog line lowered = matchesIn other line lowered) (line : List Char) :
    classifyBy? catalog line = classifyBy? other line := by
  have hhead := congrArg List.head? (h (Text.trim line) (Text.lowercase (Text.trim line)))
  rw [matchesIn, matchesIn, List.head?_filterMap, List.head?_filterMap] at hhead
  simp only [classifyBy?, hhead]

theorem pairwise_matchesIn {catalog : List Rule} {p : Rule → Rule → Prop} {line lowered : List Char}
    (h : catalog.Pairwise p) :
    (matchesIn catalog line lowered).Pairwise fun first second => p first.1 second.1 := by
  refine h.filterMap _ ?_
  intro rule other hp first hfirst second hsecond
  obtain ⟨statement, -, rfl⟩ := Option.map_eq_some_iff.1 hfirst
  obtain ⟨otherStatement, -, rfl⟩ := Option.map_eq_some_iff.1 hsecond
  exact hp

theorem overlap_allMatches (line lowered : List Char) : (allMatches line lowered).Pairwise Overlap := by
  refine rules_apart.filterMap _ ?_
  intro rule other hp first hfirst second hsecond
  obtain ⟨statement, hstatement, rfl⟩ := Option.map_eq_some_iff.1 hfirst
  obtain ⟨otherStatement, hother, rfl⟩ := Option.map_eq_some_iff.1 hsecond
  rcases hp with hapart | hoverlap
  · simp [Rule.read?_eq_none_of_isApart hapart hstatement] at hother
  · exact hoverlap

theorem length_allMatches_le (line lowered : List Char) : (allMatches line lowered).length ≤ 2 := by
  have hpairs := overlap_allMatches line lowered
  match hmatches : allMatches line lowered with
  | [] | [_] | [_, _] => simp
  | first :: second :: third :: rest =>
    -- the second rule would be the later one of an overlap and the earlier one of another
    rw [hmatches] at hpairs
    simp only [List.pairwise_cons, List.mem_cons, forall_eq_or_imp] at hpairs
    obtain ⟨⟨hfirst, -⟩, ⟨hsecond, -⟩, -⟩ := hpairs
    exact absurd rfl (overlaps_irreversible _ hfirst _ hsecond)

theorem matchesIn_eq_allMatches {catalog : List Rule} (hperm : catalog.Perm rules) (hkeeps : KeepsOverlaps catalog)
    (line lowered : List Char) : matchesIn catalog line lowered = allMatches line lowered := by
  have hmatches : (matchesIn catalog line lowered).Perm (allMatches line lowered) := hperm.filterMap _
  have hpairs := overlap_allMatches line lowered
  -- a permutation keeps that two matches overlap one way or the other, and the order of the catalog says which way
  have heither : (matchesIn catalog line lowered).Pairwise fun first second =>
      Overlap first second ∨ Overlap second first := by
    refine (hmatches.pairwise_iff fun h => h.symm).2 (hpairs.imp ?_)
    exact .inl
  have hordered : (matchesIn catalog line lowered).Pairwise Overlap := by
    refine heither.imp₂ ?_ (pairwise_matchesIn hkeeps)
    intro first second hoverlap hnot
    exact hoverlap.resolve_right hnot
  refine hmatches.eq_of_pairwise ?_ hordered hpairs
  intro first second _ _ hforth hback
  exact absurd rfl (overlaps_irreversible _ hforth _ hback)

/-- A line is read by two rules at most, and only the seven overlaps make the order of the rules matter. -/
theorem priority_only_for_overlaps :
    (∀ line lowered, (allMatches line lowered).length ≤ 2 ∧
      ∀ first second, allMatches line lowered = [first, second] → (first.1.name, second.1.name) ∈ overlaps) ∧
    ∀ catalog : List Rule, catalog.Perm rules → KeepsOverlaps catalog →
      ∀ line, classifyBy? catalog line = classify? line := by
  refine ⟨?_, ?_⟩
  · intro line lowered
    refine ⟨length_allMatches_le line lowered, ?_⟩
    intro first second hmatches
    have hpairs := overlap_allMatches line lowered
    rw [hmatches] at hpairs
    exact List.rel_of_pairwise_cons hpairs (by simp)
  · intro catalog hperm hkeeps line
    rw [← classifyBy?_rules]
    exact classifyBy?_eq_of_matchesIn (matchesIn_eq_allMatches hperm hkeeps) line

def penFirst : List Rule :=
  pen ++ (events ++ control ++ motion ++ looks ++ sound ++ sensing ++ data ++ lists)

theorem priority_only_for_overlaps_penFirst :
    penFirst.Perm rules ∧ KeepsOverlaps penFirst ∧
      (allMatches "say [Hi] for (2) secs".toList []).map (·.1.name) = ["say for secs", "say"] ∧
      classifyBy? penFirst "say [Hi] for (2) secs".toList = classify? "say [Hi] for (2) secs".toList := by
  have hperm : penFirst.Perm rules := List.perm_append_comm
  have hkeeps : KeepsOverlaps penFirst := by decide +kernel
  exact ⟨hperm, hkeeps, by decide +kernel, priority_only_for_overlaps.2 penFirst hperm hkeeps _⟩

end Vocabulary

end ScratchScript
