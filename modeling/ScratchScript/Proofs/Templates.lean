import ScratchScript.Proofs.Forms
import ScratchScript.Proofs.Reading

/-!
# Wordings with open operands

A template is a line in which the operands are left open, such as `wait (…) secs`. `Form.trace` reads a template in the
way that `Form.read?` reads a line. It follows the letters, and at an operand it goes by what holds of all operands:
they are not empty, do not start or end with white space and hold no bracket. The verdict is that the form reads the
line and what its holes take, that it does not read the line, or that this depends on the operands.

`Form.tells_trace` says that a verdict is right for every choice of operands. The step that needs an argument is a hole
that comes to an operand (`Form.read?_hole_append`): if the form goes on with a bracket or with the end of the line, the
hole cannot end inside the operand, so it takes all of it.
-/

namespace ScratchScript

/-! ## Operands -/

def operandBrackets : List Char := ['(', ')', '[', ']']

theorem forall_mem_operandBrackets {p : Char → Prop} :
    (∀ bracket ∈ operandBrackets, p bracket) ↔ p '(' ∧ p ')' ∧ p '[' ∧ p ']' := by
  simp [operandBrackets]

/-- What may stand as an operand between brackets. -/
structure OperandText (text : List Char) : Prop where
  ne_nil : text ≠ []
  startsBare : Text.StartsBare text
  endsBare : Text.EndsBare text
  noNewline : '\n' ∉ text
  noBracket : ∀ c ∈ text, c ∉ operandBrackets

instance (text : List Char) : Decidable (OperandText text) :=
  decidable_of_iff
    ((!text.isEmpty && decide (Text.StartsBare text) && decide (Text.EndsBare text) && !text.contains '\n' &&
      text.all fun c => !operandBrackets.contains c) = true) <| by
    simp only [Bool.and_eq_true, decide_eq_true_eq, Bool.not_eq_true', List.isEmpty_eq_false_iff, List.all_eq_true,
      List.contains_eq_mem, decide_eq_false_iff_not]
    constructor
    · rintro ⟨⟨⟨⟨hne, hstart⟩, hend⟩, hline⟩, hbracket⟩
      exact ⟨hne, hstart, hend, hline, hbracket⟩
    · intro h
      exact ⟨⟨⟨⟨h.ne_nil, h.startsBare⟩, h.endsBare⟩, h.noNewline⟩, h.noBracket⟩

theorem OperandText.admits {text : List Char} (h : OperandText text) (filling : Filling) :
    ∀ c ∈ text, filling.admits c = true := by
  intro c hc
  cases filling with
  | inline =>
    have hne : c ≠ '\n' := fun heq => h.noNewline (heq ▸ hc)
    simpa [Filling.admits] using hne
  | unclosed =>
    have hne : c ≠ ']' := fun heq => h.noBracket c hc (heq ▸ by decide)
    simpa [Filling.admits] using hne

theorem Text.sameLetter_bracket {bracket c : Char} (hbracket : bracket ∈ operandBrackets) (hc : c ∉ operandBrackets) :
    sameLetter bracket c = false := by
  have hself : ∀ b ∈ operandBrackets, foldCase b = b ∧ b.toNat ≠ 0 ∧ b.toNat < 128 :=
    forall_mem_operandBrackets.2 (by decide)
  have hascii : ∀ n < 128, (Char.ofNat n).toLower ∈ operandBrackets → Char.ofNat n ∈ operandBrackets := by decide
  obtain ⟨hfold, hne, hlt⟩ := hself bracket hbracket
  rw [Bool.eq_false_iff]
  intro hsame
  have hfolds : foldCase c = bracket := by rw [← beq_iff_eq.1 hsame, hfold]
  rw [← hfolds] at hne hlt
  apply hc
  rcases eq_or_of_foldCase_ascii hne hlt with ⟨hn, hlower⟩ | rfl | rfl
  · rw [← Char.ofNat_toNat c]
    apply hascii c.toNat hn
    rwa [Char.ofNat_toNat, ← hlower, hfolds]
  · rw [← hfolds] at hbracket
    exact absurd hbracket (by decide)
  · rw [← hfolds] at hbracket
    exact absurd hbracket (by decide +kernel)

/-! ## Templates -/

/-- A letter of a wording, or the place of an operand. Operands are counted from 0. -/
inductive Token
  | letter (c : Char)
  | operand (index : Nat)
  deriving DecidableEq, Repr

/-- A line with its operands left open. -/
abbrev Template := List Token

def Token.fill (operands : Nat → List Char) : Token → List Char
  | letter c => [c]
  | operand index => operands index

def Template.fill (operands : Nat → List Char) (template : Template) : List Char :=
  template.flatMap (Token.fill operands)

namespace Template

variable {operands : Nat → List Char}

@[simp] theorem fill_nil : fill operands [] = [] :=
  rfl

@[simp] theorem fill_letter (c : Char) (template : Template) :
    fill operands (.letter c :: template) = c :: fill operands template :=
  rfl

@[simp] theorem fill_operand (index : Nat) (template : Template) :
    fill operands (.operand index :: template) = operands index ++ fill operands template :=
  rfl

theorem fill_cons (token : Token) (template : Template) :
    fill operands (token :: template) = token.fill operands ++ fill operands template :=
  rfl

end Template

/-! ## Verdicts -/

/-- What is known of a reading before the operands are. -/
inductive Verdict (α : Type)
  | reads (result : α)
  | fails
  | depends
  deriving DecidableEq, Repr

namespace Verdict

variable {α β γ δ : Type}

def or : Verdict α → Verdict α → Verdict α
  | fails, second => second
  | first, _ => first

def bind : Verdict α → (α → Verdict β) → Verdict β
  | reads result, next => next result
  | fails, _ => fails
  | depends, _ => depends

def map (f : α → β) (verdict : Verdict α) : Verdict β :=
  verdict.bind fun result => reads (f result)

def findSome {ι : Type} (trace : ι → Verdict α) : List ι → Verdict α
  | [] => fails
  | i :: rest => (trace i).or (findSome trace rest)

/-- The verdict is right about the outcome: what is read is the value of the result, once the operands are known. -/
def Tells (value : α → β) : Verdict α → Option β → Prop
  | reads result, outcome => outcome = some (value result)
  | fails, outcome => outcome = none
  | depends, _ => True

theorem Tells.or {value : α → β} {first second : Verdict α} {x y : Option β} (hfirst : first.Tells value x)
    (hsecond : second.Tells value y) : (first.or second).Tells value (x.or y) := by
  cases first with
  | reads result =>
    rw [show x = some (value result) from hfirst]
    rfl
  | fails =>
    rw [show x = none from hfirst]
    exact hsecond
  | depends => trivial

theorem Tells.bind {value : α → β} {value' : γ → δ} {verdict : Verdict α} {next : α → Verdict γ} {x : Option β}
    {k : β → Option δ} (h : verdict.Tells value x)
    (hnext : ∀ result, (next result).Tells value' (k (value result))) :
    (verdict.bind next).Tells value' (x.bind k) := by
  cases verdict with
  | reads result =>
    rw [show x = some (value result) from h]
    exact hnext result
  | fails =>
    rw [show x = none from h]
    exact rfl
  | depends => trivial

theorem Tells.map {value : α → β} {value' : γ → δ} {verdict : Verdict α} {f : α → γ} {g : β → δ} {x : Option β}
    (h : verdict.Tells value x) (hcomm : ∀ result, value' (f result) = g (value result)) :
    (verdict.map f).Tells value' (x.map g) := by
  rw [Option.map_eq_bind]
  refine h.bind ?_
  intro result
  exact congrArg some (hcomm result).symm

theorem Tells.findSome {ι : Type} {value : α → β} {trace : ι → Verdict α} {read : ι → Option β}
    (h : ∀ i, (trace i).Tells value (read i)) (l : List ι) : (findSome trace l).Tells value (l.findSome? read) := by
  induction l with
  | nil => exact rfl
  | cons i rest ih =>
    have hcons : (i :: rest).findSome? read = (read i).or (rest.findSome? read) := by
      cases hread : read i <;> simp [hread]
    rw [hcons]
    exact (h i).or ih

end Verdict

/-- One of two alternatives or else the other: a hole that prefers to be short tries the short one first. -/
def Reach.prefer {α : Type} (orElse : α → α → α) (short long : α) : Reach → α
  | .shortest => orElse short long
  | .longest => orElse long short

theorem Verdict.Tells.prefer {α β : Type} {value : α → β} {short long : Verdict α} {x y : Option β}
    (hshort : short.Tells value x) (hlong : long.Tells value y) (reach : Reach) :
    (reach.prefer Verdict.or short long).Tells value (reach.prefer Option.or x y) := by
  cases reach
  · exact hshort.or hlong
  · exact hlong.or hshort

/-! ## Reading along a text -/

namespace Piece

theorem tries_zero_zero (reach : Reach) : tries 0 0 reach = [0] := by
  cases reach <;> rfl

theorem tries_succ_zero (least : Nat) (reach : Reach) : tries (least + 1) 0 reach = [] := by
  cases reach <;> simp [tries]

theorem tries_zero_succ (most : Nat) (reach : Reach) :
    tries 0 (most + 1) reach = reach.prefer (· ++ ·) [0] ((tries 0 most reach).map (1 + ·)) := by
  have hcons : List.range' 0 (most + 1 + 1) = 0 :: (List.range' 0 (most + 1)).map (1 + ·) := by
    rw [List.range'_succ, List.map_add_range']
  cases reach <;> simp only [tries, Reach.prefer, Nat.sub_zero, hcons] <;> simp [List.map_reverse]

theorem tries_succ_succ (least most : Nat) (reach : Reach) :
    tries (least + 1) (most + 1) reach = (tries least most reach).map (1 + ·) := by
  have hmap := List.map_add_range' (a := 1) least (most + 1 - least) 1
  rw [Nat.add_comm 1 least] at hmap
  cases reach <;> simp [tries, List.map_reverse, hmap]

end Piece

/-- The texts of the holes with more at the start of the first one. -/
def lengthen {α : Type} (more : List α) : List (List α) → List (List α)
  | [] => []
  | hole :: holes => (more ++ hole) :: holes

theorem lengthen_lengthen {α : Type} (first second : List α) (holes : List (List α)) :
    lengthen first (lengthen second holes) = lengthen (first ++ second) holes := by
  cases holes <;> simp [lengthen]

theorem lengthen_nil {α : Type} : lengthen ([] : List α) = id := by
  funext holes
  cases holes <;> rfl

namespace Form

variable {form : Form} {filling : Filling} {reach : Reach} {least : Nat} {c : Char} {text : List Char}

theorem read?_word_eq (spellings : List String) :
    read? (.word spellings :: form) text = spellings.findSome? fun spelling =>
      if Text.startsWith spelling.toList text then read? form (text.drop spelling.toList.length) else none := by
  induction spellings with
  | nil => rfl
  | cons spelling spellings ih =>
    cases h : Text.startsWith spelling.toList text with
    | false => simp [read?_word_skip spelling spellings h, ih, h]
    | true =>
      rw [List.findSome?_cons, ← ih, h, if_pos rfl, String.length_toList]
      simp only [read?, Piece.lengths, List.filter_cons, h, if_true, List.map_cons, List.findSome?_cons]
      cases read? form (text.drop spelling.length) <;> simp [Piece.kept]

theorem read?_hole_zero_nil :
    read? (.hole filling 0 reach :: form) [] = (read? form []).map ([] :: ·) := by
  simp [read?, Piece.lengths, Piece.tries_zero_zero, Piece.kept]

theorem read?_hole_succ_nil : read? (.hole filling (least + 1) reach :: form) [] = none := by
  simp [read?, Piece.lengths, Piece.tries_succ_zero]

theorem read?_hole_zero_stop (h : filling.admits c = false) :
    read? (.hole filling 0 reach :: form) (c :: text) = (read? form (c :: text)).map ([] :: ·) := by
  simp [read?, Piece.lengths, h, Piece.tries_zero_zero, Piece.kept]

theorem read?_hole_succ_stop (h : filling.admits c = false) :
    read? (.hole filling (least + 1) reach :: form) (c :: text) = none := by
  simp [read?, Piece.lengths, h, Piece.tries_succ_zero]

theorem findSome?_map_hole (lengths : List Nat) :
    ((lengths.map (1 + ·)).findSome? fun n =>
        (read? form ((c :: text).drop n)).map (Piece.kept (.hole filling least reach) ((c :: text).take n) ++ ·)) =
      (lengths.findSome? fun n =>
        (read? form (text.drop n)).map (Piece.kept (.hole filling least reach) (text.take n) ++ ·)).map
          (lengthen [c]) := by
  induction lengths with
  | nil => rfl
  | cons n lengths ih =>
    simp only [List.map_cons, List.findSome?_cons, ih, Nat.add_comm 1 n, List.drop_succ_cons, List.take_succ_cons]
    cases read? form (text.drop n) <;> simp [lengthen, Piece.kept]

theorem read?_hole_succ_cons (h : filling.admits c = true) :
    read? (.hole filling (least + 1) reach :: form) (c :: text) =
      (read? (.hole filling least reach :: form) text).map (lengthen [c]) := by
  simp only [read?, Piece.lengths, List.takeWhile_cons, h, if_true, List.length_cons, Piece.tries_succ_succ]
  exact findSome?_map_hole _

theorem read?_hole_zero_cons (h : filling.admits c = true) :
    read? (.hole filling 0 reach :: form) (c :: text) =
      reach.prefer Option.or ((read? form (c :: text)).map ([] :: ·))
        ((read? (.hole filling 0 reach :: form) text).map (lengthen [c])) := by
  simp only [read?, Piece.lengths, List.takeWhile_cons, h, if_true, List.length_cons, Piece.tries_zero_succ]
  rw [← findSome?_map_hole]
  cases reach <;> simp only [Reach.prefer, List.findSome?_append] <;> simp [Piece.kept]

theorem read?_gap_cons (h : Text.isBlank c = true) :
    read? (.gap :: form) (c :: text) = (read? (.gap :: form) text).or (read? form (c :: text)) := by
  simp only [read?, Piece.lengths, List.takeWhile_cons, h, if_true, List.length_cons, Piece.tries_zero_succ,
    Reach.prefer, List.findSome?_append, List.findSome?_map]
  simp [Piece.kept, Function.comp_def, Nat.add_comm 1]

theorem read?_gap_stop (h : Text.StartsBare text) : read? (.gap :: form) text = read? form text := by
  have htake : text.takeWhile Text.isBlank = [] := by
    cases text with
    | nil => rfl
    | cons c rest => simp [h c rest rfl]
  simp [read?, Piece.lengths, htake, Piece.tries_zero_zero, Piece.kept]

/-! ## Holes and operands -/

/-- Whether the form can only go on with a bracket or end with the line. -/
def isShut : Form → Bool
  | .word spellings :: _ => spellings.all fun spelling => spelling.toList.head?.any operandBrackets.contains
  | .lineEnd :: _ => true
  | _ => false

theorem read?_eq_none_of_isShut (hshut : form.isShut = true) (hc : c ∉ operandBrackets) :
    read? form (c :: text) = none := by
  match form with
  | .word spellings :: form =>
    have hfilter : (spellings.filter fun spelling => Text.startsWith spelling.toList (c :: text)) = [] := by
      rw [List.filter_eq_nil_iff]
      intro spelling hspelling
      have hhead := List.all_eq_true.1 hshut spelling hspelling
      cases hletters : spelling.toList with
      | nil => simp [hletters] at hhead
      | cons bracket rest =>
        have hbracket : bracket ∈ operandBrackets := by simpa [hletters] using hhead
        simp [Text.startsWith, Text.sameLetter_bracket hbracket hc]
    simp [read?, Piece.lengths, hfilter]
  | .lineEnd :: form => simp [read?, Piece.lengths]

theorem read?_hole_zero_append (hshut : form.isShut = true) {s : List Char}
    (hadmits : ∀ c ∈ s, filling.admits c = true) (hbracket : ∀ c ∈ s, c ∉ operandBrackets) :
    read? (.hole filling 0 reach :: form) (s ++ text) =
      (read? (.hole filling 0 reach :: form) text).map (lengthen s) := by
  induction s with
  | nil => simp [lengthen_nil]
  | cons c s ih =>
    rw [List.forall_mem_cons] at hadmits hbracket
    -- ending before `c` leaves the form with a text that it cannot read
    rw [List.cons_append, read?_hole_zero_cons hadmits.1, read?_eq_none_of_isShut hshut hbracket.1,
      ih hadmits.2 hbracket.2]
    cases reach <;> simp [Reach.prefer, Function.comp_def, lengthen_lengthen]

/-- A hole before a form that is shut takes an operand as a whole. -/
theorem read?_hole_append (hshut : form.isShut = true) {operand : List Char} (h : OperandText operand)
    (hleast : least ≤ 1) :
    read? (.hole filling least reach :: form) (operand ++ text) =
      (read? (.hole filling 0 reach :: form) text).map (lengthen operand) := by
  have hadmits := h.admits filling
  have hbracket := h.noBracket
  rcases Nat.le_one_iff_eq_zero_or_eq_one.1 hleast with rfl | rfl
  · exact read?_hole_zero_append hshut hadmits hbracket
  · obtain ⟨c, rest, rfl⟩ := List.exists_cons_of_ne_nil h.ne_nil
    rw [List.forall_mem_cons] at hadmits hbracket
    rw [List.cons_append, read?_hole_succ_cons hadmits.1, read?_hole_zero_append hshut hadmits.2 hbracket.2]
    simp [Function.comp_def, lengthen_lengthen]

end Form

/-! ## Traces -/

namespace Template

/-- What is left of the template after a wording. A letter may be the first one of an operand, but a bracket is not. -/
def after : List Char → Template → Verdict Template
  | [], template => .reads template
  | _ :: _, [] => .fails
  | a :: wording, .letter c :: template => if Text.sameLetter a c then after wording template else .fails
  | a :: _, .operand _ :: _ => if operandBrackets.contains a then .fails else .depends

/-- White space and then what comes next. An operand starts with none. -/
def skip {α : Type} (next : Template → Verdict α) : Template → Verdict α
  | [] => next []
  | .letter c :: template =>
    if Text.isBlank c then (skip next template).or (next (.letter c :: template)) else next (.letter c :: template)
  | .operand index :: template => next (.operand index :: template)

/-- A hole and then what comes next, which is shut or not. -/
def seek (next : Template → Verdict (List Template)) (shut : Bool) (filling : Filling) (reach : Reach) :
    Nat → Template → Verdict (List Template)
  | 0, [] => (next []).map ([] :: ·)
  | _ + 1, [] => .fails
  | 0, .letter c :: template =>
    if filling.admits c then
      reach.prefer Verdict.or ((next (.letter c :: template)).map ([] :: ·))
        ((seek next shut filling reach 0 template).map (lengthen [.letter c]))
    else (next (.letter c :: template)).map ([] :: ·)
  | least + 1, .letter c :: template =>
    if filling.admits c then (seek next shut filling reach least template).map (lengthen [.letter c]) else .fails
  | least, .operand index :: template =>
    if shut && least ≤ 1 then (seek next shut filling reach 0 template).map (lengthen [.operand index]) else .depends

end Template

/-- A piece and then what comes next, which is shut or not. -/
def Piece.trace (next : Template → Verdict (List Template)) (shut : Bool) :
    Piece → Template → Verdict (List Template)
  | word spellings, template =>
    .findSome (fun spelling => (template.after spelling.toList).bind next) spellings
  | gap, template => template.skip next
  | hole filling least reach, template => template.seek next shut filling reach least
  | wordEnd, [] => next []
  | wordEnd, .letter c :: template => if Text.isWordChar c then .fails else next (.letter c :: template)
  | wordEnd, .operand _ :: _ => .depends
  | lineEnd, [] => next []
  | lineEnd, _ :: _ => .fails

/-- What the holes of the form take at the beginning of the template, whatever the operands are. -/
def Form.trace : Form → Template → Verdict (List Template)
  | [] => fun _ => .reads []
  | piece :: form => piece.trace (trace form) (isShut form)

section

variable {operands : Nat → List Char} (hoperands : ∀ index, OperandText (operands index))
include hoperands

theorem Template.tells_after (wording : List Char) (template : Template) :
    (template.after wording).Tells (fill operands)
      (if Text.startsWith wording (template.fill operands) then some ((template.fill operands).drop wording.length)
        else none) := by
  fun_induction Template.after wording template with
  | case1 template => exact rfl
  | case2 a wording => exact rfl
  | case3 a wording c template hsame ih => simpa [Text.startsWith, hsame] using ih
  | case4 a wording c template hsame => simp [Text.startsWith, hsame, Verdict.Tells]
  | case5 a wording index template hbracket =>
    obtain ⟨c, rest, hcons⟩ := List.exists_cons_of_ne_nil (hoperands index).ne_nil
    have hc : c ∉ operandBrackets := (hoperands index).noBracket c (by simp [hcons])
    have hsame := Text.sameLetter_bracket (List.contains_iff_mem.1 hbracket) hc
    simp [hcons, Text.startsWith, hsame, Verdict.Tells]
  | case6 => trivial

variable {form : Form} {next : Template → Verdict (List Template)}
  (hnext : ∀ template, (next template).Tells (List.map (Template.fill operands)) (form.read? (template.fill operands)))
include hnext

theorem Template.tells_skip (template : Template) :
    (template.skip next).Tells (List.map (fill operands)) (Form.read? (.gap :: form) (template.fill operands)) := by
  fun_induction Template.skip next template with
  | case1 => simpa [Form.read?_gap_stop Text.startsBare_nil] using hnext []
  | case2 c template hblank ih =>
    rw [fill_letter, Form.read?_gap_cons hblank]
    exact ih.or (hnext _)
  | case3 c template hblank =>
    rw [Bool.not_eq_true] at hblank
    rw [fill_letter, Form.read?_gap_stop (Text.startsBare_cons hblank _)]
    exact hnext _
  | case4 index template =>
    have hbare := (hoperands index).startsBare.append (hoperands index).ne_nil (fill operands template)
    rw [fill_operand, Form.read?_gap_stop hbare]
    exact hnext _

theorem Template.tells_seek (filling : Filling) (reach : Reach) (least : Nat) (template : Template) :
    (template.seek next form.isShut filling reach least).Tells (List.map (fill operands))
      (Form.read? (.hole filling least reach :: form) (template.fill operands)) := by
  have hlengthen : ∀ (token : Token) (holes : List Template),
      (lengthen [token] holes).map (fill operands) = lengthen (token.fill operands) (holes.map (fill operands)) := by
    intro token holes
    cases holes <;> simp [lengthen, fill_cons]
  have hempty : ∀ template, ((next template).map ([] :: ·)).Tells (List.map (fill operands))
      ((form.read? (template.fill operands)).map ([] :: ·)) :=
    fun template => (hnext template).map fun holes => rfl
  fun_induction Template.seek next form.isShut filling reach least template with
  | case1 =>
    rw [fill_nil, Form.read?_hole_zero_nil]
    exact hempty []
  | case2 least => exact Form.read?_hole_succ_nil
  | case3 c template hadmits ih =>
    rw [fill_letter, Form.read?_hole_zero_cons hadmits]
    exact (hempty _).prefer (ih.map (hlengthen _)) reach
  | case4 c template hadmits =>
    rw [Bool.not_eq_true] at hadmits
    rw [fill_letter, Form.read?_hole_zero_stop hadmits]
    exact hempty _
  | case5 least c template hadmits ih =>
    rw [fill_letter, Form.read?_hole_succ_cons hadmits]
    exact ih.map (hlengthen _)
  | case6 least c template hadmits =>
    rw [Bool.not_eq_true] at hadmits
    exact Form.read?_hole_succ_stop hadmits
  | case7 least index template hshut ih =>
    rw [Bool.and_eq_true, decide_eq_true_eq] at hshut
    rw [fill_operand, Form.read?_hole_append hshut.1 (hoperands index) hshut.2]
    exact ih.map (hlengthen _)
  | case8 => trivial

theorem Piece.tells_trace (piece : Piece) (template : Template) :
    (piece.trace next form.isShut template).Tells (List.map (Template.fill operands))
      (Form.read? (piece :: form) (template.fill operands)) := by
  cases piece with
  | word spellings =>
    rw [Form.read?_word_eq]
    refine Verdict.Tells.findSome ?_ spellings
    intro spelling
    have hafter := (Template.tells_after hoperands spelling.toList template).bind hnext
    cases hstarts : Text.startsWith spelling.toList (template.fill operands) with
    | false => simpa [hstarts] using hafter
    | true => simpa [hstarts] using hafter
  | gap => exact Template.tells_skip hoperands hnext template
  | hole filling least reach => exact Template.tells_seek hoperands hnext filling reach least template
  | wordEnd =>
    match template with
    | [] => simpa [trace, Form.read?, lengths, kept] using hnext []
    | .letter c :: template =>
      cases hword : Text.isWordChar c with
      | true => simp [trace, hword, Form.read?, lengths, Verdict.Tells]
      | false => simpa [trace, hword, Form.read?, lengths, kept] using hnext (.letter c :: template)
    | .operand _ :: _ => trivial
  | lineEnd =>
    match template with
    | [] => simpa [trace, Form.read?, lengths, kept] using hnext []
    | .letter c :: template => simp [trace, Form.read?, lengths, Verdict.Tells]
    | .operand index :: template => simp [trace, Form.read?, lengths, Verdict.Tells, (hoperands index).ne_nil]

omit hnext in
/-- What a trace says of a form holds whatever the operands are. -/
theorem Form.tells_trace (form : Form) (template : Template) :
    (form.trace template).Tells (List.map (Template.fill operands)) (form.read? (template.fill operands)) := by
  induction form generalizing template with
  | nil => exact rfl
  | cons piece form ih => exact Piece.tells_trace hoperands ih piece template

end

end ScratchScript
