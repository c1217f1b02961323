import Mathlib.Data.List.GetD
import ScratchScript.Proofs.Printing
import ScratchScript.Proofs.Templates

/-!
# The two languages

The phrasebook lists the statements that have operands in brackets. An entry has the English and the Spanish wordings
of a statement and its outline, which says where each operand is stored and in what form. `ofLine?_phrasebook`: whatever
the operands are, each line that a wording gives says exactly what the outline says, so the lines of the two languages
say the same.

The rules are run on the wordings with the operands left open (`outlineOf`), and the phrasebook is compared with what
comes out (`outlineOf_phrasebook`). That is a computation; that it speaks for all operands is `tells_outlineOf`.
-/

namespace ScratchScript

/-! ## Outlines -/

namespace Vocabulary

/-- A statement with its operands left open. The plans count operands here, not holes. -/
structure Outline where
  opcode : Opcode
  literals : List LiteralPlan := []
  fields : List FieldPlan := []
  deriving DecidableEq, Repr

def Outline.statement (outline : Outline) (operands : Nat → List Char) : Statement where
  opcode := outline.opcode
  literals := outline.literals.map fun plan => (plan.slot, ⟨plan.kind, plan.entry.value (operands plan.hole)⟩)
  fields := outline.fields.map fun plan => (plan.slot, plan.style.field (plan.entry.value (operands plan.hole)))

def Outline.operands (outline : Outline) : List Nat :=
  outline.literals.map (·.hole) ++ outline.fields.map (·.hole)

def Outline.slots (outline : Outline) : List String :=
  outline.literals.map (·.slot) ++ outline.fields.map (·.slot)

/-- The operand in a hole and how it is stored, if the hole holds one operand and nothing else. A free operand has its
brackets with it. -/
def Entry.settle : Entry → Template → Option (Entry × Nat)
  | .operand, [.letter '(', .operand index, .letter ')'] => some (.menu, index)
  | .operand, [.letter '[', .operand index, .letter ']'] => some (.menu, index)
  | .operand, _ => none
  | entry, [.operand index] => some (entry, index)
  | _, _ => none

def LiteralPlan.settle (holes : List Template) (plan : LiteralPlan) : Option LiteralPlan :=
  (plan.entry.settle (holes.getD plan.hole [])).map fun stored => { plan with hole := stored.2, entry := stored.1 }

def FieldPlan.settle (holes : List Template) (plan : FieldPlan) : Option FieldPlan :=
  (plan.entry.settle (holes.getD plan.hole [])).map fun stored => { plan with hole := stored.2, entry := stored.1 }

/-- The outline of what the rule says, given what the holes take. There is none if the operands might matter to it in
other ways. -/
def Rule.outline? (rule : Rule) (holes : List Template) : Option Outline :=
  if rule.vetoes = [] ∧ rule.variant = none ∧ rule.conditional = false then
    (rule.literals.mapM (LiteralPlan.settle holes)).bind fun literals =>
      (rule.fields.mapM (FieldPlan.settle holes)).map fun fields => ⟨rule.opcode, literals, fields⟩
  else none

/-- What the rule says of the template. -/
def Rule.trace (rule : Rule) (template : Template) : Verdict Outline :=
  (Verdict.findSome (fun form : Form => form.trace template) rule.forms).bind fun holes =>
    (rule.outline? holes).elim .depends .reads

/-- What the first rule that applies says of the template. -/
def outlineOf (template : Template) : Verdict Outline :=
  .findSome (fun rule : Rule => rule.trace template) rules

/-! ## Outlines hold for all operands -/

theorem unwrapOperand_enclosed {opening closing : Char} (h : (opening, closing) ∈ [('(', ')'), ('[', ']')])
    (text : List Char) : unwrapOperand (opening :: (text ++ [closing])) = Source.dropMenuMark text := by
  have hbare : ∀ pair ∈ [('(', ')'), ('[', ']')], Text.isBlank pair.1 = false ∧ Text.isBlank pair.2 = false := by decide
  obtain ⟨hopening, hclosing⟩ := hbare _ h
  have htrim : Text.trim (opening :: (text ++ [closing])) = opening :: (text ++ [closing]) :=
    Text.trim_eq_self (Text.startsBare_cons hopening _) (Text.endsBare_concat (opening :: text) hclosing)
  have hmark := Text.dropMark?_append [closing] text
  simp only [List.mem_cons, List.not_mem_nil, or_false, Prod.mk.injEq] at h
  rcases h with ⟨rfl, rfl⟩ | ⟨rfl, rfl⟩ <;> simp [unwrapOperand, htrim, inside?, hmark]

theorem unwrapOperand_trim (text : List Char) : unwrapOperand (Text.trim text) = unwrapOperand text := by
  simp only [unwrapOperand, Text.trim_trim]

theorem map_eq_map_of_mapM {α β γ : Type} {settle : α → Option β} {f : α → γ} {g : β → γ}
    (h : ∀ a b, settle a = some b → f a = g b) {l : List α} {settled : List β} (hl : l.mapM settle = some settled) :
    l.map f = settled.map g := by
  induction l generalizing settled with
  | nil =>
    have hnil : settled = [] := by simpa using hl.symm
    rw [hnil]
    rfl
  | cons a l ih =>
    simp only [List.mapM_cons, Option.bind_eq_bind, Option.bind_eq_some_iff, Option.pure_def, Option.some.injEq] at hl
    obtain ⟨b, hb, rest, hrest, rfl⟩ := hl
    rw [List.map_cons, List.map_cons, h a b hb, ih hrest]

theorem holeText_map_fill (operands : Nat → List Char) (holes : List Template) (hole : Nat) :
    Rule.holeText (holes.map (Template.fill operands)) hole = Text.trim (Template.fill operands (holes.getD hole [])) :=
  congrArg Text.trim (List.getD_map holes [] (Template.fill operands))

section

variable {operands : Nat → List Char} (hoperands : ∀ index, OperandText (operands index))
include hoperands

theorem Entry.value_settle {entry stored : Entry} {template : Template} {index : Nat}
    (h : entry.settle template = some (stored, index)) :
    entry.value (Text.trim (template.fill operands)) = stored.value (operands index) := by
  have htrim : Text.trim (operands index) = operands index :=
    Text.trim_eq_self (hoperands index).startsBare (hoperands index).endsBare
  have hfree : ∀ pair ∈ [('(', ')'), ('[', ']')],
      Entry.operand.value (Text.trim (pair.1 :: (operands index ++ [pair.2]))) = Entry.menu.value (operands index) := by
    intro pair hpair
    simp only [Entry.value, unwrapOperand_trim, unwrapOperand_enclosed hpair]
  -- of the five cases of `settle`, two give nothing
  unfold Entry.settle at h
  split at h <;> simp only [Option.some.injEq, Prod.mk.injEq, reduceCtorEq] at h
  case h_1 =>
    obtain ⟨rfl, rfl⟩ := h
    exact hfree ('(', ')') (by simp)
  case h_2 =>
    obtain ⟨rfl, rfl⟩ := h
    exact hfree ('[', ']') (by simp)
  case h_4 =>
    obtain ⟨rfl, rfl⟩ := h
    simp [htrim]

theorem Rule.statement_outline? {rule : Rule} {holes : List Template} {outline : Outline}
    (h : rule.outline? holes = some outline) (lowered : List Char) :
    rule.vetoes = [] ∧ rule.statement lowered (holes.map (Template.fill operands)) = outline.statement operands := by
  unfold Rule.outline? at h
  split at h
  case isFalse => simp at h
  case isTrue hrule =>
    obtain ⟨hvetoes, hvariant, hconditional⟩ := hrule
    simp only [Option.bind_eq_some_iff, Option.map_eq_some_iff] at h
    obtain ⟨literals, hliterals, fields, hfields, rfl⟩ := h
    refine ⟨hvetoes, ?_⟩
    have hvalue : ∀ entry stored : Entry, ∀ hole index,
        entry.settle (holes.getD hole []) = some (stored, index) →
          entry.value (Rule.holeText (holes.map (Template.fill operands)) hole) = stored.value (operands index) := by
      intro entry stored hole index hsettle
      rw [holeText_map_fill]
      exact Entry.value_settle hoperands hsettle
    rw [Rule.statement, Outline.statement, Rule.opcodeFor, hvariant, Rule.conditionFor, hconditional]
    congr 1
    · refine map_eq_map_of_mapM ?_ hliterals
      intro plan settled hsettle
      obtain ⟨⟨stored, index⟩, hentry, rfl⟩ := Option.map_eq_some_iff.1 hsettle
      simp only [hvalue _ _ _ _ hentry]
    · refine map_eq_map_of_mapM ?_ hfields
      intro plan settled hsettle
      obtain ⟨⟨stored, index⟩, hentry, rfl⟩ := Option.map_eq_some_iff.1 hsettle
      simp only [hvalue _ _ _ _ hentry]

theorem Rule.tells_trace (rule : Rule) (template : Template) (lowered : List Char) :
    (rule.trace template).Tells (Outline.statement · operands) (rule.read? (template.fill operands) lowered) := by
  have hforms : (Verdict.findSome (fun form : Form => form.trace template) rule.forms).Tells
      (List.map (Template.fill operands)) (rule.forms.findSome? fun form => form.read? (template.fill operands)) :=
    Verdict.Tells.findSome (fun form => form.tells_trace hoperands template) rule.forms
  unfold Rule.trace Rule.read?
  -- where no form reads the line, vetoes do not matter; where one does, `outline?` has made sure that there are none
  cases hverdict : Verdict.findSome (fun form : Form => form.trace template) rule.forms with
  | depends => trivial
  | fails =>
    rw [hverdict] at hforms
    have hnone : (rule.forms.findSome? fun form => form.read? (template.fill operands)) = none := hforms
    simp [hnone, Verdict.bind, Verdict.Tells]
  | reads holes =>
    rw [hverdict] at hforms
    have hread : (rule.forms.findSome? fun form => form.read? (template.fill operands)) =
      some (holes.map (Template.fill operands)) := hforms
    cases houtline : rule.outline? holes with
    | none => simp [houtline, Verdict.bind, Verdict.Tells]
    | some outline =>
      obtain ⟨hvetoes, hstatement⟩ := rule.statement_outline? hoperands houtline lowered
      simp [houtline, hread, Verdict.bind, Verdict.Tells, hvetoes, mentions, hstatement]

/-- What the rules say of a template holds of each line that it gives. -/
theorem tells_outlineOf (template : Template) (lowered : List Char) :
    (outlineOf template).Tells (Outline.statement · operands)
      (rules.findSome? fun rule => rule.read? (template.fill operands) lowered) :=
  Verdict.Tells.findSome (fun rule => rule.tells_trace hoperands template lowered) rules

end

end Vocabulary

/-! ## Lines -/

theorem Text.mem_lowercase_of_bracket {bracket : Char} (hbracket : bracket ∈ operandBrackets) {s : List Char}
    (hmem : bracket ∈ s) : bracket ∈ lowercase s := by
  have hkept : ∀ b ∈ operandBrackets, (b == 'Σ') = false ∧ lowerChar b = [b] :=
    forall_mem_operandBrackets.2 (by decide)
  -- what comes before matters to a sigma only
  have hafter : ∀ before : List Char, bracket ∈ lowercaseAfter before s := by
    induction s with
    | nil => simp at hmem
    | cons c s ih =>
      intro before
      rw [lowercaseAfter, List.mem_append]
      rcases List.mem_cons.1 hmem with rfl | hrest
      · obtain ⟨hsigma, hlower⟩ := hkept bracket hbracket
        simp [hsigma, hlower]
      · exact .inr (ih hrest _)
  exact hafter []

theorem Source.Marker.ofLine?_eq_none {bracket : Char} (hbracket : bracket ∈ operandBrackets) {line : List Char}
    (htrim : Text.trim line = line) (hmem : bracket ∈ line) : ofLine? line = none := by
  have hspellings : ∀ spelling ∈ closeSpellings ++ otherwiseSpellings, ∀ b ∈ operandBrackets, b ∉ spelling.toList := by
    simp only [forall_mem_operandBrackets]
    decide
  have hlowered := Text.mem_lowercase_of_bracket hbracket hmem
  have hword : String.ofList (Text.lowercase line) ∉ closeSpellings ++ otherwiseSpellings := by
    intro hspelling
    exact hspellings _ hspelling bracket hbracket (by simpa using hlowered)
  rw [List.mem_append, not_or] at hword
  simp [ofLine?, htrim, hword]

namespace Template

/-- A wording of a statement, with digits for the operands. -/
def ofWording (wording : String) : Template :=
  wording.toList.map fun c => if c.isDigit then .operand (c.toNat - '0'.toNat) else .letter c

def operands (template : Template) : List Nat :=
  template.filterMap fun
    | .letter _ => none
    | .operand index => some index

def isBareLetter : Token → Bool
  | .letter c => !Text.isBlank c
  | .operand _ => false

/-- Whether the template starts and ends with a letter other than white space and has a bracket in it. -/
def isLine (template : Template) : Bool :=
  template.head?.any isBareLetter && template.getLast?.any isBareLetter &&
    operandBrackets.any fun bracket => template.contains (.letter bracket)

theorem fill_append (operands : Nat → List Char) (first second : Template) :
    fill operands (first ++ second) = fill operands first ++ fill operands second :=
  List.flatMap_append

theorem exists_of_isBareLetter {token : Token} (h : isBareLetter token = true) :
    ∃ c, token = .letter c ∧ Text.isBlank c = false := by
  cases token with
  | letter c => exact ⟨c, rfl, by simpa [isBareLetter] using h⟩
  | operand index => simp [isBareLetter] at h

theorem trim_fill {template : Template} (h : template.isLine = true) (operands : Nat → List Char) :
    Text.trim (template.fill operands) = template.fill operands := by
  simp only [isLine, Bool.and_eq_true, Option.any_eq_true] at h
  obtain ⟨⟨⟨first, hfirst, hfirstBare⟩, last, hlast, hlastBare⟩, -⟩ := h
  obtain ⟨c, rfl, hc⟩ := exists_of_isBareLetter hfirstBare
  obtain ⟨d, rfl, hd⟩ := exists_of_isBareLetter hlastBare
  apply Text.trim_eq_self
  · obtain ⟨rest, rfl⟩ := List.head?_eq_some_iff.1 hfirst
    exact Text.startsBare_cons hc _
  · obtain ⟨before, rfl⟩ := List.getLast?_eq_some_iff.1 hlast
    rw [fill_append]
    exact Text.endsBare_concat _ hd

theorem exists_bracket_mem_fill {template : Template} (h : template.isLine = true) (operands : Nat → List Char) :
    ∃ bracket ∈ operandBrackets, bracket ∈ template.fill operands := by
  simp only [isLine, Bool.and_eq_true, List.any_eq_true] at h
  obtain ⟨-, bracket, hbracket, hmem⟩ := h
  exact ⟨bracket, hbracket, List.mem_flatMap.2 ⟨_, List.contains_iff_mem.1 hmem, List.mem_singleton_self _⟩⟩

end Template

theorem Statement.ofLine?_of_bracket {line : List Char} (htrim : Text.trim line = line) {bracket : Char}
    (hbracket : bracket ∈ operandBrackets) (hmem : bracket ∈ line) :
    ofLine? line = Vocabulary.rules.findSome? fun rule => rule.read? line (Text.lowercase line) := by
  have hne : line.isEmpty = false := by
    rw [List.isEmpty_eq_false_iff]
    exact List.ne_nil_of_mem hmem
  rw [ofLine?, Vocabulary.classify?]
  simp [htrim, hne, Source.Marker.ofLine?_eq_none hbracket htrim hmem, Vocabulary.map_firstMatch?]

theorem Statement.ofLine?_fill {template : Template} (h : template.isLine = true) (operands : Nat → List Char) :
    ofLine? (template.fill operands) = Vocabulary.rules.findSome? fun rule =>
      rule.read? (template.fill operands) (Text.lowercase (template.fill operands)) := by
  obtain ⟨bracket, hbracket, hmem⟩ := Template.exists_bracket_mem_fill h operands
  exact ofLine?_of_bracket (Template.trim_fill h operands) hbracket hmem

/-! ## The phrasebook -/

open Vocabulary

/-- A statement in both languages. -/
structure Phrasing where
  english : List String
  spanish : List String
  outline : Outline
  deriving DecidableEq, Repr

/-- The statements with operands in brackets. Three are left out, since their rules look for words anywhere in the line
and so in the operands too: `turn`, `repeat` and `go to`. -/
def phrasebook : List Phrasing := [
  -- events
  { english := ["when [0] key pressed"]
    spanish := ["al presionar tecla [0]"]
    outline := { opcode := .whenKeyPressed, fields := [⟨"KEY_OPTION", .plain, 0, .key⟩] } },
  { english := ["when I receive [0]"]
    spanish := ["al recibir [0]"]
    outline := { opcode := .whenBroadcastReceived, fields := [⟨"BROADCAST_OPTION", .named, 0, .menu⟩] } },
  { english := ["broadcast [0]"]
    spanish := ["enviar [0]"]
    outline := { opcode := .broadcast, literals := [⟨"BROADCAST_INPUT", .broadcast, 0, .menu⟩] } },
  { english := ["broadcast [0] and wait"]
    spanish := ["enviar [0] y esperar"]
    outline := { opcode := .broadcastAndWait, literals := [⟨"BROADCAST_INPUT", .broadcast, 0, .menu⟩] } },
  -- control
  { english := ["wait (0) secs"]
    spanish := ["esperar (0) segundos"]
    outline := { opcode := .wait, literals := [⟨"DURATION", .positive, 0, .verbatim⟩] } },
  { english := ["stop [0]"]
    spanish := ["detener [0]"]
    outline := { opcode := .stop, fields := [⟨"STOP_OPTION", .plain, 0, .stopOption⟩] } },
  { english := ["create clone of [0]"]
    spanish := ["crear clon de [0]"]
    outline := { opcode := .createCloneOf, literals := [⟨"CLONE_OPTION", .text, 0, .sprite⟩] } },
  -- motion
  { english := ["move (0) steps"]
    spanish := ["mover (0) pasos"]
    outline := { opcode := .moveSteps, literals := [⟨"STEPS", .number, 0, .verbatim⟩] } },
  { english := ["go to x: (0) y: (1)"]
    spanish := ["ir a x: (0) y: (1)"]
    outline :=
      { opcode := .goToXY, literals := [⟨"X", .number, 0, .verbatim⟩, ⟨"Y", .number, 1, .verbatim⟩] } },
  { english := ["glide (0) secs to x: (1) y: (2)"]
    spanish := ["deslizar en (0) segundos a x: (1) y: (2)"]
    outline :=
      { opcode := .glideSecsToXY
        literals := [⟨"SECS", .number, 0, .verbatim⟩, ⟨"X", .number, 1, .verbatim⟩, ⟨"Y", .number, 2, .verbatim⟩] } },
  { english := ["point in direction (0)"]
    spanish := ["apuntar en dirección (0)"]
    outline := { opcode := .pointInDirection, literals := [⟨"DIRECTION", .angle, 0, .verbatim⟩] } },
  { english := ["point towards [0]"]
    spanish := ["apuntar hacia [0]"]
    outline := { opcode := .pointTowards, literals := [⟨"TOWARDS", .text, 0, .sprite⟩] } },
  { english := ["set x to (0)"]
    spanish := ["fijar x a (0)"]
    outline := { opcode := .setX, literals := [⟨"X", .number, 0, .verbatim⟩] } },
  { english := ["set y to (0)"]
    spanish := ["fijar y a (0)"]
    outline := { opcode := .setY, literals := [⟨"Y", .number, 0, .verbatim⟩] } },
  { english := ["change x by (0)"]
    spanish := ["cambiar x en (0)"]
    outline := { opcode := .changeXBy, literals := [⟨"DX", .number, 0, .verbatim⟩] } },
  { english := ["change y by (0)"]
    spanish := ["cambiar y en (0)"]
    outline := { opcode := .changeYBy, literals := [⟨"DY", .number, 0, .verbatim⟩] } },
  -- looks
  { english := ["say [0]"]
    spanish := ["decir [0]"]
    outline := { opcode := .say, literals := [⟨"MESSAGE", .text, 0, .verbatim⟩] } },
  { english := ["say [0] for (1) secs"]
    spanish := ["decir [0] durante (1) segundos", "decir [0] por (1) segundos"]
    outline :=
      { opcode := .sayForSecs, literals := [⟨"MESSAGE", .text, 0, .verbatim⟩, ⟨"SECS", .number, 1, .verbatim⟩] } },
  { english := ["think [0]"]
    spanish := ["pensar [0]"]
    outline := { opcode := .think, literals := [⟨"MESSAGE", .text, 0, .verbatim⟩] } },
  { english := ["think [0] for (1) secs"]
    spanish := ["pensar [0] durante (1) segundos", "pensar [0] por (1) segundos"]
    outline :=
      { opcode := .thinkForSecs, literals := [⟨"MESSAGE", .text, 0, .verbatim⟩, ⟨"SECS", .number, 1, .verbatim⟩] } },
  { english := ["switch costume to [0]"]
    spanish := ["cambiar disfraz a [0]"]
    outline := { opcode := .switchCostumeTo, literals := [⟨"COSTUME", .text, 0, .menu⟩] } },
  { english := ["switch backdrop to [0]"]
    spanish := ["cambiar fondo a [0]"]
    outline := { opcode := .switchBackdropTo, literals := [⟨"BACKDROP", .text, 0, .menu⟩] } },
  { english := ["change size by (0)"]
    spanish := ["cambiar tamaño en (0)"]
    outline := { opcode := .changeSizeBy, literals := [⟨"CHANGE", .number, 0, .verbatim⟩] } },
  { english := ["set size to (0) %"]
    spanish := ["fijar tamaño a (0) %"]
    outline := { opcode := .setSizeTo, literals := [⟨"SIZE", .number, 0, .verbatim⟩] } },
  { english := ["go to [0] layer"]
    spanish := ["ir a capa [0]"]
    outline := { opcode := .goToFrontBack, fields := [⟨"FRONT_BACK", .plain, 0, .layer⟩] } },
  -- sound
  { english := ["play sound [0] until done"]
    spanish := ["tocar sonido [0] hasta que termine"]
    outline := { opcode := .playUntilDone, literals := [⟨"SOUND_MENU", .text, 0, .menu⟩] } },
  { english := ["start sound [0]"]
    spanish := ["iniciar sonido [0]"]
    outline := { opcode := .startSound, literals := [⟨"SOUND_MENU", .text, 0, .menu⟩] } },
  { english := ["change volume by (0)"]
    spanish := ["cambiar volumen en (0)"]
    outline := { opcode := .changeVolumeBy, literals := [⟨"VOLUME", .number, 0, .verbatim⟩] } },
  { english := ["set volume to (0)", "set volume to (0) %"]
    spanish := ["fijar volumen a (0)", "fijar volumen a (0) %"]
    outline := { opcode := .setVolumeTo, literals := [⟨"VOLUME", .number, 0, .verbatim⟩] } },
  -- sensing
  { english := ["ask [0] and wait"]
    spanish := ["preguntar [0] y esperar"]
    outline := { opcode := .askAndWait, literals := [⟨"QUESTION", .text, 0, .verbatim⟩] } },
  -- variables
  { english := ["set [0] to (1)", "set [0] to [1]"]
    spanish := ["establecer [0] a (1)", "establecer [0] a [1]", "fijar [0] a (1)", "fijar [0] a [1]"]
    outline :=
      { opcode := .setVariableTo
        literals := [⟨"VALUE", .text, 1, .menu⟩]
        fields := [⟨"VARIABLE", .named, 0, .menu⟩] } },
  { english := ["change [0] by (1)"]
    spanish := ["cambiar [0] en (1)"]
    outline :=
      { opcode := .changeVariableBy
        literals := [⟨"VALUE", .number, 1, .verbatim⟩]
        fields := [⟨"VARIABLE", .named, 0, .menu⟩] } },
  { english := ["show variable [0]"]
    spanish := ["mostrar variable [0]"]
    outline := { opcode := .showVariable, fields := [⟨"VARIABLE", .named, 0, .menu⟩] } },
  { english := ["hide variable [0]"]
    spanish := ["esconder variable [0]"]
    outline := { opcode := .hideVariable, fields := [⟨"VARIABLE", .named, 0, .menu⟩] } },
  -- lists
  { english := ["add [0] to [1]"]
    spanish := ["añadir [0] a [1]"]
    outline :=
      { opcode := .addToList
        literals := [⟨"ITEM", .text, 0, .verbatim⟩]
        fields := [⟨"LIST", .named, 1, .menu⟩] } },
  { english := ["delete (0) of [1]"]
    spanish := ["borrar (0) de [1]"]
    outline :=
      { opcode := .deleteOfList
        literals := [⟨"INDEX", .integer, 0, .verbatim⟩]
        fields := [⟨"LIST", .named, 1, .menu⟩] } },
  { english := ["delete all of [0]"]
    spanish := ["borrar todo de [0]"]
    outline := { opcode := .deleteAllOfList, fields := [⟨"LIST", .named, 0, .menu⟩] } },
  { english := ["insert [0] at (1) of [2]"]
    spanish := ["insertar [0] en (1) de [2]"]
    outline :=
      { opcode := .insertAtList
        literals := [⟨"ITEM", .text, 0, .verbatim⟩, ⟨"INDEX", .integer, 1, .verbatim⟩]
        fields := [⟨"LIST", .named, 2, .menu⟩] } },
  { english := ["replace item (0) of [1] with [2]"]
    spanish := ["reemplazar elemento (0) de [1] por [2]"]
    outline :=
      { opcode := .replaceItemOfList
        literals := [⟨"INDEX", .integer, 0, .verbatim⟩, ⟨"ITEM", .text, 2, .verbatim⟩]
        fields := [⟨"LIST", .named, 1, .menu⟩] } },
  -- pen
  { english := ["set pen color to [0]"]
    spanish := ["fijar color de lápiz a [0]"]
    outline := { opcode := .setPenColor, literals := [⟨"COLOR", .color, 0, .verbatim⟩] } },
  { english := ["change pen size by (0)"]
    spanish := ["cambiar tamaño de lápiz en (0)"]
    outline := { opcode := .changePenSizeBy, literals := [⟨"SIZE", .number, 0, .verbatim⟩] } },
  { english := ["set pen size to (0)"]
    spanish := ["fijar tamaño de lápiz a (0)"]
    outline := { opcode := .setPenSizeTo, literals := [⟨"SIZE", .number, 0, .verbatim⟩] } }]

/-- The outline of each wording is that of its entry, and it stores each operand of the wording once. -/
theorem outlineOf_phrasebook : ∀ phrasing ∈ phrasebook, ∀ wording ∈ phrasing.english ++ phrasing.spanish,
    outlineOf (.ofWording wording) = .reads phrasing.outline ∧ (Template.ofWording wording).isLine = true ∧
      (Template.ofWording wording).operands.Perm phrasing.outline.operands := by
  decide +kernel

theorem nodup_slots_phrasebook : ∀ phrasing ∈ phrasebook, phrasing.outline.slots.Nodup := by
  decide +kernel

theorem exists_phrasing : ∀ rule ∈ rules, rule.literals ≠ [] ∨ rule.fields ≠ [] →
    rule.opcode ∉ [.turnRight, .repeatTimes, .goTo] →
      ∃ phrasing ∈ phrasebook, phrasing.outline.opcode = rule.opcode ∧
        phrasing.english ≠ [] ∧ phrasing.spanish ≠ [] := by
  decide +kernel

theorem ofLine?_of_outlineOf {operands : Nat → List Char} (hoperands : ∀ index, OperandText (operands index))
    {template : Template} {outline : Outline} (houtline : outlineOf template = .reads outline)
    (hline : template.isLine = true) :
    Statement.ofLine? (template.fill operands) = some (outline.statement operands) := by
  rw [Statement.ofLine?_fill hline]
  have htells := tells_outlineOf hoperands template (Text.lowercase (template.fill operands))
  rwa [houtline] at htells

/-- Whatever the operands are, the wordings of a statement in the two languages say the same: the block is the one that
the phrasebook names, each operand is in its own slot, as it is or in the form of its menu, and there is nothing
else. -/
theorem phrasebook_bilingual {operands : Nat → List Char} (hoperands : ∀ index, OperandText (operands index)) :
    (∀ phrasing ∈ phrasebook,
      (∀ wording ∈ phrasing.english ++ phrasing.spanish,
        Statement.ofLine? (Template.fill operands (.ofWording wording)) = some (phrasing.outline.statement operands) ∧
          (Template.ofWording wording).operands.Perm phrasing.outline.operands) ∧
      phrasing.outline.slots.Nodup ∧
      ∀ english ∈ phrasing.english, ∀ spanish ∈ phrasing.spanish,
        Statement.ofLine? (Template.fill operands (.ofWording english)) =
          Statement.ofLine? (Template.fill operands (.ofWording spanish))) ∧
    ∀ rule ∈ rules, rule.literals ≠ [] ∨ rule.fields ≠ [] → rule.opcode ∉ [.turnRight, .repeatTimes, .goTo] →
      ∃ phrasing ∈ phrasebook, phrasing.outline.opcode = rule.opcode ∧
        phrasing.english ≠ [] ∧ phrasing.spanish ≠ [] := by
  refine ⟨?_, exists_phrasing⟩
  intro phrasing hmem
  have hread : ∀ wording ∈ phrasing.english ++ phrasing.spanish,
      Statement.ofLine? (Template.fill operands (.ofWording wording)) = some (phrasing.outline.statement operands) := by
    intro wording hwording
    obtain ⟨houtline, hline, -⟩ := outlineOf_phrasebook phrasing hmem wording hwording
    exact ofLine?_of_outlineOf hoperands houtline hline
  refine ⟨?_, nodup_slots_phrasebook phrasing hmem, ?_⟩
  · intro wording hwording
    exact ⟨hread wording hwording, (outlineOf_phrasebook phrasing hmem wording hwording).2.2⟩
  · intro english henglish spanish hspanish
    rw [hread english (List.mem_append_left _ henglish), hread spanish (List.mem_append_right _ hspanish)]

/-- Three operands, two of them with the mark of a menu. -/
def markedOperands : Nat → List Char
  | 0 => "last".toList
  | 1 => "scores v".toList
  | _ => "42 v".toList

theorem phrasebook_bilingual_marked :
    (∀ index, OperandText (markedOperands index)) ∧
      Statement.ofLine? "replace item (last) of [scores v] with [42 v]".toList =
        some { opcode := .replaceItemOfList
               literals := [("INDEX", ⟨.integer, "last"⟩), ("ITEM", ⟨.text, "42 v"⟩)]
               fields := [("LIST", Field.named "scores")] } ∧
      Statement.ofLine? "replace item (last) of [scores v] with [42 v]".toList =
        Statement.ofLine? "reemplazar elemento (last) de [scores v] por [42 v]".toList := by
  have hoperands : ∀ index, OperandText (markedOperands index)
    | 0 => by decide
    | 1 => by decide
    | _ + 2 => (by decide : OperandText "42 v".toList)
  have henglish : Template.fill markedOperands (.ofWording "replace item (0) of [1] with [2]") =
      "replace item (last) of [scores v] with [42 v]".toList := by decide +kernel
  have hspanish : Template.fill markedOperands (.ofWording "reemplazar elemento (0) de [1] por [2]") =
      "reemplazar elemento (last) de [scores v] por [42 v]".toList := by decide +kernel
  obtain ⟨hread, -, hsame⟩ := (phrasebook_bilingual hoperands).1
    { english := ["replace item (0) of [1] with [2]"]
      spanish := ["reemplazar elemento (0) de [1] por [2]"]
      outline :=
        { opcode := .replaceItemOfList
          literals := [⟨"INDEX", .integer, 0, .verbatim⟩, ⟨"ITEM", .text, 2, .verbatim⟩]
          fields := [⟨"LIST", .named, 1, .menu⟩] } }
    (by decide +kernel)
  rw [← henglish, ← hspanish]
  refine ⟨hoperands, ?_, hsame _ (by simp) _ (by simp)⟩
  rw [(hread "replace item (0) of [1] with [2]" (by simp)).1]
  decide +kernel

end ScratchScript
