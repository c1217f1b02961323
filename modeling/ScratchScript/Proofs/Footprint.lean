import ScratchScript.Command.World
import ScratchScript.Proofs.Integrity

/-!
# What a run leaves behind

`Footprint` says what a run of the command changes in a tree, whatever is refused to it. What the run depends on is
read before anything is written, so it does not matter whether a path that is written is the one that has been read.

* `Tree.ChangesOnly` is the frame: no file but those of the given paths is another one afterwards. Paths are looked up
  in the tree as it is in the end. That is no restriction, since directories are only ever added, and a path that leads
  somewhere leads there still when there are more of them (`ChangesOnly.target?_eq`).
* `Quiet` says that an action only shows and notes lines. Between such actions a run has three steps that matter, and
  for each there is one lemma on all that it can come to: `exec_readSource`, `exportBlockMap_cases`,
  `exportArchive_cases`. Together they make up `runIn_cases`.
-/

namespace ScratchScript

/-! ## Changes of a tree -/

namespace Tree

variable {before middle after : Tree} {path : Path} {location : Location}

/-- No file has changed but those of the given paths. Paths start where they did, and no directory is lost. -/
structure ChangesOnly (paths : List Path) (before after : Tree) : Prop where
  home : after.home = before.home
  directories : ∀ location, before.isDirectory location = true → after.isDirectory location = true
  files : ∀ location, after.file? location = before.file? location ∨
    ∃ path ∈ paths, after.target? path = some location

theorem enter_mono (h : ∀ location, before.isDirectory location = true → after.isDirectory location = true)
    {inner : Location} {piece : String} (henter : before.enter location piece = some inner) :
    after.enter location piece = some inner := by
  unfold enter at henter ⊢
  by_cases hfound : (nameFits piece && before.isDirectory (piece :: location)) = true
  · have hstill : (nameFits piece && after.isDirectory (piece :: location)) = true := by
      rw [Bool.and_eq_true] at hfound ⊢
      exact ⟨hfound.1, h _ hfound.2⟩
    rw [if_pos hfound] at henter
    rw [if_pos hstill]
    exact henter
  · rw [if_neg hfound] at henter
    split_ifs at henter ⊢ with hidle hup
    · exact henter
    · exact henter

theorem foldlM_enter_mono (h : ∀ location, before.isDirectory location = true → after.isDirectory location = true)
    (pieces : List String) {inner : Location} (henter : pieces.foldlM before.enter location = some inner) :
    pieces.foldlM after.enter location = some inner := by
  induction pieces generalizing location with
  | nil => exact henter
  | cons piece pieces ih =>
    rw [List.foldlM_cons] at henter ⊢
    obtain ⟨next, hnext, hrest⟩ := Option.bind_eq_some_iff.1 henter
    exact Option.bind_eq_some_iff.2 ⟨next, enter_mono h hnext, ih hrest⟩

namespace ChangesOnly

variable {paths more : List Path}

theorem start_eq (h : before.ChangesOnly paths after) (path : Path) : after.start path = before.start path := by
  unfold start
  rw [h.home]

/-- A path still leads to where it led. -/
theorem target?_eq (h : before.ChangesOnly paths after) (htarget : before.target? path = some location) :
    after.target? path = some location := by
  unfold target? at htarget ⊢
  cases hpieces : path.pieces.reverse with
  | nil => simp [hpieces] at htarget
  | cons name outer =>
    simp only [hpieces] at htarget ⊢
    split_ifs at htarget ⊢ with hname
    obtain ⟨directory, hdirectory, rfl⟩ := Option.map_eq_some_iff.1 htarget
    rw [h.start_eq, foldlM_enter_mono h.directories _ hdirectory]
    rfl

theorem refl (paths : List Path) (tree : Tree) : tree.ChangesOnly paths tree :=
  ⟨rfl, fun _ h => h, fun _ => .inl rfl⟩

theorem read?_eq (h : before.ChangesOnly paths after) {contents : Contents} (hread : before.read? path = some contents)
    (hother : ∀ other ∈ paths, after.target? other ≠ after.target? path) : after.read? path = some contents := by
  obtain ⟨location, htarget, hfile⟩ := Option.bind_eq_some_iff.1 hread
  have hstill := h.target?_eq htarget
  rcases h.files location with hsame | ⟨other, hmem, hmeets⟩
  · rw [read?, hstill, Option.bind_some, hsame, hfile]
  · exact absurd (hmeets.trans hstill.symm) (hother other hmem)

theorem trans (h : before.ChangesOnly paths middle) (h' : middle.ChangesOnly more after) :
    before.ChangesOnly (paths ++ more) after := by
  refine ⟨h'.home.trans h.home, fun location hold => h'.directories location (h.directories location hold), ?_⟩
  intro location
  rcases h'.files location with hkept | ⟨path, hpath, htarget⟩
  · rcases h.files location with hsame | ⟨path, hpath, htarget⟩
    · exact .inl (hkept.trans hsame)
    · exact .inr ⟨path, List.mem_append_left _ hpath, h'.target?_eq htarget⟩
  · exact .inr ⟨path, List.mem_append_right _ hpath, htarget⟩

end ChangesOnly

/-! ## Writing -/

variable {tree : Tree} {contents : Contents}

@[simp] theorem file?_setFile_self (tree : Tree) (location : Location) (contents : Contents) :
    (tree.setFile location contents).file? location = some contents := by
  simp [setFile, file?]

theorem file?_setFile_of_ne {other : Location} (h : other ≠ location) (tree : Tree) (contents : Contents) :
    (tree.setFile location contents).file? other = tree.file? other := by
  have hne : (other == location) = false := by simpa using h
  have hfiles : ∀ files : List (Location × Contents),
      (files.filter fun file => file.1 != location).lookup other = files.lookup other := by
    intro files
    induction files with
    | nil => rfl
    | cons file files ih =>
      obtain ⟨name, kept⟩ := file
      by_cases hname : name = location
      · simp [hname, List.lookup_cons, hne, ih]
      · simp [hname, List.lookup_cons, ih]
  simp only [setFile, file?, List.lookup_cons, hne]
  exact hfiles tree.files

theorem changesOnly_of_write? (h : before.write? path contents = some after) :
    before.ChangesOnly [path] after ∧ after.directories = before.directories ∧ after.read? path = some contents := by
  unfold write? at h
  cases htarget : before.target? path with
  | none => simp [htarget] at h
  | some location =>
    simp only [htarget] at h
    split_ifs at h with hdirectory
    obtain rfl := Option.some.inj h
    have hsame : (before.setFile location contents).target? path = some location := htarget
    refine ⟨⟨rfl, fun _ h => h, ?_⟩, rfl, ?_⟩
    · intro other
      by_cases hother : other = location
      · exact .inr ⟨path, List.mem_singleton_self path, hother ▸ hsame⟩
      · exact .inl (file?_setFile_of_ne hother before contents)
    · rw [read?, hsame]
      exact file?_setFile_self before location contents

theorem changesOnly_of_enterOrMake {inner : Location} {piece : String}
    (h : enterOrMake (before, location) piece = some (after, inner)) : before.ChangesOnly [] after := by
  unfold enterOrMake at h
  dsimp only at h
  cases henter : before.enter location piece with
  | some found =>
    simp only [henter, Option.some.injEq, Prod.mk.injEq] at h
    exact h.1 ▸ .refl [] before
  | none =>
    simp only [henter] at h
    split_ifs at h
    obtain ⟨rfl, -⟩ := Prod.mk.inj (Option.some.inj h)
    refine ⟨rfl, fun other hother => ?_, fun _ => .inl rfl⟩
    simp only [isDirectory, Bool.or_eq_true, List.contains_cons] at hother ⊢
    exact hother.imp_right .inr

theorem changesOnly_of_foldlM (pieces : List String) {inner : Location}
    (h : pieces.foldlM enterOrMake (before, location) = some (after, inner)) : before.ChangesOnly [] after := by
  induction pieces generalizing before location with
  | nil =>
    obtain ⟨rfl, -⟩ := Prod.mk.inj (Option.some.inj h)
    exact .refl [] _
  | cons piece pieces ih =>
    rw [List.foldlM_cons] at h
    obtain ⟨⟨middle, next⟩, hstep, hrest⟩ := Option.bind_eq_some_iff.1 h
    exact (changesOnly_of_enterOrMake hstep).trans (ih hrest)

theorem changesOnly_of_makeDirectories? (h : before.makeDirectories? path = some after) :
    before.ChangesOnly [] after := by
  unfold makeDirectories? at h
  split_ifs at h
  obtain ⟨⟨made, inner⟩, hfold, rfl⟩ := Option.map_eq_some_iff.1 h
  exact changesOnly_of_foldlM path.pieces hfold

end Tree

/-! ## Names that are refused -/

namespace Project

/-- The name of the sprite is empty or belongs to the stage. -/
def Settings.IsRefused (settings : Settings) : Prop :=
  Text.trim settings.spriteName.toList = [] ∨
    (Text.trim settings.spriteName.toList).map Char.toLower = "stage".toList

theorem archive_eq_error {settings : Settings} (h : settings.IsRefused) (graph : Graph) :
    ∃ problem, archive settings graph = .error problem := by
  cases hname : settings.checkedName with
  | ok name =>
    obtain ⟨⟨hempty, hstage⟩, -⟩ := checkedName_eq_ok_iff.1 hname
    exact absurd h (not_or.2 ⟨hempty, hstage⟩)
  | error problem =>
    refine ⟨problem, ?_⟩
    rw [archive, build, hname]
    rfl

end Project

namespace Command

/-! ## Actions in a world -/

abbrev Action (α : Type) : Type :=
  ExceptT Failure (StateM World) α

section

variable {α β : Type} {world : World} {action : Action α} {value : α}

def exec (action : Action α) (world : World) : Except Failure α × World :=
  action.run.run world

theorem exec_bind_of_ok {later : World} (h : exec action world = (.ok value, later)) (next : α → Action β) :
    exec (action >>= next) world = exec (next value) later := by
  simp only [exec] at h ⊢
  rw [ExceptT.run_bind, StateT.run_bind, h]
  rfl

theorem exec_bind_of_error {failure : Failure} {later : World} (h : exec action world = (.error failure, later))
    (next : α → Action β) : exec (action >>= next) world = (.error failure, later) := by
  simp only [exec] at h ⊢
  rw [ExceptT.run_bind, StateT.run_bind, h]
  rfl

/-- Carrying out the action comes to carrying out another one in the same world, but for lines shown and noted. -/
def ComesTo (action other : Action α) (world : World) : Prop :=
  ∃ shown log, exec action world = exec other { world with shown, log }

/-- The action gives the value and only shows and notes lines. -/
def Quiet (action : Action α) (world : World) (value : α) : Prop :=
  ∃ shown log, exec action world = (.ok value, { world with shown, log })

theorem ComesTo.refl (action : Action α) (world : World) : ComesTo action action world :=
  ⟨world.shown, world.log, rfl⟩

namespace Quiet

theorem pure (value : α) (world : World) : Quiet (pure value) world value :=
  ⟨world.shown, world.log, rfl⟩

theorem comesTo {next : α → Action β} {other : Action β} (h : Quiet action world value)
    (hnext : ∀ shown log, ComesTo (next value) other { world with shown, log }) :
    ComesTo (action >>= next) other world := by
  obtain ⟨shown, log, hexec⟩ := h
  obtain ⟨shown', log', hrest⟩ := hnext shown log
  exact ⟨shown', log', (exec_bind_of_ok hexec next).trans hrest⟩

theorem bind {next : α → Action β} {result : β} (h : Quiet action world value)
    (hnext : ∀ shown log, Quiet (next value) { world with shown, log } result) :
    Quiet (action >>= next) world result :=
  h.comesTo hnext

theorem tell (line : String) (world : World) : Quiet (Host.tell line) world () :=
  ⟨world.shown.push line, world.log, rfl⟩

theorem log (level : LogLevel) (line : String) (world : World) : Quiet (Host.log level line) world () :=
  ⟨world.shown, world.log.push line, rfl⟩

theorem forM {f : α → Action Unit} (h : ∀ value world, Quiet (f value) world ()) (values : List α) (world : World) :
    Quiet (values.forM f) world () := by
  induction values generalizing world with
  | nil => exact Quiet.pure () world
  | cons value values ih => exact (h value world).bind fun shown log => ih _

end Quiet

end

/-! ## Reading and compiling -/

theorem quiet_logCompiled (compiled : Compiled) (world : World) :
    Quiet (logCompiled compiled : Action Unit) world () := by
  unfold logCompiled
  refine (Quiet.forM (fun warning => Quiet.log _ _) _ _).bind fun _ _ => ?_
  refine (Quiet.log _ _ _).bind fun _ _ => ?_
  exact Quiet.forM (fun problem => Quiet.log _ _) _ _

theorem quiet_announce (options : Options) (compiled : Compiled) (world : World) :
    Quiet (announce options compiled : Action Unit) world () := by
  unfold announce
  refine (quiet_logCompiled compiled world).bind fun _ _ => ?_
  split
  · exact Quiet.forM (fun line => Quiet.tell _) _ _
  · exact Quiet.pure () _

theorem quiet_chooseSeed (options : Options) (world : World) :
    Quiet (chooseSeed options : Action UInt64) world (options.seed.getD world.seed) := by
  unfold chooseSeed
  cases options.seed with
  | some seed => exact Quiet.pure seed world
  | none => exact ⟨world.shown, world.log, rfl⟩

theorem exec_need {α : Type} (value : Option α) (failure : Failure) (world : World) :
    exec (need value failure) world = (value.elim (.error failure) .ok, world) := by
  cases value <;> rfl

/-- The notation that the options ask for, or why it cannot be read. -/
def World.source (world : World) (options : Options) : Except Failure String :=
  if options.readsStandardInput then world.standardText?.elim (.error .unreadableStandardInput) .ok
  else if (world.find? options.input).isSome then
    (world.readText? options.input).elim (.error (.unreadable options.input)) .ok
  else .error (.missingInput options.input)

/-- Reading changes nothing. -/
theorem exec_readSource (options : Options) (world : World) :
    exec (readSource options) world = (world.source options, world) := by
  have hinput : exec Host.standardInput world = (.ok world.standardText?, world) := rfl
  have hfile : exec (Host.isFile options.input) world = (.ok (world.find? options.input).isSome, world) := rfl
  have htext : exec (Host.readText options.input) world = (.ok (world.readText? options.input), world) := rfl
  unfold readSource World.source
  split
  · rw [exec_bind_of_ok hinput, exec_need]
  · rw [exec_bind_of_ok hfile]
    cases hfound : (world.find? options.input).isSome with
    | false => exact exec_bind_of_error rfl _
    | true =>
      have hrequire : exec (require true (.missingInput options.input)) world = (.ok (), world) := rfl
      rw [exec_bind_of_ok hrequire, exec_bind_of_ok htext, exec_need]
      rfl

/-- The notation that is there for the options to read. -/
def World.Offers (world : World) (options : Options) (source : String) : Prop :=
  if options.readsStandardInput then String.fromUTF8? world.standardInput = some source
  else ∃ contents, world.tree.read? options.input = some contents ∧ contents.text? = some source

theorem World.eq_of_granted {α : Type} {world : World} {request : Request} {answer : Option α} {value : α}
    (h : world.granted request answer = some value) : answer = some value := by
  unfold World.granted at h
  split_ifs at h
  exact h

theorem World.offers_of_source {world : World} {options : Options} {source : String}
    (h : world.source options = .ok source) : world.Offers options source := by
  unfold World.source at h
  unfold World.Offers
  split_ifs at h ⊢ with hinput hfound
  · cases htext : world.standardText? with
    | none => simp [htext] at h
    | some text =>
      obtain rfl : text = source := by simpa [htext] using h
      exact World.eq_of_granted htext
  · cases htext : world.readText? options.input with
    | none => simp [htext] at h
    | some text =>
      obtain rfl : text = source := by simpa [htext] using h
      exact Option.bind_eq_some_iff.1 (World.eq_of_granted htext)

/-! ## Writing -/

theorem exec_replaceTree_cases {action : Action Bool} {request : Request} {answer : Option Tree} {world : World}
    (h : exec action world = (.ok (world.replaceTree (world.granted request answer)).1,
      (world.replaceTree (world.granted request answer)).2)) (failure : Failure) :
    exec (action >>= fun done => require done failure) world = (.error failure, world) ∨
      ∃ after, answer = some after ∧
        exec (action >>= fun done => require done failure) world = (.ok (), { world with tree := after }) := by
  rw [exec_bind_of_ok h]
  cases hanswer : world.granted request answer with
  | none => exact .inl rfl
  | some after => exact .inr ⟨after, World.eq_of_granted hanswer, rfl⟩

theorem exec_write_cases (path : Path) (contents : Contents) (failure : Failure) (world : World) :
    exec (Host.write path contents >>= fun written => require written failure) world = (.error failure, world) ∨
      ∃ after, world.tree.write? path contents = some after ∧
        exec (Host.write path contents >>= fun written => require written failure) world =
          (.ok (), { world with tree := after }) :=
  exec_replaceTree_cases rfl failure

theorem exec_makeDirectories_cases (path : Path) (failure : Failure) (world : World) :
    exec (Host.makeDirectories path >>= fun made => require made failure) world = (.error failure, world) ∨
      ∃ after, world.tree.makeDirectories? path = some after ∧
        exec (Host.makeDirectories path >>= fun made => require made failure) world =
          (.ok (), { world with tree := after }) :=
  exec_replaceTree_cases rfl failure

theorem exec_needProject {α : Type} (value : Except Project.Problem α) (world : World) :
    exec (needProject value) world = (value.mapError .project, world) := by
  cases value <;> rfl

theorem writeBlockMap_cases (graph : Graph) (path : Path) (world : World) :
    (∃ failure, exec (writeBlockMap graph path) world = (.error failure, world)) ∨
      ∃ blocks after, Project.checkedBlocks graph = .ok blocks ∧
        world.tree.write? path (.json blocks) = some after ∧
        exec (writeBlockMap graph path) world = (.ok (), { world with tree := after }) := by
  have hneed := exec_needProject (Project.checkedBlocks graph) world
  unfold writeBlockMap
  cases hblocks : Project.checkedBlocks graph with
  | error problem =>
    rw [hblocks] at hneed
    exact .inl ⟨.project problem, exec_bind_of_error hneed _⟩
  | ok blocks =>
    rw [hblocks] at hneed
    rw [exec_bind_of_ok hneed]
    rcases exec_write_cases path (.json blocks) (.unwritable path) world with hexec | ⟨after, hafter, hexec⟩
    · exact .inl ⟨_, hexec⟩
    · exact .inr ⟨blocks, after, rfl, hafter, hexec⟩

theorem makeParent_cases (path : Path) (world : World) :
    (∃ failure, exec (makeParent path) world = (.error failure, world)) ∨
      ∃ made, world.tree.ChangesOnly [] made ∧
        exec (makeParent path) world = (.ok (), { world with tree := made }) := by
  have hnone : world.tree.ChangesOnly [] world.tree := .refl [] world.tree
  unfold makeParent
  cases path.parent? with
  | none => exact .inr ⟨world.tree, hnone, rfl⟩
  | some parent =>
    cases hempty : parent.isEmpty with
    | true =>
      simp only [hempty, Bool.not_true, Bool.false_eq_true, if_false]
      exact .inr ⟨world.tree, hnone, rfl⟩
    | false =>
      simp only [hempty, Bool.not_false, if_true]
      rcases exec_makeDirectories_cases parent (.uncreatable parent) world with hexec | ⟨made, hmade, hexec⟩
      · exact .inl ⟨_, hexec⟩
      · exact .inr ⟨made, Tree.changesOnly_of_makeDirectories? hmade, hexec⟩

section

variable {settings : Project.Settings} {graph : Graph} {report : Progress → Action Unit}

theorem exec_writeArchive_of_error {problem : Project.Problem} (h : Project.archive settings graph = .error problem)
    (path : Path) (world : World) :
    exec (writeArchive settings graph path report) world = (.error (.project problem), world) := by
  have hneed := exec_needProject (Project.archive settings graph) world
  rw [h] at hneed
  unfold writeArchive
  rw [h]
  exact exec_bind_of_error hneed _

theorem writeArchive_cases (hreport : ∀ progress world, Quiet (report progress) world ()) (path : Path)
    (world : World) :
    (∃ failure after, exec (writeArchive settings graph path report) world = (.error failure, after) ∧
        world.tree.ChangesOnly [] after.tree) ∨
      ∃ archive made after shown log, Project.archive settings graph = .ok archive ∧
        world.tree.ChangesOnly [] made ∧ made.write? path (.archive archive) = some after ∧
        exec (writeArchive settings graph path report) world = (.ok (), { world with tree := after, shown, log }) := by
  have hneed := exec_needProject (Project.archive settings graph) world
  cases harchive : Project.archive settings graph with
  | error problem => exact .inl ⟨_, world, exec_writeArchive_of_error harchive path world, .refl [] _⟩
  | ok archive =>
    rw [harchive] at hneed
    obtain ⟨shown, log, hprogress⟩ := Quiet.forM hreport (Project.archiveProgress archive.images.length) world
    unfold writeArchive
    rw [harchive, exec_bind_of_ok hneed, exec_bind_of_ok hprogress]
    rcases makeParent_cases path { world with shown, log } with ⟨failure, hexec⟩ | ⟨made, hmade, hexec⟩
    · exact .inl ⟨failure, _, exec_bind_of_error hexec _, .refl [] _⟩
    · rw [exec_bind_of_ok hexec]
      rcases exec_write_cases path (.archive archive) (.unwritable path) { world with tree := made, shown, log } with
        hexec | ⟨after, hafter, hexec⟩
      · exact .inl ⟨_, _, hexec, hmade⟩
      · exact .inr ⟨archive, made, after, shown, log, rfl, hmade, hafter, hexec⟩

end

/-! ## Stages of a run -/

section

variable {options : Options} {graph : Graph}

theorem quiet_report (progress : Progress) (world : World) : Quiet (report progress : Action Unit) world () :=
  Quiet.tell _ world

/-- The block map is in the file that it is asked for in, or nothing has changed. -/
theorem exportBlockMap_cases (options : Options) (graph : Graph) (world : World) :
    (∃ failure after, exec (exportBlockMap options graph) world = (.error failure, after) ∧
        after.tree = world.tree) ∨
      ∃ after shown log,
        exec (exportBlockMap options graph) world = (.ok (), { world with tree := after, shown, log }) ∧
        world.tree.ChangesOnly options.json.toList after ∧ after.directories = world.tree.directories ∧
        ∀ path, options.json = some path →
          ∃ blocks, Project.checkedBlocks graph = .ok blocks ∧ after.read? path = some (.json blocks) := by
  unfold exportBlockMap
  cases options.json with
  | none => exact .inr ⟨world.tree, world.shown, world.log, rfl, .refl _ _, rfl, by simp⟩
  | some path =>
    obtain ⟨shown, log, hreport⟩ := quiet_report ⟨3, options.stages, "Writing block map"⟩ world
    rw [exec_bind_of_ok hreport]
    rcases writeBlockMap_cases graph path { world with shown, log } with
      ⟨failure, hexec⟩ | ⟨blocks, after, hblocks, hafter, hexec⟩
    · exact .inl ⟨failure, _, hexec, rfl⟩
    · obtain ⟨hchanges, hdirectories, hread⟩ := Tree.changesOnly_of_write? hafter
      refine .inr ⟨after, shown, log, hexec, hchanges, hdirectories, ?_⟩
      intro other hother
      obtain rfl := Option.some.inj hother
      exact ⟨blocks, hblocks, hread⟩

theorem exportArchive_of_error {problem : Project.Problem}
    (h : Project.archive options.settings graph = .error problem) (world : World) :
    ∃ shown log, exec (exportArchive options graph) world =
      (.error (.project problem), { world with shown, log }) := by
  obtain ⟨shown, log, hreport⟩ := quiet_report ⟨options.stages, options.stages, "Building .sb3"⟩ world
  refine ⟨shown, log, ?_⟩
  unfold exportArchive
  rw [exec_bind_of_ok hreport]
  exact exec_bind_of_error (exec_writeArchive_of_error h _ _) _

/-- The archive is in its file, or no file has changed. -/
theorem exportArchive_cases (options : Options) (graph : Graph) (world : World) :
    (∃ failure after, exec (exportArchive options graph) world = (.error failure, after) ∧
        world.tree.ChangesOnly [] after.tree) ∨
      ∃ archive after, exec (exportArchive options graph) world = (.ok (), after) ∧
        Project.archive options.settings graph = .ok archive ∧
        world.tree.ChangesOnly [options.outputPath] after.tree ∧
        after.tree.read? options.outputPath = some (.archive archive) := by
  obtain ⟨shown, log, hreport⟩ := quiet_report ⟨options.stages, options.stages, "Building .sb3"⟩ world
  unfold exportArchive
  rw [exec_bind_of_ok hreport]
  rcases writeArchive_cases (fun progress => quiet_report (progress.inStage options.stages)) options.outputPath
      { world with shown, log } with
    ⟨failure, after, hexec, hkept⟩ | ⟨archive, made, written, _, _, harchive, hmade, hwritten, hexec⟩
  · exact .inl ⟨failure, after, exec_bind_of_error hexec _, hkept⟩
  · obtain ⟨hchanges, -, hread⟩ := Tree.changesOnly_of_write? hwritten
    rw [exec_bind_of_ok hexec]
    exact .inr ⟨archive, _, rfl, harchive, hmade.trans hchanges, hread⟩

/-! ## A run -/

theorem quiet_readSource {world : World} {source : String} (h : world.source options = .ok source)
    (shown log : Array String) : Quiet (readSource options) { world with shown, log } source := by
  have hsource : ({ world with shown, log } : World).source options = .ok source := h
  exact ⟨shown, log, by rw [exec_readSource, hsource]⟩

theorem runIn_of_source_error {world : World} {failure : Failure} (h : world.source options = .error failure) :
    ∃ shown log, runIn world options = (.error failure, { world with shown, log }) := by
  obtain ⟨shown, log, hreport⟩ := quiet_report ⟨1, options.stages, "Reading input"⟩ world
  have hsource : ({ world with shown, log } : World).source options = .error failure := h
  have hread := exec_readSource options { world with shown, log }
  rw [hsource] at hread
  exact ⟨shown, log, (exec_bind_of_ok hreport _).trans (exec_bind_of_error hread _)⟩

theorem runIn_of_source_ok {world : World} {source : String} (h : world.source options = .ok source) :
    let graph := (compile options.layout (options.seed.getD world.seed) source).graph
    ∃ shown log, runIn world options =
      exec (exportBlockMap options graph >>= fun _ => exportArchive options graph) { world with shown, log } := by
  intro graph
  change ComesTo (run options) _ world
  refine (quiet_report _ _).comesTo fun shown log => ?_
  refine (quiet_readSource h shown log).comesTo fun _ _ => ?_
  refine (quiet_report _ _).comesTo fun _ _ => ?_
  refine (quiet_chooseSeed options _).comesTo fun _ _ => ?_
  refine (quiet_announce options _ _).comesTo fun _ _ => ?_
  exact .refl _ _

/-- What there is before the archive is made: a run has failed and changed nothing, or it has read the notation, and the
block map is all that has changed. -/
theorem runIn_before_archive (options : Options) (world : World) :
    (∃ failure after, runIn world options = (.error failure, after) ∧ after.tree = world.tree) ∨
      ∃ source middle shown log, world.source options = .ok source ∧
        let graph := (compile options.layout (options.seed.getD world.seed) source).graph
        runIn world options = exec (exportArchive options graph) { world with tree := middle, shown, log } ∧
          world.tree.ChangesOnly options.json.toList middle ∧ middle.directories = world.tree.directories ∧
          ∀ path, options.json = some path →
            ∃ blocks, Project.checkedBlocks graph = .ok blocks ∧ middle.read? path = some (.json blocks) := by
  cases hsource : world.source options with
  | error failure =>
    obtain ⟨shown, log, hrun⟩ := runIn_of_source_error hsource
    exact .inl ⟨failure, _, hrun, rfl⟩
  | ok source =>
    obtain ⟨shown, log, hrun⟩ := runIn_of_source_ok hsource
    rw [hrun]
    rcases exportBlockMap_cases options (compile options.layout (options.seed.getD world.seed) source).graph
        { world with shown, log } with ⟨failure, after, hexec, htree⟩ | ⟨middle, shown, log, hexec, hmiddle⟩
    · exact .inl ⟨failure, after, exec_bind_of_error hexec _, htree⟩
    · exact .inr ⟨source, middle, shown, log, rfl, exec_bind_of_ok hexec _, hmiddle⟩

/-- All that a run can come to: it fails, and the block map is all that can have changed, or it has read the notation
before it has changed anything, and has written both files. -/
theorem runIn_cases (options : Options) (world : World) :
    let after := (runIn world options).2.tree
    ((∃ failure, (runIn world options).1 = .error failure) ∧ world.tree.ChangesOnly options.json.toList after) ∨
      (runIn world options).1 = .ok () ∧ ∃ source archive, world.source options = .ok source ∧
        let graph := (compile options.layout (options.seed.getD world.seed) source).graph
        Project.archive options.settings graph = .ok archive ∧
          after.read? options.outputPath = some (.archive archive) ∧
          world.tree.ChangesOnly (options.json.toList ++ [options.outputPath]) after ∧
          ∀ path, options.json = some path → after.target? options.outputPath ≠ after.target? path →
            ∃ blocks, Project.checkedBlocks graph = .ok blocks ∧ after.read? path = some (.json blocks) := by
  rcases runIn_before_archive options world with
    ⟨failure, after, hrun, htree⟩ | ⟨source, middle, shown, log, hsource, hrun, hmiddle, -, hjson⟩
  · rw [hrun]
    exact .inl ⟨⟨failure, rfl⟩, htree ▸ .refl _ _⟩
  · rcases exportArchive_cases options (compile options.layout (options.seed.getD world.seed) source).graph
        { world with tree := middle, shown, log } with
      ⟨failure, after, hexec, hkept⟩ | ⟨archive, after, hexec, harchive, hchanges, hread⟩
    · rw [hrun, hexec]
      exact .inl ⟨⟨failure, rfl⟩, by simpa using hmiddle.trans hkept⟩
    · rw [hrun, hexec]
      refine .inr ⟨rfl, source, archive, hsource, harchive, hread, hmiddle.trans hchanges, ?_⟩
      intro path hpath hother
      obtain ⟨blocks, hblocks, hthere⟩ := hjson path hpath
      exact ⟨blocks, hblocks, hchanges.read?_eq hthere (by simpa using hother)⟩

theorem runIn_of_archive_error {world : World}
    (h : ∀ graph, ∃ problem, Project.archive options.settings graph = .error problem) :
    (∃ failure, (runIn world options).1 = .error failure) ∧
      (runIn world options).2.tree.directories = world.tree.directories := by
  rcases runIn_before_archive options world with
    ⟨failure, after, hrun, htree⟩ | ⟨source, middle, shown, log, -, hrun, -, hdirectories, -⟩
  · rw [hrun]
    exact ⟨⟨failure, rfl⟩, congrArg Tree.directories htree⟩
  · obtain ⟨problem, hproblem⟩ := h (compile options.layout (options.seed.getD world.seed) source).graph
    obtain ⟨_, _, hfails⟩ := exportArchive_of_error hproblem _
    rw [hrun, hfails]
    exact ⟨⟨_, rfl⟩, hdirectories⟩

end

/-- What a run has written: the archive of the project that is built from the notation, and the block map if it is asked
for and its file is another one. -/
structure Written (world : World) (options : Options) (source : String) (project : Json) (archive : Archive)
    (after : Tree) : Prop where
  document_eq : Project.document options.settings
    (compile options.layout (options.seed.getD world.seed) source).graph = .ok project
  archive_eq : Project.archive options.settings
    (compile options.layout (options.seed.getD world.seed) source).graph = .ok archive
  entries : archive.entries = [⟨"project.json", project.compact⟩, options.settings.costume.entry]
  stored : after.read? options.outputPath = some (.archive archive)
  changes : world.tree.ChangesOnly (options.json.toList ++ [options.outputPath]) after
  blockMap : ∀ path, options.json = some path → after.target? options.outputPath ≠ after.target? path →
    ∃ blocks, Project.checkedBlocks (compile options.layout (options.seed.getD world.seed) source).graph = .ok blocks ∧
      after.read? path = some (.json blocks)

/-- What a run leaves behind. If the notation cannot be read, nothing changes. If the name of the sprite is refused,
there is no archive and no new directory. Whatever a run fails for, no file changes but that of the block map. If all
goes well, the archive is that of the notation as it was before the run, and no other files have changed than those of
the block map and the archive. -/
structure Footprint (world : World) (options : Options) (after : Tree) : Prop where
  unread : ∀ failure, (readIn world options).1 = .error failure →
    (runIn world options).1 = .error failure ∧ after = world.tree
  no_archive : ∀ (settings : Project.Settings) graph path, settings.IsRefused →
    ∃ problem, writeArchiveIn world settings graph path = (.error (.project problem), world)
  refused : options.settings.IsRefused →
    (∃ failure, (runIn world options).1 = .error failure) ∧ after.directories = world.tree.directories
  failed : ∀ failure, (runIn world options).1 = .error failure → world.tree.ChangesOnly options.json.toList after
  succeeded : (runIn world options).1 = .ok () →
    ∃ source project archive, world.Offers options source ∧ Written world options source project archive after

theorem run_footprint (world : World) (options : Options) : Footprint world options (runIn world options).2.tree where
  unread failure hread := by
    have hsource : world.source options = .error failure := by
      rw [← hread]
      exact (congrArg Prod.fst (exec_readSource options world)).symm
    obtain ⟨shown, log, hrun⟩ := runIn_of_source_error hsource
    rw [hrun]
    exact ⟨rfl, rfl⟩
  no_archive settings graph path hrefused := by
    obtain ⟨problem, hproblem⟩ := Project.archive_eq_error hrefused graph
    exact ⟨problem, exec_writeArchive_of_error hproblem path world⟩
  refused hrefused := runIn_of_archive_error (Project.archive_eq_error hrefused)
  failed failure hfails := by
    rcases runIn_cases options world with ⟨-, hchanges⟩ | ⟨hok, -⟩
    · exact hchanges
    · simp [hok] at hfails
  succeeded hok := by
    rcases runIn_cases options world with
      ⟨⟨failure, hfails⟩, -⟩ | ⟨-, source, archive, hsource, harchive, hstored, hchanges, hblocks⟩
    · simp [hok] at hfails
    · obtain ⟨project, hproject, hentries⟩ := Project.exists_of_archive_eq_ok harchive
      exact ⟨source, project, archive, World.offers_of_source hsource,
        hproject, harchive, hentries, hstored, hchanges, hblocks⟩

/-- The block map replaces the file that the notation is read from, and the archive is made all the same. The same run
with another input or another name changes nothing, or nothing but that file. -/
theorem run_footprint_replacing :
    let world : World := { tree := { files := [(["a.txt"], .bytes "show".toUTF8)] } }
    let path := Path.ofString "a.txt"
    let options : Options := { input := path, output := some (.ofString "out/a.sb3"), json := some path }
    let missing : Options := { options with input := .ofString "b.txt" }
    let refused : Options := { options with spriteName := some " STAGE" }
    ((readIn world missing).1 = .error (.missingInput missing.input) ∧ (runIn world missing).2.tree = world.tree) ∧
      (refused.settings.IsRefused ∧
        (∃ problem, writeArchiveIn world refused.settings {} path = (.error (.project problem), world)) ∧
        (runIn world refused).2.tree.directories = [] ∧
        world.tree.ChangesOnly [path] (runIn world refused).2.tree) ∧
      (runIn world options).1 = .ok () ∧
        ∃ source project archive blocks, world.Offers options source ∧
          Written world options source project archive (runIn world options).2.tree ∧
          (runIn world options).2.tree.read? path = some (.json blocks) := by
  intro world path options missing refused
  have hmissing : (readIn world missing).1 = .error (.missingInput missing.input) := by decide +kernel
  have hrefused : refused.settings.IsRefused := .inr (by decide)
  have hrun : (runIn world options).1 = .ok () ∧ (runIn world options).2.tree.target? options.outputPath ≠
      (runIn world options).2.tree.target? path := by
    -- the digest of the image does not matter here, and would take long to work out
    unfold runIn run exportArchive writeArchive
    simp only [Project.archive_eq_map]
    decide +kernel
  obtain ⟨hok, hother⟩ := hrun
  obtain ⟨⟨failure, hfails⟩, hdirectories⟩ := (run_footprint world refused).refused hrefused
  obtain ⟨source, project, archive, hoffers, hwritten⟩ := (run_footprint world options).succeeded hok
  obtain ⟨blocks, -, hblocks⟩ := hwritten.blockMap path rfl hother
  exact ⟨⟨hmissing, ((run_footprint world missing).unread _ hmissing).2⟩,
    ⟨hrefused, (run_footprint world refused).no_archive _ _ _ hrefused, hdirectories,
      (run_footprint world refused).failed failure hfails⟩,
    hok, source, project, archive, blocks, hoffers, hwritten, hblocks⟩

end Command

end ScratchScript
